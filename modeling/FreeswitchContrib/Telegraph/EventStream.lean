import FreeswitchContrib.Telegraph.EventText

/-!
# Streams of events

After each call the buffer is the event that was passed last, which was not cut off, with the
beginning of the next header behind it; or the beginning of an event whose header was found.

`receiveAll_events` says that this goes well as long as

* no chunk ends within the content type of a header or the empty line behind it, as the pattern for
  the header takes a part of the content type for all of it (`Cut`);
* nothing in an event looks like a header (`Quiet`), as the event is searched again;
* each event is `Readable`.
-/

namespace FreeswitchContrib.Telegraph

open Search Numeral

namespace EventMessage

/-- The header up to where its content type begins. -/
def lead (m : EventMessage) : Text :=
  "Content-Length: ".toList ++ m.digits ++ "\nContent-Type: ".toList

def header (m : EventMessage) : Text :=
  m.lead ++ "text/event-plain\n\n".toList

def wire (m : EventMessage) : Text :=
  m.header ++ m.text

end EventMessage

/-- Nothing that begins in the text is taken for a header, with this behind it. -/
def Quiet (text next : Text) : Prop :=
  ∀ s, s <:+ text → s ≠ [] →
    contentTypeHere (s ++ next) = none ∧ announcementHere (s ++ next) = none

/-- Where the data that have come may end: behind whole messages, before the content type of the
next one, or in its event. -/
def Cut : List EventMessage → Text → Prop
  | [], data => data = []
  | m :: ms, data =>
    data <+: m.lead ∨ (∃ t, data = m.header ++ t ∧ t <+: m.text ∧ t ≠ m.text) ∨
      ∃ rest, data = m.wire ++ rest ∧ Cut ms rest

variable {m : EventMessage} {ms : List EventMessage} {text next rest x y s data t : Text} {c : Char}

/-! ## Longer texts -/

lemma behind_longer {literal : Text} (h : behind literal x = some rest) (y : Text) :
    behind literal (x ++ y) = some (rest ++ y) := by
  rw [behind_eq_some h, List.append_assoc, behind_append]

lemma spaced_ne_none {letter : Char → Bool} (h : spaced letter x ≠ none) (y : Text) :
    spaced letter (x ++ y) ≠ none := by
  obtain ⟨found, hfound⟩ := Option.ne_none_iff_exists'.1 h
  obtain ⟨c, rfl, hc, hne, hletters⟩ := spaced_eq_some hfound
  obtain ⟨l, ls, hls⟩ := List.exists_cons_of_ne_nil hne
  have hl : letter l = true := hletters l (by rw [hls]; exact List.mem_cons_self)
  rw [hls, List.cons_append, spaced, if_pos]
  · exact Option.some_ne_none _
  · refine ⟨hc, ?_⟩
    rw [List.cons_append, List.cons_append, List.takeWhile_cons_of_pos hl]
    exact List.cons_ne_nil _ _

lemma spaced_longer {letter : Char → Bool} {found : Text × Text}
    (h : spaced letter x = some found) (hne : found.2 ≠ []) (y : Text) :
    spaced letter (x ++ y) = some (found.1, found.2 ++ y) := by
  cases x with
  | nil => cases h
  | cons c x =>
    rw [spaced] at h
    split_ifs at h with hspace
    obtain rfl := Option.some.inj h
    have hsplit : x ++ y = x.takeWhile letter ++ (x.dropWhile letter ++ y) := by
      rw [← List.append_assoc, List.takeWhile_append_dropWhile]
    rw [List.cons_append, hsplit]
    refine spaced_append hspace.1 hspace.2 (fun l hl => List.mem_takeWhile_imp hl) ?_
    intro l hl
    rw [List.head?_append_of_ne_nil _ hne] at hl
    have hnot := List.head?_dropWhile_not letter x
    cases hhead : (x.dropWhile letter).head? with
    | none =>
      rw [hhead] at hl
      cases hl
    | some l' =>
      rw [hhead] at hl hnot
      obtain rfl := Option.some.inj hl
      simpa using hnot

/-- What is taken for a content type is so with more behind it. -/
lemma contentTypeHere_of_longer (h : contentTypeHere (x ++ y) = none) : contentTypeHere x = none := by
  by_contra hne
  rw [contentTypeHere] at h hne
  cases hbehind : behind "Content-Type:".toList x with
  | none =>
    rw [hbehind] at hne
    exact hne rfl
  | some rest =>
    rw [hbehind, Option.bind_some] at hne
    rw [behind_longer hbehind, Option.bind_some] at h
    exact spaced_ne_none hne y h

lemma lengthHere_longer {found : Text × Text} (h : lengthHere x = some found)
    (hne : found.2 ≠ []) (y : Text) : lengthHere (x ++ y) = some (found.1, found.2 ++ y) := by
  rw [lengthHere] at h ⊢
  obtain ⟨rest, hbehind, hspaced⟩ := Option.bind_eq_some_iff.1 h
  rw [behind_longer hbehind, Option.bind_some, spaced_longer hspaced hne]

/-- What an announcement is made of. -/
lemma announcementHere_ne_none (h : announcementHere x ≠ none) :
    ∃ digits rest rest', lengthHere x = some (digits, rest) ∧
      rest = "\nContent-Type:".toList ++ rest' ∧
      spaced (fun c => typeLetter c || c == '-') rest' ≠ none := by
  rw [announcementHere] at h
  cases hlength : lengthHere x with
  | none =>
    rw [hlength] at h
    exact absurd rfl h
  | some found =>
    obtain ⟨digits, rest⟩ := found
    simp only [hlength, Option.bind_eq_bind, Option.bind_some] at h
    cases hbehind : behind "\nContent-Type:".toList rest with
    | none =>
      rw [hbehind] at h
      exact absurd rfl h
    | some rest' =>
      rw [hbehind, Option.bind_some] at h
      refine ⟨digits, rest, rest', rfl, behind_eq_some hbehind, ?_⟩
      intro hnone
      rw [hnone] at h
      exact h rfl

lemma announcementHere_of_longer (h : announcementHere (x ++ y) = none) :
    announcementHere x = none := by
  by_contra hne
  obtain ⟨digits, rest, rest', hlength, hrest, hspaced⟩ := announcementHere_ne_none hne
  have hlong := lengthHere_longer hlength (by rw [hrest]; simp) y
  obtain ⟨found, hfound⟩ := Option.ne_none_iff_exists'.1 (spaced_ne_none hspaced y)
  rw [announcementHere, hlong] at h
  simp only [hrest, List.append_assoc, Option.bind_eq_bind, Option.bind_some, behind_append,
    hfound] at h
  cases h

lemma announcementHere_of_length (h : lengthHere x = none) : announcementHere x = none := by
  rw [announcementHere, h]
  rfl

lemma two_le_of_spaced {letter : Char → Bool} (h : spaced letter x ≠ none) : 2 ≤ x.length := by
  obtain ⟨found, hfound⟩ := Option.ne_none_iff_exists'.1 h
  obtain ⟨c, rfl, -, hne, -⟩ := spaced_eq_some hfound
  have hpos := List.length_pos_of_ne_nil hne
  rw [List.length_cons, List.length_append]
  omega

lemma contentTypeHere_short (h : x.length < 15) : contentTypeHere x = none := by
  by_contra hne
  rw [contentTypeHere] at hne
  cases hbehind : behind "Content-Type:".toList x with
  | none =>
    rw [hbehind] at hne
    exact hne rfl
  | some rest =>
    rw [hbehind, Option.bind_some] at hne
    have htwo := two_le_of_spaced hne
    rw [behind_eq_some hbehind, List.length_append] at h
    change 13 + rest.length < 15 at h
    omega

lemma lengthHere_short (h : x.length < 17) : lengthHere x = none := by
  by_contra hne
  rw [lengthHere] at hne
  cases hbehind : behind "Content-Length:".toList x with
  | none =>
    rw [hbehind] at hne
    exact hne rfl
  | some rest =>
    rw [hbehind, Option.bind_some] at hne
    have htwo := two_le_of_spaced hne
    rw [behind_eq_some hbehind, List.length_append] at h
    change 15 + rest.length < 17 at h
    omega

lemma contentTypeHere_of_ne (hc : 'C' ≠ c) : contentTypeHere (c :: text) = none := by
  have hnone : behind "Content-Type:".toList (c :: text) = none :=
    behind_of_ne hc
  rw [contentTypeHere, hnone, Option.bind_none]

/-! ## Headers -/

namespace EventMessage

/-- The first line of the header. -/
def lengthLine (m : EventMessage) : Text :=
  "Content-Length: ".toList ++ m.digits ++ ['\n']

lemma lead_eq (m : EventMessage) : m.lead = m.lengthLine ++ "Content-Type: ".toList := by
  have hline : "\nContent-Type: ".toList = ['\n'] ++ "Content-Type: ".toList := by decide
  have hlead : m.lead = "Content-Length: ".toList ++ m.digits
      ++ (['\n'] ++ "Content-Type: ".toList) :=
    congrArg ("Content-Length: ".toList ++ m.digits ++ ·) hline
  exact hlead.trans (List.append_assoc _ _ _).symm

lemma lengthLine_eq (m : EventMessage) :
    m.lengthLine = 'C' :: ("ontent-Length: ".toList ++ m.digits ++ ['\n']) := rfl

lemma not_mem_lengthLine (m : EventMessage) :
    'C' ∉ "ontent-Length: ".toList ++ m.digits ++ ['\n'] := by
  have hdigits := isDigit_of_decimal m.announced
  have hletter : 'C' ∉ m.digits := fun hmem => absurd (hdigits 'C' hmem) (by decide)
  have hliteral : 'C' ∉ "ontent-Length: ".toList := by decide
  rw [List.mem_append, List.mem_append]
  rintro ((h | h) | h)
  · exact hliteral h
  · exact hletter h
  · exact absurd h (by decide)

/-- The line with the length is not taken for a content type, whatever follows it. -/
lemma contentTypeHere_lengthLine (hs : s <:+ m.lengthLine) (hne : s ≠ []) (y : Text) :
    contentTypeHere (s ++ y) = none := by
  rw [lengthLine_eq, List.suffix_cons_iff] at hs
  rcases hs with rfl | hs
  · have hnone : behind "Content-Type:".toList
        ('C' :: ("ontent-Length: ".toList ++ m.digits ++ ['\n']) ++ y) = none := by
      rw [behind, if_neg]
      rintro ⟨z, hz⟩
      have hletter : some 'T' = some 'L' := congrArg (fun l : List Char => l[8]?) hz
      exact absurd hletter (by decide)
    rw [contentTypeHere, hnone, Option.bind_none]
  · obtain ⟨c, s, rfl⟩ := List.exists_cons_of_ne_nil hne
    have hc : 'C' ≠ c := by
      rintro rfl
      exact m.not_mem_lengthLine (hs.subset List.mem_cons_self)
    exact contentTypeHere_of_ne hc

lemma search_contentType_append (hquiet : Quiet text next) (hx : x <+: next) :
    search contentTypeHere (text ++ x)
      = (search contentTypeHere x).map fun (i, found) => (text.length + i, found) := by
  obtain ⟨z, rfl⟩ := hx
  refine search_append fun s hs hne => contentTypeHere_of_longer (y := z) ?_
  rw [List.append_assoc]
  exact (hquiet s hs hne).1

lemma search_announcement_append (hquiet : Quiet text next) (hx : x <+: next) :
    search announcementHere (text ++ x)
      = (search announcementHere x).map fun (i, found) => (text.length + i, found) := by
  obtain ⟨z, rfl⟩ := hx
  refine search_append fun s hs hne => announcementHere_of_longer (y := z) ?_
  rw [List.append_assoc]
  exact (hquiet s hs hne).2

/-- The header is not found before its content type begins. -/
lemma contentType_lead (hx : x <+: m.lead) : search contentTypeHere x = none := by
  rw [search_eq_none_iff]
  intro s hs
  obtain ⟨z, hz⟩ := hx
  rw [lead_eq] at hz
  have hsuffix : s ++ z <:+ m.lengthLine ++ "Content-Type: ".toList := by
    obtain ⟨before, rfl⟩ := hs
    exact ⟨before, by rw [← hz, List.append_assoc]⟩
  rcases suffix_append_cases hsuffix with hshort | ⟨s', hs', hline, hne⟩
  · have hlength := hshort.length_le
    rw [List.length_append] at hlength
    change s.length + z.length ≤ 14 at hlength
    exact contentTypeHere_short (by omega)
  · refine contentTypeHere_of_longer (y := z) ?_
    rw [hs']
    exact contentTypeHere_lengthLine hline hne _

/-- Of the two lines, the first one is read as the length; then the type is missing. -/
lemma announcementHere_lead (hx : x <+: m.lead) : announcementHere x = none := by
  obtain ⟨z, hz⟩ := hx
  refine announcementHere_of_longer (y := z) ?_
  rw [hz]
  by_contra hne
  obtain ⟨digits, rest, rest', hlength, hrest, hspaced⟩ := announcementHere_ne_none hne
  have hfound : lengthHere m.lead = some (m.digits, "\nContent-Type: ".toList) :=
    lengthHere_append m.announced
      fun l hl => by obtain rfl : '\n' = l := Option.some.inj hl; decide
  rw [hlength] at hfound
  obtain ⟨-, hline⟩ := Prod.mk.inj (Option.some.inj hfound)
  have hsplit : "\nContent-Type: ".toList = "\nContent-Type:".toList ++ [' '] := by decide
  rw [hline, hsplit] at hrest
  have hblank : [' '] = rest' := List.append_cancel_left hrest
  have htwo := two_le_of_spaced hspaced
  rw [← hblank] at htwo
  exact absurd htwo (by decide)

lemma announcement_lead (hx : x <+: m.lead) : search announcementHere x = none := by
  rw [search_eq_none_iff]
  intro s hs
  obtain ⟨before, rfl⟩ := hs
  obtain ⟨z, hz⟩ := hx
  rcases before with _ | ⟨b, before⟩
  · exact announcementHere_lead ⟨z, hz⟩
  · rw [lead_eq, lengthLine_eq, List.cons_append, List.cons_append, List.cons_append,
      List.cons.injEq] at hz
    have hsuffix : s ++ z <:+ ("ontent-Length: ".toList ++ m.digits ++ ['\n'])
        ++ "Content-Type: ".toList := ⟨before, by rw [← hz.2, List.append_assoc]⟩
    rcases suffix_append_cases hsuffix with hshort | ⟨s', hs', hline, hne⟩
    · have hlength := hshort.length_le
      rw [List.length_append] at hlength
      change s.length + z.length ≤ 14 at hlength
      exact announcementHere_of_length (lengthHere_short (by omega))
    · obtain ⟨c, s', rfl⟩ := List.exists_cons_of_ne_nil hne
      have hc : 'C' ≠ c := by
        rintro rfl
        exact m.not_mem_lengthLine (hline.subset List.mem_cons_self)
      refine announcementHere_of_longer (y := z) ?_
      rw [hs', List.cons_append]
      exact announcementHere_of_length (lengthHere_of_ne hc)

/-- The header is found by the outer pattern, with the type up to its hyphen. -/
lemma contentType_header (m : EventMessage) (y : Text) : ∃ i rest,
    search contentTypeHere (m.header ++ y) = some (i, "text/event".toList, rest) := by
  have hheader : m.header ++ y
      = m.lengthLine ++ ("Content-Type:".toList ++ ' ' :: ("text/event".toList
        ++ ("-plain\n\n".toList ++ y))) := by
    have htype : "text/event-plain\n\n".toList = "text/event".toList ++ "-plain\n\n".toList := by
      decide
    have hname : "Content-Type: ".toList = "Content-Type:".toList ++ [' '] := by decide
    have hparts : m.header = m.lead ++ ("text/event".toList ++ "-plain\n\n".toList) :=
      congrArg (m.lead ++ ·) htype
    have hlead : m.lead = m.lengthLine ++ ("Content-Type:".toList ++ [' ']) :=
      m.lead_eq.trans (congrArg (m.lengthLine ++ ·) hname)
    rw [hparts, hlead]
    simp only [List.append_assoc, List.cons_append, List.nil_append]
  have hspaced : spaced typeLetter (' ' :: ("text/event".toList ++ ("-plain\n\n".toList ++ y)))
      = some ("text/event".toList, "-plain\n\n".toList ++ y) := by
    refine spaced_append (by decide) (by decide) (by decide) ?_
    intro l hl
    obtain rfl : '-' = l := Option.some.inj hl
    decide
  have hhere : contentTypeHere ("Content-Type:".toList ++ ' ' :: ("text/event".toList
      ++ ("-plain\n\n".toList ++ y))) = some ("text/event".toList, "-plain\n\n".toList ++ y) := by
    rw [contentTypeHere, behind_append, Option.bind_some, hspaced]
  rw [hheader, search_append fun s hs hne => contentTypeHere_lengthLine hs hne _,
    search_of_here hhere]
  exact ⟨_, _, rfl⟩

/-- The header is found by the inner pattern, with its length. -/
lemma announcement_header (m : EventMessage) (y : Text) :
    search announcementHere (m.header ++ y)
      = some (0, m.digits, "text/event-plain".toList, "\n\n".toList ++ y) := by
  have hheader : m.header ++ y = "Content-Length: ".toList ++ m.digits
      ++ ("\nContent-Type:".toList ++ ' ' :: ("text/event-plain".toList
        ++ ("\n\n".toList ++ y))) := by
    have htype : "text/event-plain\n\n".toList = "text/event-plain".toList ++ "\n\n".toList := by
      decide
    have hname : "\nContent-Type: ".toList = "\nContent-Type:".toList ++ [' '] := by decide
    have hparts : m.header = m.lead ++ ("text/event-plain".toList ++ "\n\n".toList) :=
      congrArg (m.lead ++ ·) htype
    have hlead : m.lead = "Content-Length: ".toList ++ m.digits
        ++ ("\nContent-Type:".toList ++ [' ']) :=
      congrArg ("Content-Length: ".toList ++ m.digits ++ ·) hname
    rw [hparts, hlead]
    simp only [List.append_assoc, List.cons_append, List.nil_append]
  have hnewline : ∀ l ∈ ("\nContent-Type:".toList ++ ' ' :: ("text/event-plain".toList
      ++ ("\n\n".toList ++ y))).head?, l.isDigit = false := by
    intro l hl
    obtain rfl : '\n' = l := Option.some.inj hl
    decide
  have hlength := lengthHere_append m.announced hnewline
  have hspaced : spaced (fun c => typeLetter c || c == '-')
      (' ' :: ("text/event-plain".toList ++ ("\n\n".toList ++ y)))
      = some ("text/event-plain".toList, "\n\n".toList ++ y) := by
    refine spaced_append (by decide) (by decide) (by decide) ?_
    intro l hl
    obtain rfl : '\n' = l := Option.some.inj hl
    decide
  rw [hheader]
  refine search_of_here ?_
  rw [announcementHere, hlength]
  simp only [Option.bind_eq_bind, Option.bind_some, behind_append, hspaced, Option.pure_def]

/-- Nothing is found in the beginning of an event. -/
lemma quiet_prefix (hquiet : Quiet m.text next) (ht : t <+: m.text) :
    search contentTypeHere t = none ∧ search announcementHere t = none := by
  obtain ⟨z, hz⟩ := ht
  have hlonger : ∀ s, s <:+ t → s ≠ [] → s ++ z <:+ m.text := by
    rintro s ⟨before, rfl⟩ _
    exact ⟨before, by rw [← hz, List.append_assoc]⟩
  constructor
  · rw [search_eq_none_iff]
    intro s hs
    by_cases hne : s = []
    · rw [hne]
      exact contentTypeHere_short (by decide)
    · have hfull := (hquiet (s ++ z) (hlonger s hs hne) (by simp [hne])).1
      exact contentTypeHere_of_longer (contentTypeHere_of_longer hfull)
  · rw [search_eq_none_iff]
    intro s hs
    by_cases hne : s = []
    · rw [hne]
      exact announcementHere_of_length (lengthHere_short (by decide))
    · have hfull := (hquiet (s ++ z) (hlonger s hs hne) (by simp [hne])).2
      exact announcementHere_of_longer (announcementHere_of_longer hfull)

end EventMessage

/-! ## Calls -/

def wires (ms : List EventMessage) : Text :=
  ms.flatMap EventMessage.wire

/-- Each event can be read, and is not searched for headers in vain. -/
def Separated (ms : List EventMessage) : Prop :=
  ∀ m behind, m :: behind <:+ ms → m.Readable ∧ Quiet m.text (wires behind)

lemma Separated.tail (h : Separated (m :: ms)) : Separated ms :=
  fun m' behind hsuffix => h m' behind (hsuffix.trans (List.suffix_cons m ms))

/-- The state between two calls: of the messages that are not passed, these data have come. -/
inductive Waiting (s : VoiceEventsServer) : List EventMessage → Text → Prop where
  | between (ms : List EventMessage) (before data : Text) (hsize : s.nextEventSize = none)
      (hbuffer : s.receivedBuffer = before ++ data) (hquiet : Quiet before (wires ms))
      (hdata : ∀ m ∈ ms.head?, data <+: m.lead) (hend : ms = [] → data = []) : Waiting s ms data
  | within (m : EventMessage) (ms : List EventMessage) (t : Text)
      (hsize : s.nextEventSize = some m.text.length) (hbuffer : s.receivedBuffer = t)
      (hleads : t <+: m.text) (hne : t ≠ m.text) : Waiting s (m :: ms) (m.header ++ t)

/-- What is left to be passed, after these messages have been. -/
structure Progress (s s' : VoiceEventsServer) (ms : List EventMessage) (data : Text)
    (done rest : List EventMessage) (left : Text) : Prop where
  messages : ms = done ++ rest
  data : data = wires done ++ left
  waiting : Waiting s' rest left
  passed : s'.passed = s.passed ++ done.map EventMessage.event

variable {sv sv' : VoiceEventsServer} {before : Text}

lemma lead_prefix_wire (m : EventMessage) (rest : Text) : m.lead <+: m.wire ++ rest := by
  rw [EventMessage.wire, EventMessage.header, List.append_assoc, List.append_assoc]
  exact List.prefix_append _ _

/-- Before the content type of the next header nothing is found. -/
lemma search_between (hquiet : Quiet before (wires ms)) (hdata : ∀ m ∈ ms.head?, data <+: m.lead)
    (hend : ms = [] → data = []) :
    search contentTypeHere (before ++ data) = none ∧
      search announcementHere (before ++ data) = none := by
  have hleads : data <+: wires ms := by
    cases ms with
    | nil => rw [hend rfl]; exact List.nil_prefix
    | cons m ms => exact (hdata m rfl).trans (lead_prefix_wire m _)
  rw [EventMessage.search_contentType_append hquiet hleads,
    EventMessage.search_announcement_append hquiet hleads, Option.map_eq_none_iff,
    Option.map_eq_none_iff]
  cases ms with
  | nil =>
    rw [hend rfl]
    exact ⟨rfl, rfl⟩
  | cons m ms =>
    exact ⟨EventMessage.contentType_lead (hdata m rfl), EventMessage.announcement_lead (hdata m rfl)⟩

lemma search_waiting (hsep : Separated ms) (h : Waiting sv ms data) :
    search contentTypeHere sv.receivedBuffer = none ∧
      search announcementHere sv.receivedBuffer = none := by
  cases h with
  | between ms before data hsize hbuffer hquiet hdata hend =>
    rw [hbuffer]
    exact search_between hquiet hdata hend
  | within m ms t hsize hbuffer hleads hne =>
    rw [hbuffer]
    exact EventMessage.quiet_prefix (hsep m ms List.suffix_rfl).2 hleads

lemma take_text (m : EventMessage) (rest : Text) :
    (m.text ++ rest).take m.text.length = m.text := List.take_left

/-- An event that is there completely is passed, and stays in the buffer. -/
lemma processEvent_text (hm : m.Readable) (hsize : sv.nextEventSize = some m.text.length)
    (hbuffer : sv.receivedBuffer = m.text ++ rest) :
    sv.processEvent = .ok { sv with
      nextEventSize := none
      passed := sv.passed ++ [m.event] } := by
  have hlength : m.text.length ≤ sv.receivedBuffer.length := by
    rw [hbuffer, List.length_append]
    exact Nat.le_add_right _ _
  have hne : m.text.length ≠ 0 := Nat.ne_of_gt (List.length_pos_of_ne_nil m.text_ne_nil)
  rw [VoiceEventsServer.processEvent, hsize]
  dsimp only
  rw [if_pos hlength, if_neg hne, hbuffer, take_text, EventMessage.readEvent_text hm]

/-- A part of an event waits for the rest. -/
lemma processEvent_part (hsize : sv.nextEventSize = some m.text.length)
    (hleads : sv.receivedBuffer <+: m.text) (hne : sv.receivedBuffer ≠ m.text) :
    sv.processEvent = .ok sv := by
  have hlength : ¬ m.text.length ≤ sv.receivedBuffer.length :=
    fun hle => hne (hleads.eq_of_length_le hle)
  rw [VoiceEventsServer.processEvent, hsize]
  dsimp only
  rw [if_neg hlength]

/-- Behind a header, nothing of the event is removed as white space. -/
lemma dropWhile_header (hx : x = [] ∨ ∃ rest, x = 'E' :: rest) :
    ("\n\n".toList ++ x).dropWhile space = x := by
  have hnewlines : ("\n\n".toList ++ x).dropWhile space = x.dropWhile space := rfl
  rw [hnewlines]
  rcases hx with rfl | ⟨rest, rfl⟩
  · rfl
  · exact List.dropWhile_cons_of_neg (by decide)

lemma prefix_text_cases (hleads : t <+: m.text) : t = [] ∨ ∃ rest, t = 'E' :: rest := by
  obtain ⟨rest, hrest⟩ := m.exists_text
  rcases t with _ | ⟨c, t⟩
  · exact Or.inl rfl
  · rw [hrest] at hleads
    obtain rfl := (List.cons_prefix_cons.1 hleads).1
    exact Or.inr ⟨t, rfl⟩

/-- The round of the inner loop that finds a header. -/
lemma eventLoop_header (hquiet : Quiet before (wires (m :: ms)))
    (hleads : m.header ++ y <+: wires (m :: ms))
    (hbuffer : sv.receivedBuffer = before ++ (m.header ++ y))
    (hy : y = [] ∨ ∃ rest, y = 'E' :: rest) (fuel : ℕ) :
    sv.eventLoop (fuel + 1) =
      match { sv with
        nextEventSize := some m.text.length
        receivedBuffer := y }.processEvent with
      | .ok s => s.eventLoop fuel
      | .error s => some (.error s) := by
  have hdigits : (decimal m.digits).getD 0 = m.text.length := by
    rw [m.announced]
    rfl
  rw [VoiceEventsServer.eventLoop, hbuffer,
    EventMessage.search_announcement_append hquiet hleads, m.announcement_header y,
    Option.map_some]
  dsimp only
  rw [hdigits]
  have hbehind := dropWhile_header hy
  generalize List.dropWhile space ("\n\n".toList ++ y) = behind at hbehind ⊢
  subst hbehind
  exact rfl

lemma wires_cons (m : EventMessage) (ms : List EventMessage) :
    wires (m :: ms) = m.header ++ (m.text ++ wires ms) := by
  rw [wires, List.flatMap_cons, EventMessage.wire, List.append_assoc, ← wires]

/-- Data that may end there are the beginning of the stream. -/
lemma Cut.leads (h : Cut ms data) : data <+: wires ms := by
  induction ms generalizing data with
  | nil => rw [Cut] at h; rw [h]; exact List.nil_prefix
  | cons m ms ih =>
    rw [wires_cons]
    rcases h with hlead | ⟨t, rfl, ht, -⟩ | ⟨rest, rfl, hrest⟩
    · rw [EventMessage.header, List.append_assoc]
      exact hlead.trans (List.prefix_append _ _)
    · exact (List.prefix_append_right_inj _).2 (ht.trans (List.prefix_append _ _))
    · rw [EventMessage.wire, List.append_assoc, List.prefix_append_right_inj,
        List.prefix_append_right_inj]
      exact ih hrest

/-- **The inner loop** passes the events that have come, by induction on the messages. -/
lemma eventLoop_progress (hsep : Separated ms) (hsize : sv.nextEventSize = none)
    (hbuffer : sv.receivedBuffer = before ++ data) (hquiet : Quiet before (wires ms))
    (hcut : Cut ms data) {fuel : ℕ} (hfuel : sv.receivedBuffer.length < fuel) :
    ∃ sv' done rest left, sv.eventLoop fuel = some (.ok sv') ∧
      Progress sv sv' ms data done rest left := by
  induction ms generalizing sv before data fuel with
  | nil =>
    rw [Cut] at hcut
    subst hcut
    obtain ⟨fuel, rfl⟩ := Nat.exists_eq_succ_of_ne_zero (Nat.ne_of_gt (Nat.zero_lt_of_lt hfuel))
    have hnone := (search_between hquiet (fun m hm => by cases hm) fun _ => rfl).2
    rw [VoiceEventsServer.eventLoop, hbuffer, hnone]
    exact ⟨sv, [], [], [], rfl, rfl, rfl, .between [] before [] hsize hbuffer hquiet
      (fun m hm => by cases hm) fun _ => rfl, (List.append_nil _).symm⟩
  | cons m ms ih =>
    obtain ⟨hread, hquietText⟩ := hsep m ms List.suffix_rfl
    obtain ⟨fuel, rfl⟩ := Nat.exists_eq_succ_of_ne_zero (Nat.ne_of_gt (Nat.zero_lt_of_lt hfuel))
    have hleads := hcut.leads
    rcases hcut with hlead | ⟨t, rfl, ht, hne⟩ | ⟨rest, rfl, hrest⟩
    · have hhead : ∀ m' ∈ (m :: ms).head?, data <+: m'.lead := by
        intro m' hm'
        obtain rfl : m = m' := Option.some.inj hm'
        exact hlead
      have hend : m :: ms = [] → data = [] := fun h => absurd h (List.cons_ne_nil _ _)
      have hnone := (search_between hquiet hhead hend).2
      rw [VoiceEventsServer.eventLoop, hbuffer, hnone]
      exact ⟨sv, [], m :: ms, data, rfl, rfl, rfl,
        .between _ before data hsize hbuffer hquiet hhead hend, (List.append_nil _).symm⟩
    · rw [eventLoop_header hquiet hleads hbuffer (prefix_text_cases ht),
        processEvent_part rfl ht hne]
      dsimp only
      have hshort : t.length < fuel := by
        rw [hbuffer] at hfuel
        simp only [List.length_append] at hfuel
        have hheader : 0 < m.header.length := by simp [EventMessage.header]
        omega
      obtain ⟨fuel, rfl⟩ := Nat.exists_eq_succ_of_ne_zero (Nat.ne_of_gt (Nat.zero_lt_of_lt hshort))
      have hnone := (EventMessage.quiet_prefix hquietText ht).2
      rw [VoiceEventsServer.eventLoop]
      dsimp only
      rw [hnone]
      exact ⟨_, [], m :: ms, m.header ++ t, rfl, rfl, rfl, .within m ms t rfl rfl ht hne,
        (List.append_nil _).symm⟩
    · rw [EventMessage.wire, List.append_assoc] at hleads hbuffer
      obtain ⟨tail, htail⟩ := m.exists_text
      have hbegin : m.text ++ rest = [] ∨ ∃ z, m.text ++ rest = 'E' :: z :=
        Or.inr ⟨tail ++ rest, by rw [htail]; rfl⟩
      rw [eventLoop_header hquiet hleads hbuffer hbegin, processEvent_text hread rfl rfl]
      dsimp only
      have hshort : (m.text ++ rest).length < fuel := by
        rw [hbuffer] at hfuel
        simp only [List.length_append] at hfuel ⊢
        have hheader : 0 < m.header.length := by simp [EventMessage.header]
        omega
      have hnext : ({ sv with
          nextEventSize := none
          receivedBuffer := m.text ++ rest
          passed := sv.passed ++ [m.event] } : VoiceEventsServer).nextEventSize = none := rfl
      obtain ⟨sv', done, left, data', hloop, hprogress⟩ :=
        ih hsep.tail hnext rfl hquietText hrest hshort
      refine ⟨sv', m :: done, left, data', hloop, ?_, ?_, hprogress.waiting, ?_⟩
      · rw [hprogress.messages, List.cons_append]
      · rw [hprogress.data, wires_cons, EventMessage.wire]
        simp only [List.append_assoc]
      · rw [hprogress.passed, List.append_assoc]
        rfl

/-- Data with a header in it are gone through by the inner loop. -/
lemma bufferLoop_header (hsep : Separated (m :: ms)) (hsize : sv.nextEventSize = none)
    (hbuffer : sv.receivedBuffer = before ++ (m.header ++ y))
    (hquiet : Quiet before (wires (m :: ms))) (hcut : Cut (m :: ms) (m.header ++ y))
    (subscribedEvents : Text) :
    ∃ sv' done rest left,
      sv.bufferLoop subscribedEvents (sv.receivedBuffer.length + 1) = some (.ok sv') ∧
      Progress sv sv' (m :: ms) (m.header ++ y) done rest left := by
  obtain ⟨sv', done, rest, left, hloop, hprogress⟩ :=
    eventLoop_progress hsep hsize hbuffer hquiet hcut (Nat.lt_succ_self _)
  have hrest : Separated rest := fun m' behind hsuffix =>
    hsep m' behind (hsuffix.trans ⟨done, hprogress.messages.symm⟩)
  have hlast := (search_waiting hrest hprogress.waiting).1
  obtain ⟨i, found, hfound⟩ := m.contentType_header y
  obtain ⟨fuel, hfuel⟩ : ∃ fuel, sv.receivedBuffer.length = fuel + 1 := by
    refine Nat.exists_eq_succ_of_ne_zero ?_
    rw [hbuffer]
    simp [EventMessage.header]
  refine ⟨sv', done, rest, left, ?_, hprogress⟩
  rw [VoiceEventsServer.bufferLoop, hbuffer,
    EventMessage.search_contentType_append hquiet hcut.leads, hfound, Option.map_some]
  dsimp only
  rw [← hbuffer, if_neg (by decide), if_neg (by decide), hloop]
  dsimp only
  rw [hfuel, VoiceEventsServer.bufferLoop, hlast]

/-- **The outer loop** stops behind the events that have come. -/
lemma bufferLoop_progress (hsep : Separated ms) (hsize : sv.nextEventSize = none)
    (hbuffer : sv.receivedBuffer = before ++ data) (hquiet : Quiet before (wires ms))
    (hcut : Cut ms data) (subscribedEvents : Text) :
    ∃ sv' done rest left,
      sv.bufferLoop subscribedEvents (sv.receivedBuffer.length + 1) = some (.ok sv') ∧
      Progress sv sv' ms data done rest left := by
  have hbetween (hhead : ∀ m ∈ ms.head?, data <+: m.lead) (hend : ms = [] → data = []) :
      ∃ sv' done rest left,
        sv.bufferLoop subscribedEvents (sv.receivedBuffer.length + 1) = some (.ok sv') ∧
        Progress sv sv' ms data done rest left := by
    have hnone := (search_between hquiet hhead hend).1
    rw [← hbuffer] at hnone
    rw [VoiceEventsServer.bufferLoop, hnone]
    exact ⟨sv, [], ms, data, rfl, rfl, rfl,
      .between ms before data hsize hbuffer hquiet hhead hend, (List.append_nil _).symm⟩
  cases ms with
  | nil => exact hbetween (fun m hm => by cases hm) fun _ => hcut
  | cons m ms =>
    have hend : m :: ms = [] → data = [] := fun h => absurd h (List.cons_ne_nil _ _)
    rcases id hcut with hlead | ⟨t, rfl, -, -⟩ | ⟨rest, rfl, -⟩
    · refine hbetween (fun m' hm' => ?_) hend
      obtain rfl : m = m' := Option.some.inj hm'
      exact hlead
    · exact bufferLoop_header hsep hsize hbuffer hquiet hcut subscribedEvents
    · rw [EventMessage.wire, List.append_assoc] at hbuffer hcut ⊢
      exact bufferLoop_header hsep hsize hbuffer hquiet hcut subscribedEvents

/-- A call with the next chunk, by the state it begins in. -/
theorem receiveData_progress (hsep : Separated ms) (h : Waiting sv ms data) {chunk : Text}
    (hcut : Cut ms (data ++ chunk)) (subscribedEvents : Text) :
    ∃ sv' done rest left, sv.receiveData subscribedEvents chunk = some (.ok sv') ∧
      Progress sv sv' ms (data ++ chunk) done rest left := by
  cases h with
  | between ms before data hsize hbuffer hquiet hdata hend =>
    have hprocess : { sv with receivedBuffer := sv.receivedBuffer ++ chunk }.processEvent
        = .ok { sv with receivedBuffer := sv.receivedBuffer ++ chunk } := by
      rw [VoiceEventsServer.processEvent]
      simp only [hsize]
    have hnext : ({ sv with receivedBuffer := sv.receivedBuffer ++ chunk }
        : VoiceEventsServer).nextEventSize = none := hsize
    have hbuffer' : ({ sv with receivedBuffer := sv.receivedBuffer ++ chunk }
        : VoiceEventsServer).receivedBuffer = before ++ (data ++ chunk) := by
      rw [← List.append_assoc, ← hbuffer]
    obtain ⟨sv', done, rest, left, hloop, hprogress⟩ :=
      bufferLoop_progress hsep hnext hbuffer' hquiet hcut subscribedEvents
    refine ⟨sv', done, rest, left, ?_, hprogress.messages, hprogress.data, hprogress.waiting,
      hprogress.passed⟩
    rw [VoiceEventsServer.receiveData, hprocess]
    exact hloop
  | within m ms t hsize hbuffer hleads hne =>
    obtain ⟨hread, hquietText⟩ := hsep m ms List.suffix_rfl
    have hdata : m.header ++ t ++ chunk = m.header ++ (t ++ chunk) := List.append_assoc _ _ _
    rw [hdata] at hcut ⊢
    rcases hcut with hlead | ⟨t', ht', hleads', hne'⟩ | ⟨rest, hrest, hcut⟩
    · have hlength := hlead.length_le
      rw [EventMessage.header, List.length_append, List.length_append] at hlength
      change m.lead.length + 18 + (t ++ chunk).length ≤ m.lead.length at hlength
      omega
    · have hbuffer' : sv.receivedBuffer ++ chunk = t' := by
        rw [hbuffer]
        exact List.append_cancel_left ht'
      have hprocess : { sv with receivedBuffer := sv.receivedBuffer ++ chunk }.processEvent
          = .ok { sv with receivedBuffer := sv.receivedBuffer ++ chunk } :=
        processEvent_part hsize (hbuffer' ▸ hleads') (hbuffer' ▸ hne')
      have hnone := (EventMessage.quiet_prefix hquietText hleads').1
      rw [← hbuffer'] at hnone
      rw [ht']
      refine ⟨{ sv with receivedBuffer := sv.receivedBuffer ++ chunk }, [], m :: ms,
        m.header ++ t', ?_, rfl, rfl, .within m ms t' hsize hbuffer' hleads' hne',
        (List.append_nil _).symm⟩
      rw [VoiceEventsServer.receiveData, hprocess]
      dsimp only
      rw [VoiceEventsServer.bufferLoop, hnone]
    · have hbuffer' : sv.receivedBuffer ++ chunk = m.text ++ rest := by
        rw [hbuffer]
        rw [EventMessage.wire, List.append_assoc] at hrest
        exact List.append_cancel_left hrest
      have hprocess : { sv with receivedBuffer := sv.receivedBuffer ++ chunk }.processEvent
          = .ok { sv with
            receivedBuffer := sv.receivedBuffer ++ chunk
            nextEventSize := none
            passed := sv.passed ++ [m.event] } := processEvent_text hread hsize hbuffer'
      have hnext : ({ sv with
          receivedBuffer := sv.receivedBuffer ++ chunk
          nextEventSize := none
          passed := sv.passed ++ [m.event] } : VoiceEventsServer).nextEventSize = none := rfl
      obtain ⟨sv', done, behind, left, hloop, hprogress⟩ :=
        bufferLoop_progress hsep.tail hnext hbuffer' hquietText hcut subscribedEvents
      refine ⟨sv', m :: done, behind, left, ?_, ?_, ?_, hprogress.waiting, ?_⟩
      · rw [VoiceEventsServer.receiveData, hprocess]
        exact hloop
      · rw [hprogress.messages, List.cons_append]
      · rw [hrest, hprogress.data, wires_cons, EventMessage.wire]
        simp only [List.append_assoc]
      · rw [hprogress.passed, List.append_assoc]
        rfl

/-! ## Streams -/

/-- What the server is sent until its subscription is confirmed. -/
def replies : List Text :=
  ["Content-Type: auth/request\n\n".toList,
    "Content-Type: command/reply\nReply-Text: +OK accepted\n\n".toList,
    "Content-Type: command/reply\nReply-Text: +OK event listener enabled plain\n\n".toList]

/-- What is left of data that may end in a place, when some messages are passed. -/
lemma Cut.of_append {done rest : List EventMessage} {left : Text}
    (h : Cut (done ++ rest) (wires done ++ left)) : Cut rest left := by
  induction done with
  | nil => exact h
  | cons m done ih =>
    rw [List.cons_append, wires_cons, List.append_assoc, List.append_assoc] at h
    have hpos : 0 < (m.header.length - m.lead.length) := by simp [EventMessage.header]
    rcases h with hlead | ⟨t, ht, hleads, hne⟩ | ⟨behind, hbehind, hcut⟩
    · have hlength := hlead.length_le
      rw [List.length_append] at hlength
      omega
    · have hsame := List.append_cancel_left ht
      have hlonger : m.text <+: t := by rw [← hsame]; exact List.prefix_append _ _
      exact absurd (hleads.eq_of_length_le hlonger.length_le) hne
    · rw [EventMessage.wire, List.append_assoc] at hbehind
      rw [← List.append_cancel_left (List.append_cancel_left hbehind)] at hcut
      exact ih hcut

/-- The calls with the chunks of a stream, by induction on the chunks. -/
lemma receiveAll_progress (subscribedEvents : Text) (chunks : List Text) :
    ∀ {ms : List EventMessage} {sv : VoiceEventsServer} {data : Text}, Separated ms →
      Waiting sv ms data → (∀ k, Cut ms (data ++ (chunks.take k).flatten)) →
      ∃ sv' done rest left, sv.receiveAll subscribedEvents chunks = some sv' ∧
        Progress sv sv' ms (data ++ chunks.flatten) done rest left := by
  induction chunks with
  | nil =>
    intro ms sv data _ hwaiting _
    refine ⟨sv, [], ms, data, rfl, rfl, ?_, hwaiting, (List.append_nil _).symm⟩
    rw [List.flatten_nil, List.append_nil]
    rfl
  | cons chunk chunks ih =>
    intro ms sv data hsep hwaiting hcut
    have hone : Cut ms (data ++ chunk) := by
      have h := hcut 1
      rwa [List.take_succ_cons, List.take_zero, List.flatten_singleton] at h
    obtain ⟨sv₁, done, rest, left, hcall, hprogress⟩ :=
      receiveData_progress hsep hwaiting hone subscribedEvents
    have hrest : Separated rest := fun m behind hsuffix =>
      hsep m behind (hsuffix.trans ⟨done, hprogress.messages.symm⟩)
    have hcuts : ∀ k, Cut rest (left ++ (chunks.take k).flatten) := by
      intro k
      have h := hcut (k + 1)
      rw [List.take_succ_cons, List.flatten_cons, ← List.append_assoc, hprogress.data,
        List.append_assoc, hprogress.messages] at h
      exact h.of_append
    obtain ⟨sv₂, done', rest', left', hcalls, hprogress'⟩ := ih hrest hprogress.waiting hcuts
    refine ⟨sv₂, done ++ done', rest', left', ?_, ?_, ?_, hprogress'.waiting, ?_⟩
    · rw [VoiceEventsServer.receiveAll, hcall]
      exact hcalls
    · rw [hprogress.messages, hprogress'.messages, List.append_assoc]
    · rw [List.flatten_cons, ← List.append_assoc, hprogress.data, List.append_assoc,
        hprogress'.data, wires, wires, wires, List.flatMap_append, List.append_assoc]
    · rw [hprogress'.passed, hprogress.passed, List.append_assoc, List.map_append]

lemma receiveAll_append (subscribedEvents : Text) (chunks chunks' : List Text) :
    ∀ sv : VoiceEventsServer, sv.receiveAll subscribedEvents (chunks ++ chunks')
      = (sv.receiveAll subscribedEvents chunks).bind (·.receiveAll subscribedEvents chunks') := by
  induction chunks with
  | nil => exact fun _ => rfl
  | cons chunk chunks ih =>
    intro sv
    rw [List.cons_append, VoiceEventsServer.receiveAll, VoiceEventsServer.receiveAll]
    split
    · exact ih _
    · rfl

/-- Once the subscription is confirmed, the buffer is empty. -/
lemma receiveAll_replies (subscribedEvents : Text) : ∃ sv,
    VoiceEventsServer.new.receiveAll subscribedEvents replies = some sv ∧
      sv.receivedBuffer = [] ∧ sv.nextEventSize = none ∧ sv.passed = [] :=
  ⟨_, rfl, rfl, rfl, rfl⟩

/-- What waits is not a whole message. -/
lemma Waiting.incomplete (h : Waiting sv ms data) : ∀ m ∈ ms.head?, data.length < m.wire.length := by
  intro m hm
  have hheader : m.lead.length < m.header.length := by simp [EventMessage.header]
  have hwire : m.wire.length = m.header.length + m.text.length := List.length_append
  cases h with
  | between ms before data hsize hbuffer hquiet hdata hend =>
    have hlength := (hdata m hm).length_le
    omega
  | within m' ms t hsize hbuffer hleads hne =>
    obtain rfl : m' = m := Option.some.inj hm
    have hlt : t.length < m'.text.length :=
      Nat.lt_of_not_le fun hle => hne (hleads.eq_of_length_le hle)
    rw [List.length_append]
    omega

/-- **Every event is passed once**, in order, with its headers and its content, when all of it has
come; and every call returns. -/
theorem receiveAll_events (subscribedEvents : Text) (ms : List EventMessage) (chunks : List Text)
    (hsep : Separated ms) (hcut : ∀ k, Cut ms (chunks.take k).flatten) :
    ∃ sv done rest left,
      VoiceEventsServer.new.receiveAll subscribedEvents (replies ++ chunks) = some sv ∧
      ms = done ++ rest ∧ chunks.flatten = wires done ++ left ∧
      (∀ m ∈ rest.head?, left.length < m.wire.length) ∧
      (chunks.flatten = wires ms → done = ms) ∧ sv.passed = done.map EventMessage.event := by
  obtain ⟨sv₀, hreplies, hbuffer, hsize, hpassed⟩ := receiveAll_replies subscribedEvents
  have hwaiting : Waiting sv₀ ms [] := .between ms [] [] hsize (by rw [hbuffer]; rfl)
    (fun s hs hne => absurd (List.suffix_nil.1 hs) hne) (fun m _ => List.nil_prefix) fun _ => rfl
  obtain ⟨sv, done, rest, left, hcalls, hprogress⟩ :=
    receiveAll_progress subscribedEvents chunks hsep hwaiting hcut
  have hincomplete := hprogress.waiting.incomplete
  refine ⟨sv, done, rest, left, ?_, hprogress.messages, hprogress.data, hincomplete, ?_, ?_⟩
  · rw [receiveAll_append, hreplies]
    exact hcalls
  · intro hwhole
    have hdata := hprogress.data
    rw [List.nil_append, hwhole, hprogress.messages, wires, List.flatMap_append] at hdata
    have hleft : rest.flatMap EventMessage.wire = left := List.append_cancel_left hdata
    cases rest with
    | nil => rw [hprogress.messages, List.append_nil]
    | cons m rest =>
      have hlength := hincomplete m rfl
      rw [← hleft, List.flatMap_cons, List.length_append] at hlength
      omega
  · rw [hprogress.passed, hpassed, List.nil_append]

/-! ## Two events -/

def backgroundJob : EventMessage where
  headers := [("Event-Name".toList, "A".toList)]
  ending := .newlines 1
  digits := "14".toList
  named := by decide
  oneLine := by decide
  inner := by
    intro digits content h
    cases h
  announced := by decide

/-- An event that comes in two chunks. -/
theorem receiveAll_events_two :
    let m := backgroundJob
    let chunks := [m.wire.take 60, m.wire.drop 60]
    Separated [m] ∧ (∀ k, Cut [m] (chunks.take k).flatten) ∧
      ∃ sv done rest left,
        VoiceEventsServer.new.receiveAll [] (replies ++ chunks) = some sv ∧
        [m] = done ++ rest ∧ chunks.flatten = wires done ++ left ∧
        (∀ m ∈ rest.head?, left.length < m.wire.length) ∧
        (chunks.flatten = wires [m] → done = [m]) ∧ sv.passed = done.map EventMessage.event := by
  intro m chunks
  have hquiet : ∀ s ∈ m.text.tails, s ≠ [] →
      contentTypeHere (s ++ wires []) = none ∧ announcementHere (s ++ wires []) = none := by
    decide
  have hlines : ∀ s ∈ m.headerLines.tails, s ≠ [] → contentHere (s ++ m.ending.text) = none := by
    decide
  have hread : m.Readable :=
    { names := by decide
      values := by decide
      distinct := by decide
      reserved := fun h => absurd rfl h
      lines := fun s hs => hlines s ((List.mem_tails _ _).2 hs)
      content := fun content h => by cases h
      named := by decide }
  have hsep : Separated [m] := by
    intro m' behind hsuffix
    rcases List.suffix_cons_iff.1 hsuffix with heq | hnil
    · obtain ⟨rfl, rfl⟩ := List.cons.inj heq
      exact ⟨hread, fun s hs => hquiet s ((List.mem_tails _ _).2 hs)⟩
    · exact absurd (List.suffix_nil.1 hnil) (List.cons_ne_nil _ _)
  have hcut : ∀ k, Cut [m] (chunks.take k).flatten := by
    rintro (_ | _ | k)
    · exact Or.inl (by decide)
    · exact Or.inr (Or.inl ⟨(m.wire.drop m.header.length).take (60 - m.header.length), by decide,
        by decide, by decide⟩)
    · have hall : (chunks.take (k + 2)).flatten = m.wire ++ [] := by
        rw [List.take_of_length_le (by simp [chunks])]
        decide
      exact Or.inr (Or.inr ⟨[], hall, rfl⟩)
  exact ⟨hsep, hcut, receiveAll_events [] [m] chunks hsep hcut⟩

/-- A content type that is found, but no header, is found for ever. -/
lemma bufferLoop_stuck {i : ℕ} {type after : Text} (subscribedEvents : Text)
    (htype : search contentTypeHere sv.receivedBuffer = some (i, type, after))
    (hauth : type ≠ "auth/request".toList) (hreply : type ≠ "command/reply".toList)
    (hnone : search announcementHere sv.receivedBuffer = none) (fuel : ℕ) :
    sv.bufferLoop subscribedEvents fuel = none := by
  induction fuel with
  | zero => rfl
  | succ fuel ih =>
    rw [VoiceEventsServer.bufferLoop, htype]
    dsimp only
    rw [if_neg hauth, if_neg hreply, VoiceEventsServer.eventLoop, hnone]
    exact ih

/-- An event with a content type of its own. -/
def message : EventMessage where
  headers := [("Event-Name".toList, "A".toList), ("Content-Type".toList, "x".toList)]
  ending := .newlines 1
  digits := "30".toList
  named := by decide
  oneLine := by decide
  inner := by
    intro digits content h
    cases h
  announced := by decide

/-- The call in which such an event comes never returns. -/
theorem not_receiveAll_events :
    ¬ ∀ (subscribedEvents : Text) (ms : List EventMessage) (chunks : List Text),
      chunks.flatten = wires ms → ∃ sv,
        VoiceEventsServer.new.receiveAll subscribedEvents (replies ++ chunks) = some sv ∧
        sv.passed = ms.map EventMessage.event := by
  intro hall
  obtain ⟨sv, hrun, -⟩ := hall [] [message] [message.wire] rfl
  obtain ⟨sv₀, hreplies, hbuffer, hsize, -⟩ := receiveAll_replies []
  rw [receiveAll_append, hreplies, Option.bind_some, VoiceEventsServer.receiveAll] at hrun
  obtain ⟨buffer, size, sent, passed⟩ := sv₀
  obtain rfl : buffer = [] := hbuffer
  obtain rfl : size = none := hsize
  obtain ⟨i, after, hfound⟩ : ∃ i after, search contentTypeHere message.wire
      = some (i, "text/event".toList, after) := ⟨_, _, rfl⟩
  obtain ⟨passed', hloop⟩ : ∃ passed', VoiceEventsServer.eventLoop (message.wire.length + 1)
      ⟨message.wire, none, sent, passed⟩ = some (.ok ⟨message.text, none, sent, passed'⟩) :=
    ⟨_, rfl⟩
  obtain ⟨j, rest, hagain⟩ : ∃ j rest, search contentTypeHere message.text
      = some (j, ['x'], rest) := ⟨_, _, rfl⟩
  have hnone : search announcementHere message.text = none := by decide
  have hprocess : VoiceEventsServer.processEvent ⟨[] ++ message.wire, none, sent, passed⟩
      = .ok ⟨message.wire, none, sent, passed⟩ := rfl
  have hstuck : VoiceEventsServer.receiveData [] ⟨[], none, sent, passed⟩ message.wire = none := by
    rw [VoiceEventsServer.receiveData, hprocess]
    dsimp only
    rw [VoiceEventsServer.bufferLoop, hfound]
    dsimp only
    rw [if_neg (by decide), if_neg (by decide), hloop]
    exact bufferLoop_stuck [] hagain (by decide) (by decide) hnone _
  rw [hstuck] at hrun
  cases hrun

end FreeswitchContrib.Telegraph
