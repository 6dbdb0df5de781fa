import FreeswitchContrib.Telegraph.VoiceEventsServer
import Mathlib.Data.List.Induction
import Mathlib.Data.List.TakeWhile

/-!
# Events as they are sent

`EventMessage` is an event with the header that announces it.  `readEvent_text` says that the text of
an event is read as it was meant, for events that are `Readable`: `process_event` looks for the
content by a pattern that may match elsewhere, and takes of a line only what is between the first
two colons.
-/

namespace FreeswitchContrib.Telegraph

open Search Numeral

/-! ## Texts -/

/-- What follows the header lines of an event: empty lines, or a content with its length. -/
inductive Ending where
  | newlines (count : ℕ)
  | content (digits body : Text)

def Ending.text : Ending → Text
  | newlines count => List.replicate count '\n'
  | content digits body => '\n' :: ("Content-Length: ".toList ++ digits ++ "\n\n".toList ++ body)

def Ending.content? : Ending → Option Text
  | newlines _ => none
  | content _ body => some body

def line (h : Text × Text) : Text :=
  h.1 ++ ':' :: ' ' :: h.2

def eventText (headers : List (Text × Text)) (ending : Ending) : Text :=
  ['\n'].intercalate (headers.map line) ++ ending.text

/-- An event whose text starts with an event name, and the digits that announce its length. -/
structure EventMessage where
  headers : List (Text × Text)
  ending : Ending
  digits : Text
  named : headers.head?.map Prod.fst = some "Event-Name".toList
  oneLine : ∀ h ∈ headers, h.1 ≠ [] ∧ '\n' ∉ h.1 ∧ '\n' ∉ h.2
  inner : ∀ digits content, ending = .content digits content → decimal digits = some content.length
  announced : decimal digits = some (eventText headers ending).length

namespace EventMessage

def headerLines (m : EventMessage) : Text :=
  ['\n'].intercalate (m.headers.map line)

def text (m : EventMessage) : Text :=
  eventText m.headers m.ending

def addHeader (headers : Headers) (h : Text × Text) : Headers :=
  Function.update headers (symbol h.1) (some (uriDecode h.2))

/-- The headers of the event, with its content. -/
def params (m : EventMessage) : Headers :=
  let headers := m.headers.foldl addHeader fun _ => none
  match m.ending.content? with
  | some content => Function.update headers "content".toList (some content)
  | none => headers

/-- What the router is to be called with. -/
def event (m : EventMessage) : Text × Headers :=
  ((eventName m.params).getD [], m.params)

/-- **What `process_event` can read.**  Names and values are what is before and behind the first
colon, and differ as symbols from each other and from the content; the content length of the event
is the only place that looks like one; and a custom event has a subclass. -/
structure Readable (m : EventMessage) : Prop where
  names : ∀ h ∈ m.headers, ¬ [':', ' '] <:+: h.1
  values : ∀ h ∈ m.headers, h.2 ≠ [] ∧ ¬ [':', ' '] <:+: h.2
  distinct : (m.headers.map fun h => symbol h.1).Nodup
  reserved : m.ending.content? ≠ none → "content".toList ∉ m.headers.map fun h => symbol h.1
  lines : ∀ s, s <:+ m.headerLines → s ≠ [] → contentHere (s ++ m.ending.text) = none
  content : ∀ content, m.ending.content? = some content →
    content ≠ [] ∧ search contentHere content = none
  named : eventName m.params ≠ none

end EventMessage

variable {m : EventMessage} {text rest x y digits content : Text} {c d : Char}
  {headers : Headers} {h : Text × Text} {n : ℕ}

/-! ## Places of a pattern -/

lemma behind_append (literal rest : Text) : behind literal (literal ++ rest) = some rest := by
  rw [behind, if_pos (List.prefix_append _ _), List.drop_left]

lemma behind_eq_some {literal : Text} (h : behind literal text = some rest) :
    text = literal ++ rest := by
  rw [behind] at h
  split_ifs at h with hleads
  obtain ⟨z, rfl⟩ := hleads
  rw [List.drop_left] at h
  rw [Option.some.inj h]

/-- A pattern that begins with a letter is not found at another one. -/
lemma behind_of_ne {literal : Text} (hcd : c ≠ d) : behind (c :: literal) (d :: text) = none := by
  rw [behind, if_neg]
  intro hleads
  exact hcd (List.cons_prefix_cons.1 hleads).1

lemma spaced_eq_some {letter : Char → Bool} {found : Text × Text}
    (h : spaced letter text = some found) :
    ∃ c, text = c :: (found.1 ++ found.2) ∧ space c = true ∧ found.1 ≠ [] ∧
      ∀ l ∈ found.1, letter l = true := by
  cases text with
  | nil => cases h
  | cons c text =>
    rw [spaced] at h
    split_ifs at h with hspace
    obtain rfl := Option.some.inj h
    exact ⟨c, by rw [List.takeWhile_append_dropWhile], hspace.1, hspace.2,
      fun l hl => List.mem_takeWhile_imp hl⟩

/-- The letters end where another one follows, or nothing. -/
lemma spaced_append {letter : Char → Bool} (hc : space c = true) (hx : x ≠ [])
    (hletters : ∀ l ∈ x, letter l = true) (hrest : ∀ l ∈ rest.head?, letter l = false) :
    spaced letter (c :: (x ++ rest)) = some (x, rest) := by
  have htake : (x ++ rest).takeWhile letter = x := by
    rw [List.takeWhile_append_of_pos hletters]
    cases rest with
    | nil => rw [List.takeWhile_nil, List.append_nil]
    | cons l rest => rw [List.takeWhile_cons_of_neg (by simp [hrest l rfl]), List.append_nil]
  have hdrop : (x ++ rest).dropWhile letter = rest := by
    rw [List.dropWhile_append_of_pos hletters]
    cases rest with
    | nil => rfl
    | cons l rest => rw [List.dropWhile_cons_of_neg (by simp [hrest l rfl])]
  rw [spaced, htake, hdrop, if_pos ⟨hc, hx⟩]

lemma lengthHere_of_ne (hc : 'C' ≠ c) : lengthHere (c :: text) = none := by
  have hnone : behind "Content-Length:".toList (c :: text) = none :=
    behind_of_ne hc
  rw [lengthHere, hnone, Option.bind_none]

lemma contentHere_of_length (h : lengthHere text = none) : contentHere text = none := by
  rw [contentHere, h]
  rfl

/-- A length is found where it stands. -/
lemma lengthHere_append (hdigits : decimal digits = some n)
    (hrest : ∀ l ∈ rest.head?, l.isDigit = false) :
    lengthHere ("Content-Length: ".toList ++ digits ++ rest) = some (digits, rest) := by
  have hsplit : "Content-Length: ".toList ++ digits ++ rest
      = "Content-Length:".toList ++ ' ' :: (digits ++ rest) := by
    rw [List.append_assoc]
    rfl
  rw [lengthHere, hsplit, behind_append, Option.bind_some,
    spaced_append (by decide) (ne_nil_of_decimal hdigits) (isDigit_of_decimal hdigits) hrest]

lemma contentHere_append (hdigits : decimal digits = some n) (rest : Text) :
    contentHere ("Content-Length: ".toList ++ digits ++ "\n\n".toList ++ rest)
      = some (digits, rest) := by
  have hlength : lengthHere ("Content-Length: ".toList ++ digits ++ ("\n\n".toList ++ rest))
      = some (digits, "\n\n".toList ++ rest) := lengthHere_append hdigits
    fun l hl => by obtain rfl : '\n' = l := Option.some.inj hl; decide
  rw [List.append_assoc, contentHere, hlength]
  simp only [Option.bind_eq_bind, Option.bind_some, behind_append, Option.pure_def]

/-! ## Lines -/

lemma addLine_line (hname : ¬ [':', ' '] <:+: h.1) (hvalue : h.2 ≠ [] ∧ ¬ [':', ' '] <:+: h.2)
    (headers : Headers) : addLine headers (line h) = EventMessage.addHeader headers h := by
  have hparts : splitColon (line h) = [h.1, h.2] := by
    rw [splitColon, line, splitPair_append (by decide) hname, splitPair_eq_singleton hvalue.2]
    exact List.rdropWhile_concat_neg _ [h.1] h.2 (by simpa using hvalue.1)
  rw [addLine, hparts]
  rfl

def readLines (text : Text) : Headers :=
  (text.splitOn '\n').foldl addLine fun _ => none

lemma readLines_newline (text : Text) : readLines (text ++ ['\n']) = readLines text := by
  have hsplit : (text ++ ['\n']).splitOn '\n' = text.splitOn '\n' ++ [[]] := by
    rw [List.splitOn_eq_splitOnP, List.splitOnP_append_cons text [] (by simp)]
    rfl
  rw [readLines, hsplit, List.foldl_append]
  rfl

lemma readLines_newlines (text : Text) (count : ℕ) :
    readLines (text ++ List.replicate count '\n') = readLines text := by
  induction count with
  | zero => rw [List.replicate_zero, List.append_nil]
  | succ count ih => rw [List.replicate_succ', ← List.append_assoc, readLines_newline, ih]

namespace EventMessage

lemma headers_ne_nil (m : EventMessage) : m.headers ≠ [] := by
  intro hnil
  have hnamed := m.named
  rw [hnil] at hnamed
  cases hnamed

lemma readLines_headerLines (hm : m.Readable) :
    readLines m.headerLines = m.headers.foldl addHeader fun _ => none := by
  have hsplit : m.headerLines.splitOn '\n' = m.headers.map line := by
    refine List.splitOn_intercalate '\n' ?_ (by simpa using m.headers_ne_nil)
    intro l hl
    obtain ⟨h, hh, rfl⟩ := List.mem_map.1 hl
    obtain ⟨-, hname, hvalue⟩ := m.oneLine h hh
    simp [line, hname, hvalue]
  have hall : ∀ (hs : List (Text × Text)) (headers : Headers), (∀ h ∈ hs, h ∈ m.headers) →
      (hs.map line).foldl addLine headers = hs.foldl addHeader headers := by
    intro hs
    induction hs with
    | nil => exact fun _ _ => rfl
    | cons h hs ih =>
      intro headers hsub
      have hmem := hsub h List.mem_cons_self
      rw [List.map_cons, List.foldl_cons, List.foldl_cons,
        addLine_line (hm.names h hmem) (hm.values h hmem)]
      exact ih _ fun h' hh' => hsub h' (List.mem_cons_of_mem h hh')
  rw [readLines, hsplit, hall m.headers _ fun h hh => hh]

lemma splitContent_newlines (hm : m.Readable) {count : ℕ} (hending : m.ending = .newlines count) :
    splitContent m.text = (m.text, none) := by
  have hnone : search contentHere (List.replicate count '\n') = none := by
    rw [search_eq_none_iff]
    intro s hs
    rcases s with _ | ⟨c, s⟩
    · rfl
    · obtain rfl : c = '\n' := List.eq_of_mem_replicate (hs.subset List.mem_cons_self)
      exact contentHere_of_length (lengthHere_of_ne (by decide))
  have hlines := hm.lines
  rw [hending] at hlines
  have hsearch : search contentHere m.text = none := by
    have htext : m.text = m.headerLines ++ (Ending.newlines count).text := by rw [← hending]; rfl
    rw [htext, search_append hlines, Ending.text, hnone]
    rfl
  rw [splitContent, hsearch]

lemma splitContent_content (hm : m.Readable) {digits content : Text}
    (hending : m.ending = .content digits content) :
    splitContent m.text = (m.headerLines ++ ['\n'], some content) := by
  obtain ⟨hne, hclean⟩ := hm.content content (by rw [hending]; rfl)
  have hhere := contentHere_append (m.inner digits content hending) content
  have htail : search contentHere m.ending.text = some (1, (digits, content)) := by
    have hnewline : 'C' ≠ '\n' := by decide
    rw [hending, Ending.text, search_cons_of_none
      (contentHere_of_length (lengthHere_of_ne hnewline)), search_of_here hhere]
    rfl
  have hsearch : search contentHere m.text
      = some (m.headerLines.length + 1, (digits, content)) := by
    have htext : m.text = m.headerLines ++ m.ending.text := rfl
    rw [htext, search_append hm.lines, htail]
    rfl
  have htake : m.text.take (m.headerLines.length + 1) = m.headerLines ++ ['\n'] := by
    have hlines : m.text = m.headerLines ++ m.ending.text := rfl
    rw [hlines, List.take_length_add_append, hending]
    rfl
  rw [splitContent, hsearch]
  dsimp only
  rw [hclean, if_neg hne, htake]

/-- The headers and the content are read as they were meant. -/
lemma headersOf_text (hm : m.Readable) : headersOf m.text = m.params := by
  rw [headersOf, params]
  cases hending : m.ending with
  | newlines count =>
    have htext : m.text = m.headerLines ++ List.replicate count '\n' := by
      rw [text, eventText, hending]
      rfl
    rw [splitContent_newlines hm hending]
    dsimp only [Ending.content?]
    rw [← readLines, htext, readLines_newlines, readLines_headerLines hm]
  | content digits content =>
    rw [splitContent_content hm hending]
    dsimp only [Ending.content?]
    rw [← readLines, readLines_newline, readLines_headerLines hm]

lemma exists_text (m : EventMessage) : ∃ rest, m.text = 'E' :: rest := by
  obtain ⟨h, hs, hheaders⟩ := List.exists_cons_of_ne_nil m.headers_ne_nil
  have hnamed := m.named
  rw [hheaders] at hnamed
  have hname : h.1 = "Event-Name".toList := Option.some.inj hnamed
  rw [text, eventText, hheaders, List.map_cons]
  rcases hs.map line with _ | ⟨l, ls⟩
  · simp [List.intercalate, line, hname]
  · simp [List.intercalate, line, hname]

lemma text_ne_nil (m : EventMessage) : m.text ≠ [] := by
  obtain ⟨rest, hrest⟩ := m.exists_text
  rw [hrest]
  exact List.cons_ne_nil _ _

/-- **An event is read as it was sent.** -/
theorem readEvent_text (hm : m.Readable) : readEvent m.text = some m.event := by
  obtain ⟨name, hname⟩ := Option.ne_none_iff_exists'.1 hm.named
  rw [readEvent, if_neg m.text_ne_nil, headersOf_text hm, event, hname]
  rfl

lemma foldl_addHeader_of_not_mem {name : Text} (headers : List (Text × Text)) (start : Headers)
    (hname : name ∉ headers.map fun h => symbol h.1) :
    headers.foldl addHeader start name = start name := by
  induction headers generalizing start with
  | nil => rfl
  | cons h headers ih =>
    rw [List.map_cons, List.mem_cons, not_or] at hname
    rw [List.foldl_cons, ih _ hname.2, addHeader, Function.update_of_ne hname.1]

/-- The parameters have every header of the event. -/
theorem params_header (hm : m.Readable) (hh : h ∈ m.headers) :
    m.params (symbol h.1) = some (uriDecode h.2) := by
  have hfold : m.headers.foldl addHeader (fun _ => none) (symbol h.1) = some (uriDecode h.2) := by
    obtain ⟨before, after, hsplit⟩ := List.append_of_mem hh
    have hdistinct := hm.distinct
    rw [hsplit, List.map_append, List.map_cons, List.nodup_append, List.nodup_cons] at hdistinct
    rw [hsplit, List.foldl_append, List.foldl_cons,
      foldl_addHeader_of_not_mem after _ hdistinct.2.1.1, addHeader, Function.update_self]
  rw [params]
  cases hcontent : m.ending.content? with
  | none => exact hfold
  | some content =>
    have hne : symbol h.1 ≠ "content".toList := by
      intro heq
      refine hm.reserved (by rw [hcontent]; simp) ?_
      rw [← heq]
      exact List.mem_map_of_mem hh
    dsimp only
    rw [Function.update_of_ne hne, hfold]

end EventMessage

end FreeswitchContrib.Telegraph
