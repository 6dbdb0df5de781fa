import FreeswitchContrib.Fsair.Framing
import Mathlib.Data.List.Induction

/-!
# Streams of messages

`WireMessage` is a message as it is sent.  However the stream is cut into chunks, the messages that
are there completely have been handled, each once and in order, and what is kept is the rest.

This takes handlers that return: an exception drops whatever else has come with the message, as
nothing in the client catches it.
-/

namespace FreeswitchContrib.Fsair

open Search Replaying Replaying.Run Replaying.Decoder

/-! ## Messages as they are sent -/

/-- What the header lines say. -/
def dictionary (headers : List (Text × Text)) : EslHeader :=
  headers.foldl (fun header h => header.insert h.1 h.2) ∅

/-- The body is as long as the content length says, and there is none without a content length. -/
def Framed (headers : List (Text × Text)) (body : Text) : Prop :=
  match (dictionary headers).lookup "Content-Length".toList with
  | some value => Numeral.decimal value = some body.length
  | none => body = []

def OneField (text : Text) : Prop :=
  '\n' ∉ text ∧ ¬ ": ".toList <:+: text

instance (text : Text) : Decidable (OneField text) :=
  inferInstanceAs (Decidable ('\n' ∉ text ∧ ¬ ": ".toList <:+: text))

structure WireMessage where
  headers : List (Text × Text)
  body : Text
  names : ∀ h ∈ headers, OneField h.1
  values : ∀ h ∈ headers, OneField h.2
  typed : "Content-Type".toList ∈ headers.map Prod.fst
  framed : Framed headers body

def line (h : Text × Text) : Text :=
  h.1 ++ ':' :: ' ' :: h.2

namespace WireMessage

def lines (m : WireMessage) : List Text :=
  m.headers.map line

def wire (m : WireMessage) : Text :=
  m.lines.flatMap (· ++ ['\n']) ++ '\n' :: m.body

/-- The message as it is to be handled. -/
def parsed (m : WireMessage) : EslHeader × Text :=
  (dictionary m.headers, m.body)

end WireMessage

variable {ξ κ : Type} {R : Runtime ξ} {react : Callbacks ξ κ} {esl esl' : Esl ξ κ}
  {x rest : Text} {h : Text × Text} {headers : List (Text × Text)} {m : WireMessage}

/-! ## Header lines -/

lemma splitColon_line (hname : OneField h.1) (hvalue : OneField h.2) :
    splitColon (line h) = [h.1, h.2] := by
  have hfirst : ¬ [':', ' '] <:+: h.1 := hname.2
  have hsecond : ¬ [':', ' '] <:+: h.2 := hvalue.2
  rw [splitColon, line, splitPair_append (by decide) hfirst, splitPair_eq_singleton hsecond]

lemma addLine_line (hname : OneField h.1) (hvalue : OneField h.2) (header : EslHeader) :
    header.addLine (line h) = header.insert h.1 h.2 := by
  rw [EslHeader.addLine, splitColon_line hname hvalue]

lemma foldl_addLine (hnames : ∀ h ∈ headers, OneField h.1)
    (hvalues : ∀ h ∈ headers, OneField h.2) (header : EslHeader) :
    (headers.map line).foldl EslHeader.addLine header
      = headers.foldl (fun header h => header.insert h.1 h.2) header := by
  induction headers generalizing header with
  | nil => rfl
  | cons h headers ih =>
    rw [List.map_cons, List.foldl_cons, List.foldl_cons,
      addLine_line (hnames h List.mem_cons_self) (hvalues h List.mem_cons_self)]
    exact ih (fun h' hh => hnames h' (List.mem_cons_of_mem h hh))
      (fun h' hh => hvalues h' (List.mem_cons_of_mem h hh)) _

lemma lookup_dictionary_ne_none {name : Text} (hname : name ∈ headers.map Prod.fst) :
    (dictionary headers).lookup name ≠ none := by
  rw [dictionary]
  induction headers using List.reverseRecOn with
  | nil => exact absurd hname List.not_mem_nil
  | append_singleton headers last ih =>
    rw [List.foldl_append, List.foldl_cons, List.foldl_nil, Ne, AList.lookup_insert_eq_none]
    rintro ⟨hne, hnone⟩
    rw [List.map_append, List.mem_append] at hname
    rcases hname with hmem | hlast
    · exact ih hmem hnone
    · exact hne (List.mem_singleton.1 hlast)

lemma WireMessage.exists_contentType (m : WireMessage) :
    ∃ type, (dictionary m.headers).contentType = some type :=
  Option.ne_none_iff_exists'.1 (lookup_dictionary_ne_none m.typed)

/-! ## Single messages -/

lemma flatMap_newline {lines : List Text} (hne : lines ≠ []) :
    lines.flatMap (· ++ ['\n']) = ['\n'].intercalate lines ++ ['\n'] := by
  induction lines with
  | nil => exact absurd rfl hne
  | cons line lines ih =>
    rcases lines with _ | ⟨line', lines⟩
    · simp [List.intercalate]
    · rw [List.flatMap_cons, ih (List.cons_ne_nil _ _)]
      simp [List.intercalate]

namespace WireMessage

def headerBlock (m : WireMessage) : Text :=
  ['\n'].intercalate m.lines

lemma lines_ne_nil (m : WireMessage) : m.lines ≠ [] := by
  intro hnil
  have htyped := m.typed
  rw [List.map_eq_nil_iff.1 hnil] at htyped
  exact absurd htyped List.not_mem_nil

lemma line_clean (m : WireMessage) : ∀ l ∈ m.lines, l ≠ [] ∧ '\n' ∉ l := by
  intro l hl
  obtain ⟨h, hh, rfl⟩ := List.mem_map.1 hl
  refine ⟨by simp [line], ?_⟩
  have hname := (m.names h hh).1
  have hvalue := (m.values h hh).1
  simp [line, hname, hvalue]

lemma wire_eq (m : WireMessage) (rest : Text) :
    m.wire ++ rest = m.headerBlock ++ ("\n\n".toList ++ (m.body ++ rest)) := by
  rw [wire, flatMap_newline m.lines_ne_nil, headerBlock]
  simp

lemma wire_length (m : WireMessage) : m.wire.length = m.headerBlock.length + 2 + m.body.length := by
  have hwire := congrArg List.length (m.wire_eq [])
  rw [List.append_nil, List.append_nil, List.length_append, List.length_append] at hwire
  rw [hwire, Nat.add_assoc]
  rfl

lemma wire_ne_nil (m : WireMessage) : m.wire ≠ [] := by
  intro hnil
  have hlength := m.wire_length
  rw [hnil, List.length_nil] at hlength
  omega

/-- The header ends where it is meant to end. -/
lemma indexOf_wire (m : WireMessage) (rest : Text) :
    indexOf "\n\n".toList (m.wire ++ rest) = some m.headerBlock.length := by
  have hblock : ¬ "\n\n".toList <:+: m.headerBlock ++ "\n\n".toList.dropLast := by
    have hlines := not_infix_lines (a := '\n') m.line_clean
    rwa [flatMap_newline m.lines_ne_nil] at hlines
  rw [wire_eq]
  exact indexOf_append hblock _

lemma new_headerBlock (m : WireMessage) : EslHeader.new m.headerBlock = dictionary m.headers := by
  have hsplit : m.headerBlock.splitOn '\n' = m.lines :=
    List.splitOn_intercalate '\n' (fun l hl => (m.line_clean l hl).2) m.lines_ne_nil
  rw [EslHeader.new, hsplit]
  exact foldl_addLine m.names m.values ∅

lemma contentLength_dictionary (hshort : m.body.length ≤ 2147483647) :
    (dictionary m.headers).contentLength R = m.body.length := by
  have hframed := m.framed
  rw [Framed] at hframed
  rw [EslHeader.contentLength]
  cases hvalue : (dictionary m.headers).lookup "Content-Length".toList with
  | none =>
    simp only [hvalue] at hframed
    rw [hframed]
    rfl
  | some value =>
    simp only [hvalue] at hframed
    exact R.int_decimal hframed hshort

/-- **A message is cut off as it is meant**, whatever follows it. -/
theorem frame_wire (hshort : m.body.length ≤ 2147483647) (rest : Text) :
    frame R (m.wire ++ rest) = .done () rest (some m.parsed) := by
  have htake : (m.wire ++ rest).take m.headerBlock.length = m.headerBlock := by
    rw [wire_eq, List.take_left]
  have hdrop : (m.wire ++ rest).drop (m.headerBlock.length + 2) = m.body ++ rest := by
    rw [wire_eq, ← List.append_assoc]
    exact List.drop_left' (by rw [List.length_append]; rfl)
  have hbehind : (m.wire ++ rest).drop (m.headerBlock.length + 2 + m.body.length) = rest := by
    rw [← List.drop_drop, hdrop, List.drop_left]
  have hlength : (EslHeader.new ((m.wire ++ rest).take m.headerBlock.length)).contentLength R
      = m.body.length := by
    rw [htake, new_headerBlock, contentLength_dictionary hshort]
  rw [frame_of_some (m.indexOf_wire rest) hlength, Int.toNat_natCast, if_neg (by omega), hdrop,
    List.take_left, if_neg (by omega), hbehind, htake, new_headerBlock]
  rfl

/-- Nothing is cut off before the message is there completely. -/
theorem frame_unfinished (hshort : m.body.length ≤ 2147483647) (hrest : rest <+: m.wire)
    (hne : rest ≠ m.wire) : frame R rest = .replay () rest := by
  obtain ⟨missing, hmissing⟩ := hrest
  have hlt : rest.length < m.wire.length := by
    have hpos : 0 < missing.length := by
      refine List.length_pos_of_ne_nil ?_
      rintro rfl
      exact hne (by rwa [List.append_nil] at hmissing)
    rw [← hmissing, List.length_append]
    omega
  cases hindex : indexOf "\n\n".toList rest with
  | none => exact frame_of_none hindex
  | some headEnd =>
    have hroom := indexOf_newlines hindex
    have hhead : headEnd = m.headerBlock.length := by
      have hfound := indexOf_append_of_some hindex missing
      have hwire := m.indexOf_wire []
      rw [List.append_nil] at hwire
      rw [hmissing, hwire] at hfound
      exact (Option.some.inj hfound).symm
    have htake : rest.take headEnd = m.headerBlock := by
      have hwhole : m.wire.take headEnd = m.headerBlock := by
        have hwire := m.wire_eq []
        rw [List.append_nil] at hwire
        rw [hwire, hhead, List.take_left]
      rw [← hwhole, ← hmissing, List.take_append_of_le_length (by omega)]
    have hlength : (EslHeader.new (rest.take headEnd)).contentLength R = m.body.length := by
      rw [htake, new_headerBlock, contentLength_dictionary hshort]
    have hwire := m.wire_length
    rw [frame_of_some hindex hlength, Int.toNat_natCast, if_neg (by omega), if_pos]
    rw [List.length_take, List.length_drop]
    omega

end WireMessage

/-- A message that comes alone is handled. -/
lemma Esl.socketData_wire (hshort : m.body.length ≤ 2147483647) (hnone : esl.lastData = none) :
    esl.socketData R react m.wire = some (leftBy (esl.dispatch R react m.parsed)) := by
  have hframe := WireMessage.frame_wire (R := R) hshort []
  rw [List.append_nil] at hframe
  have hstart : { esl with lastData := none } = esl := by rw [← hnone]
  obtain ⟨fuel, hfuel⟩ : ∃ fuel, m.wire.length = fuel + 1 :=
    Nat.exists_eq_succ_of_ne_zero (by simp [m.wire_ne_nil])
  rw [socketData, dataHandler, hnone, Option.getD_none, List.nil_append, hstart,
    dataLoop_of_done m.wire_ne_nil hframe, hfuel]
  cases esl.dispatch R react m.parsed with
  | ok esl₁ =>
    dsimp only
    rw [dataLoop_nil]
    rfl
  | error esl₁ => rfl

/-! ## Streams -/

/-- **However the stream is cut**, what has come so far has been handled up to the message that is
not there completely. -/
theorem receiveAll_prefix {ms : List WireMessage} {chunks : List Text}
    (hshort : ∀ m ∈ ms, m.body.length ≤ 2147483647) (hnone : esl.lastData = none)
    (hreturn : esl.dispatchAll R react (ms.map WireMessage.parsed) = .ok esl')
    (hchunks : chunks.flatten <+: ms.flatMap WireMessage.wire) :
    ∃ k rest esl₁, chunks.flatten = (ms.take k).flatMap WireMessage.wire ++ rest ∧
      (rest = [] ∨ ∃ m, ms[k]? = some m ∧ rest <+: m.wire ∧ rest ≠ m.wire) ∧
      esl.dispatchAll R react ((ms.take k).map WireMessage.parsed) = .ok esl₁ ∧
      esl.receiveAll R react chunks = some (esl₁.keep rest) := by
  have hread : ∀ m ∈ ms, ∀ rest, (frames R).callDecode () (m.wire ++ rest)
      = ((frames R).callDecode () rest).after [m.parsed] := by
    intro m hm rest
    have hne : m.wire ++ rest ≠ [] := fun hnil => m.wire_ne_nil (List.append_eq_nil_iff.1 hnil).1
    exact callDecode_of_done (D := frames R) hne (WireMessage.frame_wire (hshort m hm) rest)
  have hstop : ∀ m ∈ ms, ∀ rest, rest <+: m.wire → rest ≠ m.wire →
      (frames R).callDecode () rest = stop ((), rest) := by
    intro m hm rest hrest hne
    by_cases hnil : rest = []
    · rw [hnil, callDecode_nil]
    · exact callDecode_of_replay (D := frames R) hnil
        (WireMessage.frame_unfinished (hshort m hm) hrest hne)
  obtain ⟨k, rest, hflatten, hrest, hdecode⟩ := callDecode_of_prefix hread hstop hchunks
  have hsplit : ms.map WireMessage.parsed
      = (ms.take k).map WireMessage.parsed ++ (ms.drop k).map WireMessage.parsed := by
    rw [← List.map_append, List.take_append_drop]
  rw [hsplit] at hreturn
  obtain ⟨esl₁, hone, -⟩ := Esl.dispatchAll_append_ok hreturn
  refine ⟨k, rest, esl₁, hflatten, hrest, hone, ?_⟩
  have hall : (frames R).receiveAll () [] chunks
      = ⟨(ms.take k).map WireMessage.parsed, .ok ((), rest)⟩ := by
    rw [receiveAll_eq_callDecode chunks () [] callDecode_nil, List.nil_append, hdecode, after,
      stop, List.append_nil]
  have hkept := Esl.receiveAll_keep chunks hnone hall hone
  have hstart : esl.keep [] = esl := by rw [Esl.keep, if_pos rfl, ← hnone]
  rwa [hstart] at hkept

/-- Of the whole stream nothing is left. -/
lemma whole_stream {ms : List WireMessage} {k : ℕ}
    (hstream : ms.flatMap WireMessage.wire = (ms.take k).flatMap WireMessage.wire ++ rest)
    (hrest : rest = [] ∨ ∃ m, ms[k]? = some m ∧ rest <+: m.wire ∧ rest ≠ m.wire) :
    rest = [] ∧ ms.take k = ms := by
  have hbehind : (ms.drop k).flatMap WireMessage.wire = rest := by
    conv_lhs at hstream => rw [← List.take_append_drop k ms, List.flatMap_append]
    exact List.append_cancel_left hstream
  rcases hrest with rfl | ⟨m, hm, hleads, hne⟩
  · refine ⟨rfl, ?_⟩
    rcases hdrop : ms.drop k with _ | ⟨m, behind⟩
    · exact List.take_of_length_le (List.drop_eq_nil_iff.1 hdrop)
    · rw [hdrop, List.flatMap_cons] at hbehind
      exact absurd (List.append_eq_nil_iff.1 hbehind).1 m.wire_ne_nil
  · obtain ⟨hk, hget⟩ := List.getElem?_eq_some_iff.1 hm
    rw [List.drop_eq_getElem_cons hk, hget, List.flatMap_cons] at hbehind
    have hlonger : m.wire <+: rest := ⟨_, hbehind⟩
    exact absurd (hleads.eq_of_length_le hlonger.length_le) hne

/-- **The messages that are there are processed**, each once, in order and as they were meant; what
is kept is the rest.  As long as the handlers return, this holds after every chunk. -/
theorem receiveAll_processed {ms : List WireMessage} {chunks : List Text}
    (hshort : ∀ m ∈ ms, m.body.length ≤ 2147483647) (hnone : esl.lastData = none)
    (hreturn : esl.dispatchAll R react (ms.map WireMessage.parsed) = .ok esl')
    (hchunks : chunks.flatten <+: ms.flatMap WireMessage.wire) :
    ∃ k rest esl₁, chunks.flatten = (ms.take k).flatMap WireMessage.wire ++ rest ∧
      (rest = [] ∨ ∃ m, ms[k]? = some m ∧ rest <+: m.wire ∧ rest ≠ m.wire) ∧
      (chunks.flatten = ms.flatMap WireMessage.wire → rest = [] ∧ ms.take k = ms) ∧
      esl.receiveAll R react chunks = some esl₁ ∧
      esl₁.processed = esl.processed ++ (ms.take k).map WireMessage.parsed ∧
      esl₁.lastData = if rest = [] then none else some rest := by
  obtain ⟨k, rest, esl₁, hflatten, hrest, hone, hall⟩ :=
    receiveAll_prefix hshort hnone hreturn hchunks
  refine ⟨k, rest, esl₁.keep rest, hflatten, hrest, ?_, hall, (Esl.dispatchAll_frame hone).2, rfl⟩
  intro hwhole
  exact whole_stream (hwhole.symm.trans hflatten) hrest

/-! ## An event that the runtime refuses -/

/-- Numerals, no escapes, and an XML parser that refuses a lone bracket. -/
def plainRuntime : Runtime Text where
  int digits := match Numeral.decimal digits with
    | some n => if n ≤ 2147483647 then n else 0
    | none => 0
  unescape value := value.getD "undefined".toList
  xml str := if str = ['<'] then none else some str
  elements _ _ := []
  int_decimal hdecimal hle := by simp only [hdecimal, if_pos hle]

def noCallbacks : Callbacks Text Unit :=
  fun _ _ _ => ⟨[], false⟩

def malformedEvent : WireMessage where
  headers := [("Content-Length".toList, ['1']), ("Content-Type".toList, "text/event-xml".toList)]
  body := ['<']
  names := by decide
  values := by decide
  typed := by decide
  framed := by
    change Numeral.decimal ['1'] = some 1
    decide +kernel

def notice : WireMessage where
  headers := [("Content-Type".toList, "text/disconnect-notice".toList)]
  body := []
  names := by decide
  values := by decide
  typed := by decide
  framed := by
    change ([] : Text) = []
    rfl

/-- A message that comes in two chunks. -/
theorem receiveAll_processed_notice :
    notice.body.length ≤ 2147483647 ∧ (Esl.new [] : Esl Text Unit).lastData = none ∧
      [notice.wire.take 9, notice.wire.drop 9].flatten <+: [notice].flatMap WireMessage.wire ∧
      ∃ k rest esl₁, [notice.wire.take 9, notice.wire.drop 9].flatten
          = ([notice].take k).flatMap WireMessage.wire ++ rest ∧
        (rest = [] ∨ ∃ m, [notice][k]? = some m ∧ rest <+: m.wire ∧ rest ≠ m.wire) ∧
        ([notice.wire.take 9, notice.wire.drop 9].flatten = [notice].flatMap WireMessage.wire →
          rest = [] ∧ [notice].take k = [notice]) ∧
        (Esl.new [] : Esl Text Unit).receiveAll plainRuntime noCallbacks
          [notice.wire.take 9, notice.wire.drop 9] = some esl₁ ∧
        esl₁.processed = [] ++ ([notice].take k).map WireMessage.parsed ∧
        esl₁.lastData = if rest = [] then none else some rest := by
  have hshort : ∀ m ∈ [notice], m.body.length ≤ 2147483647 := by
    intro m hm
    rw [List.mem_singleton.1 hm]
    decide +kernel
  have hreturn : (Esl.new [] : Esl Text Unit).dispatchAll plainRuntime noCallbacks
      ([notice].map WireMessage.parsed)
        = .ok { (Esl.new [] : Esl Text Unit) with processed := [notice.parsed] } := rfl
  exact ⟨by decide, rfl, by decide, receiveAll_processed hshort rfl hreturn (by decide)⟩

/-- The message behind an event that the runtime refuses is not processed when it comes in the same
chunk. -/
theorem not_receiveAll_processed :
    ¬ ∀ (R : Runtime Text) (react : Callbacks Text Unit) (esl : Esl Text Unit)
        (ms : List WireMessage) (chunks : List Text),
      (∀ m ∈ ms, m.body.length ≤ 2147483647) → esl.lastData = none →
      chunks.flatten = ms.flatMap WireMessage.wire →
      ∃ esl₁, esl.receiveAll R react chunks = some esl₁ ∧
        esl₁.processed = esl.processed ++ ms.map WireMessage.parsed ∧ esl₁.lastData = none := by
  intro hall
  have hshort : ∀ m ∈ [malformedEvent, notice], m.body.length ≤ 2147483647 := by
    intro m hm
    simp only [List.mem_cons, List.not_mem_nil, or_false] at hm
    rcases hm with rfl | rfl <;> decide
  obtain ⟨esl₁, hrun, hprocessed, -⟩ := hall plainRuntime noCallbacks (Esl.new [])
    [malformedEvent, notice] [malformedEvent.wire ++ notice.wire] hshort rfl (by simp)
  have hone : ((Esl.new [] : Esl Text Unit).receiveAll plainRuntime noCallbacks
      [malformedEvent.wire ++ notice.wire]).map (fun esl => esl.processed.length) = some 1 := by
    decide +kernel
  rw [hrun, Option.map_some, hprocessed] at hone
  exact absurd hone (by decide)

end FreeswitchContrib.Fsair
