import FreeswitchContrib.Library.CString
import Mathlib.Data.Nat.Find

/-!
# Routing keys

`makeRoutingKey` copies the values of the configured headers into the ten rows of a local array,
replaces the dots in them, and prints the rows by a format.  `strncpy` writes no NUL behind a value
that fills its row: the string of the row then goes on in the next row, at first with what was on
the stack there.  A search for a NUL that comes to the end of the array reads outside it, and is
`none`.

* `fillRows_eq`: values that leave room for their NUL have their rows for themselves.
* `keepsFieldsApart_iff`: the segments of the key are kept apart when, and only when, all values are
  such.
-/

namespace FreeswitchContrib.Amqp

open CString (find string find_nul_append find_nul_eq_none string_append string_of_drop)

/-- `switch_event_t`: the values of its headers by their names. -/
structure Event where
  header : List Char → Option (List Char)
  noNul : ∀ name value, header name = some value → CString.nul ∉ value

/-- What is copied for a header name; without the header an empty string. -/
def Event.value (evt : Event) (headerName : List Char) : List Char :=
  (evt.header headerName).getD []

/-- What the array `fieldValues[10][128]` holds when `makeRoutingKey` begins. -/
abbrev Stack := { memory : List Char // memory.length = 10 * 128 }

/-- `strncpy(memory + offset, value, n)` -/
def strncpy (memory : List Char) (offset : ℕ) (value : List Char) (n : ℕ) : List Char :=
  memory.take offset ++
    ((value ++ List.replicate n CString.nul).take n ++ memory.drop (offset + n))

def underscore (c : Char) : Char := if c = '.' then '_' else c

/-- The loop over the string at `offset` that replaces its dots. -/
def replaceDots (memory : List Char) (offset : ℕ) : Option (List Char) :=
  (find (· == CString.nul) memory offset).map fun last =>
    memory.take offset ++
      (((memory.drop offset).take (last - offset)).map underscore ++ memory.drop last)

/-- Row `i` of `fieldValues`. -/
def fillRow (evt : Event) (fieldValues : List Char) (i : ℕ) :
    Option (List Char) → Option (List Char)
  | some headerName =>
    replaceDots (strncpy fieldValues (128 * i) (evt.value headerName) 128) (128 * i)
  | none => some (fieldValues.set (128 * i) CString.nul)

/-- The first rows; the names that are not configured are NULL. -/
def fillRows (evt : Event) (headerNames : List (List Char)) (fieldValues : List Char) :
    ℕ → Option (List Char)
  | 0 => some fieldValues
  | i + 1 => (fillRows evt headerNames fieldValues i).bind fun fieldValues =>
      fillRow evt fieldValues i headerNames[i]?

/-- What a format prints with strings for arguments, from this argument on.  No other conversion
takes a string. -/
def formatted (argument : ℕ → Option (List Char)) : List Char → ℕ → Option (List Char)
  | '%' :: 's' :: format, i => do
    let value ← argument i
    let text ← formatted argument format (i + 1)
    return value ++ text
  | '%' :: '%' :: format, i => (formatted argument format i).map ('%' :: ·)
  | '%' :: _, _ => none
  | c :: format, i => (formatted argument format i).map (c :: ·)
  | [], _ => some []

/-- The routing key, and what `snprintf` returns: how long it would have been. -/
def makeRoutingKey (evt : Event) (routingKeyFormat : List Char) (headerNames : List (List Char))
    (stack : Stack) : Option (List Char × ℕ) := do
  let fieldValues ← fillRows evt headerNames stack.1 10
  let argument := fun i => if i < 10 then string fieldValues (128 * i) else none
  let text ← formatted argument routingKeyFormat 0
  return (text.take 254, text.length)

/-! ## Values that leave room for their NUL -/

variable {evt : Event} {headerNames : List (List Char)} {before tail memory value : List Char}
  {i j : ℕ} {stack : Stack}

lemma Event.nul_notMem_value (evt : Event) (headerName : List Char) :
    CString.nul ∉ evt.value headerName := by
  rw [Event.value]
  cases hheader : evt.header headerName with
  | none => simp
  | some value => exact evt.noNul headerName value hheader

/-- The text of row `i`. -/
def rowText (evt : Event) (headerNames : List (List Char)) (i : ℕ) : List Char :=
  ((headerNames[i]?.map evt.value).getD []).map underscore

lemma underscore_ne_nul {c : Char} (hc : c ≠ CString.nul) : underscore c ≠ CString.nul := by
  rw [underscore]
  split_ifs
  · decide
  · exact hc

lemma underscore_ne_dot (c : Char) : underscore c ≠ '.' := by
  rw [underscore]
  split_ifs with hc
  · decide
  · exact hc

lemma nul_notMem_map (hvalue : CString.nul ∉ value) : CString.nul ∉ value.map underscore := by
  intro hmem
  obtain ⟨c, hc, heq⟩ := List.mem_map.mp hmem
  exact underscore_ne_nul (fun hnul => hvalue (hnul ▸ hc)) heq

lemma nul_notMem_rowText : CString.nul ∉ rowText evt headerNames i := by
  rw [rowText]
  cases headerNames[i]? with
  | none => simp
  | some headerName => exact nul_notMem_map (evt.nul_notMem_value headerName)

/-- The dots of a string are replaced in its place. -/
lemma replaceDots_append (rest : List Char) (hvalue : CString.nul ∉ value) :
    replaceDots (before ++ (value ++ CString.nul :: rest)) before.length =
      some (before ++ (value.map underscore ++ CString.nul :: rest)) := by
  rw [replaceDots, find_nul_append before rest hvalue, Option.map_some, List.drop_left,
    Nat.add_sub_cancel_left, List.take_left, List.take_left, List.drop_append]
  simp

/-- A value and its NUL in a row. -/
lemma strncpy_append (hlength : value.length < 128) :
    strncpy (before ++ tail) before.length value 128 =
      before ++ (value ++ CString.nul ::
        (List.replicate (127 - value.length) CString.nul ++ tail.drop 128)) := by
  have hpad : (value ++ List.replicate 128 CString.nul).take 128 =
      value ++ CString.nul :: List.replicate (127 - value.length) CString.nul := by
    rw [List.take_append, List.take_of_length_le (by omega), List.take_replicate,
      ← List.replicate_succ]
    congr 2
    omega
  rw [strncpy, hpad, List.take_left, List.drop_append]
  simp

/-- A row whose value leaves room for its NUL, and the rows behind it. -/
lemma fillRow_append (evt : Event) (headerNames : List (List Char))
    (hbefore : before.length = 128 * i) (htail : 128 ≤ tail.length)
    (hshort : ∀ name, headerNames[i]? = some name → (evt.value name).length < 128) :
    ∃ rest, (rowText evt headerNames i ++ CString.nul :: rest).length = 128 ∧
      fillRow evt (before ++ tail) i headerNames[i]? =
        some (before ++ (rowText evt headerNames i ++ CString.nul :: rest) ++ tail.drop 128) := by
  cases hname : headerNames[i]? with
  | none =>
    have hset : (before ++ tail).set before.length CString.nul =
        before ++ (CString.nul :: (tail.take 128).tail) ++ tail.drop 128 := by
      cases tail with
      | nil => simp at htail
      | cons c tail =>
        rw [List.set_append_right _ _ (Nat.le_refl _), Nat.sub_self]
        simp
    refine ⟨(tail.take 128).tail, ?_, ?_⟩
    · simp [rowText, hname]
      omega
    · rw [fillRow, ← hbefore, hset, rowText, hname]
      simp
  | some headerName =>
    have hlength := hshort headerName hname
    refine ⟨List.replicate (127 - (evt.value headerName).length) CString.nul, ?_, ?_⟩
    · simp [rowText, hname]
      omega
    · rw [fillRow, ← hbefore, strncpy_append hlength,
        replaceDots_append _ (evt.nul_notMem_value headerName), rowText, hname]
      simp

/-- The rows begin with their texts. -/
structure Rows (evt : Event) (headerNames : List (List Char)) (stack : Stack) (i : ℕ)
    (before : List Char) : Prop where
  eq : fillRows evt headerNames stack.1 i = some (before ++ stack.1.drop (128 * i))
  length : before.length = 128 * i
  row : ∀ j < i, ∃ rest, before.drop (128 * j) = rowText evt headerNames j ++ CString.nul :: rest

/-- **Values that leave room for their NUL** have their rows for themselves. -/
theorem fillRows_eq (evt : Event) (headerNames : List (List Char)) (stack : Stack) :
    ∀ i ≤ 10, (∀ j < i, ∀ name, headerNames[j]? = some name → (evt.value name).length < 128) →
      ∃ before, Rows evt headerNames stack i before
  | 0, _, _ => ⟨[], rfl, rfl, nofun⟩
  | i + 1, hi, hshort => by
    obtain ⟨before, heq, hlength, hrow⟩ := fillRows_eq evt headerNames stack i
      (Nat.le_of_succ_le hi) fun j hj => hshort j (Nat.lt_succ_of_lt hj)
    have htail : 128 ≤ (stack.1.drop (128 * i)).length := by
      rw [List.length_drop, stack.2]
      omega
    obtain ⟨rest, hrest, hfill⟩ := fillRow_append evt headerNames hlength htail
      (hshort i (Nat.lt_succ_self i))
    refine ⟨before ++ (rowText evt headerNames i ++ CString.nul :: rest), ?_, ?_, ?_⟩
    · rw [fillRows, heq, Option.bind_some, hfill, List.drop_drop]
      rfl
    · rw [List.length_append, hlength, hrest, Nat.mul_succ]
    · intro j hj
      rcases Nat.lt_succ_iff_lt_or_eq.mp hj with hj | rfl
      · obtain ⟨rest', hrest'⟩ := hrow j hj
        refine ⟨rest' ++ (rowText evt headerNames i ++ CString.nul :: rest), ?_⟩
        rw [List.drop_append_of_le_length (by omega), hrest']
        simp
      · exact ⟨rest, by rw [← hlength, List.drop_left]⟩

/-- What an argument of the format is. -/
lemma Rows.string (h : Rows evt headerNames stack 10 before) (hi : i < 10) :
    fillRows evt headerNames stack.1 10 = some before ∧
      string before (128 * i) = some (rowText evt headerNames i) := by
  obtain ⟨rest, hrest⟩ := h.row i hi
  constructor
  · rw [h.eq, List.drop_of_length_le (by rw [stack.2]), List.append_nil]
  · exact string_of_drop (by rw [h.length]; omega) hrest nul_notMem_rowText

/-! ## The format -/

/-- `%s` as often as there are texts, joined by dots, prints the texts joined by dots. -/
lemma formatted_intercalate (argument : ℕ → Option (List Char)) :
    ∀ (texts : List (List Char)) (i : ℕ),
      (∀ j text, texts[j]? = some text → argument (i + j) = some text) →
        formatted argument (['.'].intercalate (List.replicate texts.length ['%', 's'])) i =
          some (['.'].intercalate texts)
  | [], _, _ => by simp [formatted]
  | [text], i, h => by
    have harg := h 0 text rfl
    simp [formatted] at harg ⊢
    simp [harg]
  | text :: next :: texts, i, h => by
    have harg : argument i = some text := h 0 text rfl
    have ih := formatted_intercalate argument (next :: texts) (i + 1) fun j text hj => by
      rw [Nat.add_assoc, Nat.add_comm 1 j]
      exact h (j + 1) text hj
    have hformat : ['.'].intercalate (List.replicate (text :: next :: texts).length ['%', 's']) =
        '%' :: 's' :: '.' ::
          ['.'].intercalate (List.replicate (next :: texts).length ['%', 's']) := by
      simp [List.replicate_succ]
    rw [List.length_cons] at ih
    rw [hformat, List.intercalate_cons_cons]
    simp [formatted, harg, ih]

/-- `k` times `%s`, joined by dots. -/
def routingKeyFormat (k : ℕ) : List Char := ['.'].intercalate (List.replicate k ['%', 's'])

def segments (evt : Event) (headerNames : List (List Char)) : List (List Char) :=
  headerNames.map fun headerName => (evt.value headerName).map underscore

/-- **The key is the values**, with their dots replaced and joined by dots. -/
theorem makeRoutingKey_eq (hk : headerNames.length ≤ 10)
    (hshort : ∀ headerName ∈ headerNames, (evt.value headerName).length < 128) (stack : Stack) :
    makeRoutingKey evt (routingKeyFormat headerNames.length) headerNames stack =
      some ((['.'].intercalate (segments evt headerNames)).take 254,
        (['.'].intercalate (segments evt headerNames)).length) := by
  obtain ⟨before, hrows⟩ := fillRows_eq evt headerNames stack 10
    (Nat.le_refl _) fun j _ name hname => hshort name (List.mem_of_getElem? hname)
  have hfill := (hrows.string (i := 0) (by decide)).1
  have hlength : (segments evt headerNames).length = headerNames.length := List.length_map _
  have hformatted := formatted_intercalate
    (fun i => if i < 10 then string before (128 * i) else none)
    (segments evt headerNames) 0 fun j text hj => by
      rw [segments, List.getElem?_map, Option.map_eq_some_iff] at hj
      obtain ⟨headerName, hname, rfl⟩ := hj
      have hlt : j < 10 := lt_of_lt_of_le (List.getElem?_eq_some_iff.mp hname).1 hk
      rw [Nat.zero_add]
      simp only [if_pos hlt, (hrows.string hlt).2, rowText, hname, Option.map_some,
        Option.getD_some]
  rw [hlength] at hformatted
  simp only [makeRoutingKey, hfill, Option.bind_eq_bind, Option.bind_some, routingKeyFormat,
    hformatted]
  rfl

/-! ## Values that fill their row -/

lemma fillRows_none_mono (hnone : fillRows evt headerNames memory i = none) :
    ∀ j, fillRows evt headerNames memory (i + j) = none
  | 0 => hnone
  | j + 1 => by
    rw [← Nat.add_assoc, fillRows, fillRows_none_mono hnone j]
    rfl

/-- No NUL is found behind a value that fills its row, when there was none on the stack. -/
lemma fillRow_none {headerName : List Char} (hbefore : before.length = 128 * i)
    (htail : CString.nul ∉ tail) (hlong : 128 ≤ (evt.value headerName).length) :
    fillRow evt (before ++ tail) i (some headerName) = none := by
  have hcopied : strncpy (before ++ tail) before.length (evt.value headerName) 128 =
      before ++ ((evt.value headerName).take 128 ++ tail.drop 128) := by
    rw [strncpy, List.take_append_of_le_length hlong, List.take_left, List.drop_append]
    simp
  rw [fillRow, ← hbefore, hcopied, replaceDots, find_nul_eq_none]
  · rfl
  · rw [List.drop_left, List.mem_append, not_or]
    exact ⟨fun hmem => evt.nul_notMem_value headerName (List.mem_of_mem_take hmem),
      fun hmem => htail (List.mem_of_mem_drop hmem)⟩

/-- A stack without a NUL. -/
def filledStack : Stack := ⟨List.replicate (10 * 128) 'x', List.length_replicate⟩

lemma makeRoutingKey_filledStack (hk : headerNames.length ≤ 10) {headerName : List Char}
    (hmem : headerName ∈ headerNames) (hlong : 128 ≤ (evt.value headerName).length)
    (format : List Char) : makeRoutingKey evt format headerNames filledStack = none := by
  classical
  have hex : ∃ i : ℕ, ∃ name, headerNames[i]? = some name ∧ 128 ≤ (evt.value name).length := by
    obtain ⟨i, hi⟩ := List.getElem?_of_mem hmem
    exact ⟨i, headerName, hi, hlong⟩
  -- the first such header
  obtain ⟨name, hname, hlong⟩ := Nat.find_spec hex
  set i := Nat.find hex with hi
  have hlt : i < 10 := lt_of_lt_of_le (List.getElem?_eq_some_iff.mp hname).1 hk
  obtain ⟨before, hrows⟩ := fillRows_eq evt headerNames filledStack i
    (Nat.le_of_lt hlt) fun j hj name' hname' => by
      by_contra hlong'
      exact Nat.find_min hex (hi ▸ hj) ⟨name', hname', Nat.le_of_not_lt hlong'⟩
  have hnone : fillRows evt headerNames filledStack.1 (i + 1) = none := by
    rw [fillRows, hrows.eq, Option.bind_some, hname]
    refine fillRow_none hrows.length (fun hnul => ?_) hlong
    exact absurd (List.eq_of_mem_replicate (List.mem_of_mem_drop hnul)) (by decide)
  have hten := fillRows_none_mono hnone (9 - i)
  rw [show i + 1 + (9 - i) = 10 by omega] at hten
  rw [makeRoutingKey, hten]
  rfl

/-! ## Segments -/

/-- The key consists of `k` segments without dots. -/
structure Segmented (k : ℕ) (key : List Char) (segments : List (List Char)) : Prop where
  length : segments.length = k
  noDot : ∀ segment ∈ segments, '.' ∉ segment
  key : key = ['.'].intercalate segments

/-- There are no two ways to take a key apart. -/
lemma Segmented.unique {k : ℕ} {key : List Char} {parts parts' : List (List Char)}
    (h : Segmented k key parts) (h' : Segmented k key parts') : parts = parts' := by
  by_cases hk : k = 0
  · rw [List.eq_nil_of_length_eq_zero (h.length.trans hk),
      List.eq_nil_of_length_eq_zero (h'.length.trans hk)]
  · have hne : parts ≠ [] := List.ne_nil_of_length_pos (by rw [h.length]; omega)
    have hne' : parts' ≠ [] := List.ne_nil_of_length_pos (by rw [h'.length]; omega)
    rw [← List.splitOn_intercalate '.' h.noDot hne, ← h.key, h'.key,
      List.splitOn_intercalate '.' h'.noDot hne']

/-- Whatever is on the stack, there are keys; one that is not truncated has a segment for each
header, and two events with the same value of a header have the same segment for it. -/
def KeepsFieldsApart (headerNames : List (List Char)) (evt₁ evt₂ : Event) : Prop :=
  ∀ stack₁ stack₂ : Stack, ∃ key₁ length₁ key₂ length₂,
    makeRoutingKey evt₁ (routingKeyFormat headerNames.length) headerNames stack₁ =
      some (key₁, length₁) ∧
    makeRoutingKey evt₂ (routingKeyFormat headerNames.length) headerNames stack₂ =
      some (key₂, length₂) ∧
    (length₁ < 255 → ∃ parts, Segmented headerNames.length key₁ parts) ∧
    (length₂ < 255 → ∃ parts, Segmented headerNames.length key₂ parts) ∧
    (length₁ < 255 → length₂ < 255 → ∀ parts₁ parts₂,
      Segmented headerNames.length key₁ parts₁ → Segmented headerNames.length key₂ parts₂ →
        ∀ (i : ℕ) headerName, headerNames[i]? = some headerName →
          evt₁.value headerName = evt₂.value headerName → parts₁[i]? = parts₂[i]?)

lemma segmented_segments (evt : Event) (headerNames : List (List Char)) :
    Segmented headerNames.length (['.'].intercalate (segments evt headerNames))
      (segments evt headerNames) where
  length := List.length_map _
  noDot segment hsegment hdot := by
    obtain ⟨headerName, -, rfl⟩ := List.mem_map.mp hsegment
    obtain ⟨c, -, hc⟩ := List.mem_map.mp hdot
    exact underscore_ne_dot c hc
  key := rfl

/-- A key that is not truncated is made of the values' segments. -/
lemma Segmented.eq_segments {parts : List (List Char)}
    (hlength : (['.'].intercalate (segments evt headerNames)).length < 255)
    (h : Segmented headerNames.length
      ((['.'].intercalate (segments evt headerNames)).take 254) parts) :
    parts = segments evt headerNames := by
  rw [List.take_of_length_le (by omega)] at h
  exact h.unique (segmented_segments evt headerNames)

variable {evt₁ evt₂ : Event}

/-- **When the fields of the routing keys are kept apart**: all values leave room for their NUL. -/
theorem keepsFieldsApart_iff (hk : headerNames.length ≤ 10) :
    KeepsFieldsApart headerNames evt₁ evt₂ ↔ ∀ headerName ∈ headerNames,
      (evt₁.value headerName).length < 128 ∧ (evt₂.value headerName).length < 128 := by
  constructor
  · intro h headerName hmem
    obtain ⟨key₁, length₁, key₂, length₂, hkey₁, hkey₂, -⟩ := h filledStack filledStack
    constructor
    · by_contra hlong
      rw [makeRoutingKey_filledStack hk hmem (Nat.le_of_not_lt hlong)] at hkey₁
      cases hkey₁
    · by_contra hlong
      rw [makeRoutingKey_filledStack hk hmem (Nat.le_of_not_lt hlong)] at hkey₂
      cases hkey₂
  · intro h stack₁ stack₂
    refine ⟨_, _, _, _, makeRoutingKey_eq hk (fun name hname => (h name hname).1) stack₁,
      makeRoutingKey_eq hk (fun name hname => (h name hname).2) stack₂, ?_, ?_, ?_⟩
    · intro hlength
      rw [List.take_of_length_le (by omega)]
      exact ⟨_, segmented_segments evt₁ headerNames⟩
    · intro hlength
      rw [List.take_of_length_le (by omega)]
      exact ⟨_, segmented_segments evt₂ headerNames⟩
    · intro hlength₁ hlength₂ parts₁ parts₂ hparts₁ hparts₂ i headerName hname hvalue
      rw [hparts₁.eq_segments hlength₁, hparts₂.eq_segments hlength₂, segments, segments,
        List.getElem?_map, List.getElem?_map, hname, Option.map_some, Option.map_some, hvalue]

/-- An event with two headers. -/
def twoHeaders (first second : List Char) (hfirst : CString.nul ∉ first)
    (hsecond : CString.nul ∉ second) : Event where
  header name := if name = ['a'] then some first else if name = ['b'] then some second else none
  noNul name value h := by
    split_ifs at h
    · exact Option.some.inj h ▸ hfirst
    · exact Option.some.inj h ▸ hsecond

theorem keepsFieldsApart_dots : KeepsFieldsApart [['a'], ['b']]
    (twoHeaders ['1', '.'] ['2'] (by decide) (by decide))
    (twoHeaders ['1', '.'] ['.', '3'] (by decide) (by decide)) :=
  (keepsFieldsApart_iff (by decide)).mpr (by decide)

def zeroStack : Stack := ⟨List.replicate (10 * 128) CString.nul, List.length_replicate⟩

/-- A first header that fills its row, and a second one. -/
def fullRow (second : List Char) (hsecond : CString.nul ∉ second) : Event :=
  twoHeaders (List.replicate 128 'x') second
    (fun h => absurd (List.eq_of_mem_replicate h) (by decide)) hsecond

/-- The first segment goes on with the second header. -/
theorem not_keepsFieldsApart : ¬ ∀ (headerNames : List (List Char)) (evt₁ evt₂ : Event),
    headerNames.length ≤ 10 → KeepsFieldsApart headerNames evt₁ evt₂ := by
  intro h
  have h₁ : makeRoutingKey (fullRow ['1'] (by decide)) (routingKeyFormat 2) [['a'], ['b']]
      zeroStack = some (List.replicate 128 'x' ++ ['1', '.', '1'], 131) := by
    set_option maxRecDepth 8192 in decide
  have h₂ : makeRoutingKey (fullRow ['2'] (by decide)) (routingKeyFormat 2) [['a'], ['b']]
      zeroStack = some (List.replicate 128 'x' ++ ['2', '.', '2'], 131) := by
    set_option maxRecDepth 8192 in decide
  obtain ⟨key₁, length₁, key₂, length₂, hkey₁, hkey₂, -, -, happart⟩ :=
    h [['a'], ['b']] (fullRow ['1'] (by decide)) (fullRow ['2'] (by decide)) (by decide)
      zeroStack zeroStack
  obtain ⟨rfl, rfl⟩ := Prod.mk.inj (Option.some.inj (hkey₁.symm.trans h₁))
  obtain ⟨rfl, rfl⟩ := Prod.mk.inj (Option.some.inj (hkey₂.symm.trans h₂))
  have hsame := happart (by decide) (by decide)
    [List.replicate 128 'x' ++ ['1'], ['1']] [List.replicate 128 'x' ++ ['2'], ['2']]
    ⟨rfl, by decide, by decide⟩ ⟨rfl, by decide, by decide⟩ 0 ['a'] rfl rfl
  exact absurd hsame (by decide)

end FreeswitchContrib.Amqp
