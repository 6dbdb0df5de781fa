import Mathlib.Data.List.Basic

/-!
# Names of events

The names of the .NET enumerations are in camel case, and those that FreeSWITCH knows in upper case
with an underscore between two words.  `StringHelper` goes from one to the other.  Both functions
look at one character after the other, under the culture of the thread; what is known of a culture
here is what it does with the letters of ASCII.

* `camelFrom` — what is written for the characters of a name behind its first letter.
* **`eventName_round_trip`** — the names survive, whatever the culture.
-/

namespace FreeswitchContrib.EventSocket

/-- The culture of a thread, with what every culture does to the letters of ASCII.  The capital that
a small letter has need not be an ASCII one, but it is a capital of that letter alone. -/
structure CultureInfo where
  toUpper : Char → Char
  toLower : Char → Char
  toUpper_of_isUpper : ∀ c : Char, c.isUpper → toUpper c = c
  toLower_toUpper : ∀ c : Char, c.isLower → toLower (toUpper c) = c
  toUpper_ne : ∀ c : Char, c.isLower → toUpper c ≠ '_'

/-! ## StringHelper.cs -/

/-- The loop of `UpperCaseToCamelCase`, of which the state is `isFirst` and `result`. -/
def upperCaseStep (culture : CultureInfo) : Bool × List Char → Char → Bool × List Char
  | (isFirst, result), ch =>
    if isFirst then (false, result ++ [culture.toUpper ch])
    else if ch = '_' then (true, result)
    else (false, result ++ [culture.toLower ch])

def upperCaseToCamelCase (culture : CultureInfo) (name : List Char) : List Char :=
  (name.foldl (upperCaseStep culture) (true, [])).2

/-- The loop of `CamelCaseToUpperCase`: there is an underscore before every capital but the first. -/
def camelCaseStep (culture : CultureInfo) : Bool × List Char → Char → Bool × List Char
  | (isFirst, result), ch =>
    if ch.isUpper then
      (false, (if isFirst then result else result ++ ['_']) ++ [culture.toUpper ch])
    else (isFirst, result ++ [culture.toUpper ch])

def camelCaseToUpperCase (culture : CultureInfo) (name : List Char) : List Char :=
  (name.foldl (camelCaseStep culture) (true, [])).2

/-- A name of letters that begins with a capital. -/
@[ext]
structure EventName where
  text : List Char
  letters : ∀ c ∈ text, c.isUpper ∨ c.isLower
  capital : ∃ c cs, text = c :: cs ∧ c.isUpper

/-! ## Behind the first letter -/

variable (culture : CultureInfo) {c : Char} {cs result : List Char}

/-- What is written for the characters behind the first letter. -/
def camelFrom (cs : List Char) : List Char :=
  cs.flatMap fun c => if c.isUpper then ['_', culture.toUpper c] else [culture.toUpper c]

lemma foldl_camelCaseStep (cs result : List Char) :
    cs.foldl (camelCaseStep culture) (false, result) = (false, result ++ camelFrom culture cs) := by
  induction cs generalizing result with
  | nil => rw [List.foldl_nil, camelFrom, List.flatMap_nil, List.append_nil]
  | cons c cs ih =>
    rw [List.foldl_cons, camelFrom, List.flatMap_cons, ← camelFrom]
    by_cases hc : c.isUpper
    · rw [if_pos hc, camelCaseStep, if_pos hc, if_neg Bool.false_ne_true, ih]
      simp only [List.append_assoc, List.cons_append, List.nil_append]
    · rw [if_neg hc, camelCaseStep, if_neg hc, ih, List.append_assoc]

/-- Inside of a word the other function reads one letter back: a capital behind its underscore, and
a small letter as its capital. -/
lemma foldl_upperCaseStep (hcs : ∀ c ∈ cs, c.isUpper ∨ c.isLower) (result : List Char) :
    (camelFrom culture cs).foldl (upperCaseStep culture) (false, result) =
      (false, result ++ cs) := by
  induction cs generalizing result with
  | nil => rw [camelFrom, List.flatMap_nil, List.foldl_nil, List.append_nil]
  | cons c cs ih =>
    have htail : ∀ c ∈ cs, c.isUpper ∨ c.isLower := fun d hd => hcs d (List.mem_cons_of_mem c hd)
    rw [camelFrom, List.flatMap_cons, ← camelFrom, List.foldl_append, List.append_cons]
    by_cases hc : c.isUpper
    · have hword : [c].foldl (upperCaseStep culture) (true, result) = (false, result ++ [c]) := by
        rw [List.foldl_cons, List.foldl_nil, upperCaseStep, if_pos rfl,
          culture.toUpper_of_isUpper c hc]
      rw [if_pos hc, culture.toUpper_of_isUpper c hc, List.foldl_cons, upperCaseStep,
        if_neg Bool.false_ne_true, if_pos rfl, hword, ih htail]
    · have hlower : c.isLower := (hcs c List.mem_cons_self).resolve_left hc
      rw [if_neg hc, List.foldl_cons, List.foldl_nil, upperCaseStep, if_neg Bool.false_ne_true,
        if_neg (culture.toUpper_ne c hlower), culture.toLower_toUpper c hlower, ih htail]

/-! ## The whole name -/

lemma camelCaseToUpperCase_cons (hc : c.isUpper) (cs : List Char) :
    camelCaseToUpperCase culture (c :: cs) = c :: camelFrom culture cs := by
  rw [camelCaseToUpperCase, List.foldl_cons, camelCaseStep, if_pos hc, if_pos rfl,
    culture.toUpper_of_isUpper c hc, foldl_camelCaseStep]
  rfl

lemma upperCaseToCamelCase_cons (hc : c.isUpper) (hcs : ∀ c ∈ cs, c.isUpper ∨ c.isLower) :
    upperCaseToCamelCase culture (c :: camelFrom culture cs) = c :: cs := by
  rw [upperCaseToCamelCase, List.foldl_cons, upperCaseStep, if_pos rfl,
    culture.toUpper_of_isUpper c hc, foldl_upperCaseStep culture hcs]
  rfl

lemma upperCaseToCamelCase_camelCaseToUpperCase (name : EventName) :
    upperCaseToCamelCase culture (camelCaseToUpperCase culture name.text) = name.text := by
  obtain ⟨c, cs, htext, hc⟩ := name.capital
  have hcs : ∀ d ∈ cs, d.isUpper ∨ d.isLower := by
    intro d hd
    refine name.letters d ?_
    rw [htext]
    exact List.mem_cons_of_mem c hd
  rw [htext, camelCaseToUpperCase_cons culture hc, upperCaseToCamelCase_cons culture hc hcs]

/-- **Event names survive the round trip**, and no two of them are written alike. -/
theorem eventName_round_trip (culture : CultureInfo) :
    (∀ name : EventName,
      upperCaseToCamelCase culture (camelCaseToUpperCase culture name.text) = name.text) ∧
    Function.Injective fun name : EventName => camelCaseToUpperCase culture name.text := by
  refine ⟨upperCaseToCamelCase_camelCaseToUpperCase culture, fun name name' h => ?_⟩
  have hback := congrArg (upperCaseToCamelCase culture) h
  dsimp only at hback
  rw [upperCaseToCamelCase_camelCaseToUpperCase,
    upperCaseToCamelCase_camelCaseToUpperCase] at hback
  exact EventName.ext hback

/-! ## Two cultures -/

lemma forall_ascii {p : Char → Prop} (h : ∀ n < 128, p (Char.ofNat n)) {c : Char}
    (hc : c.toNat < 128) : p c := by
  have hn := h c.toNat hc
  rwa [Char.ofNat_toNat] at hn

lemma toNat_lt_of_isUpper (h : c.isUpper) : c.toNat < 128 := by
  have hrange : c.val ≥ 'A'.val ∧ c.val ≤ 'Z'.val := of_decide_eq_true h
  exact Nat.lt_of_le_of_lt (UInt32.le_iff_toNat_le.mp hrange.2) (by decide)

lemma toNat_lt_of_isLower (h : c.isLower) : c.toNat < 128 := by
  have hle : c.val ≤ 'z'.val := of_decide_eq_true (Bool.and_eq_true_iff.mp h).2
  exact Nat.lt_of_le_of_lt (UInt32.le_iff_toNat_le.mp hle) (by decide)

/-- The letters of ASCII among themselves. -/
def CultureInfo.english : CultureInfo where
  toUpper := Char.toUpper
  toLower := Char.toLower
  toUpper_of_isUpper c h := forall_ascii
    (p := fun c => c.isUpper → c.toUpper = c) (by decide) (toNat_lt_of_isUpper h) h
  toLower_toUpper c h := forall_ascii
    (p := fun c => c.isLower → c.toUpper.toLower = c) (by decide) (toNat_lt_of_isLower h) h
  toUpper_ne c h := forall_ascii
    (p := fun c => c.isLower → c.toUpper ≠ '_') (by decide) (toNat_lt_of_isLower h) h

/-- The capital of `i` has a dot, and the small letter of `I` has none. -/
def CultureInfo.turkish : CultureInfo where
  toUpper c := if c = 'i' then 'İ' else if c = 'ı' then 'I' else c.toUpper
  toLower c := if c = 'İ' then 'i' else if c = 'I' then 'ı' else c.toLower
  toUpper_of_isUpper c h := forall_ascii (p := fun c => c.isUpper →
    (if c = 'i' then 'İ' else if c = 'ı' then 'I' else c.toUpper) = c)
    (by decide) (toNat_lt_of_isUpper h) h
  toLower_toUpper c h := forall_ascii (p := fun c => c.isLower →
    (fun d : Char => if d = 'İ' then 'i' else if d = 'I' then 'ı' else d.toLower)
      (if c = 'i' then 'İ' else if c = 'ı' then 'I' else c.toUpper) = c)
    (by decide) (toNat_lt_of_isLower h) h
  toUpper_ne c h := forall_ascii (p := fun c => c.isLower →
    (if c = 'i' then 'İ' else if c = 'ı' then 'I' else c.toUpper) ≠ '_')
    (by decide) (toNat_lt_of_isLower h) h

example : camelCaseToUpperCase .turkish "ChannelBridge".toList = "CHANNEL_BRİDGE".toList := by
  decide

end FreeswitchContrib.EventSocket
