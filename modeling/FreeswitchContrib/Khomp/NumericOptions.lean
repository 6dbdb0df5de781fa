import FreeswitchContrib.Khomp.CommitLaw

/-!
# Which texts a numeric option accepts

`process` reads the text of a signed option with `strtoul` and that of an unsigned one with
`strtol`, both with base 10, keeps the lower 32 bits and checks the range.

* `ConfigOption.kept` — what the type of the option keeps of a number.
* `process_returned_iff` — which texts are accepted, and what is stored then.
* **`process_acceptsExactly_iff`** — when these are the texts that denote an allowed number.
-/

namespace Khomp

open CString ConfigOptions

/-! ## Numbers of an option -/

/-- The number that a text denotes: white space, a sign and decimal digits, up to the end. -/
def denoted (text : List Char) : Option ℤ := Numeral.signedDecimal (text.dropWhile isspace)

def Value.number : Value → Option ℤ
  | .sint value => some value.toInt
  | .uint value => some value.toNat
  | _ => none

namespace ConfigOption

/-- The range of an integer option. -/
def range (option : ConfigOption) : Option (Range ℤ) :=
  match option.valueData with
  | .sintData _ _ range => some ⟨range.minimum.toInt, range.maximum.toInt, range.step.toInt⟩
  | .uintData _ _ range => some ⟨range.minimum.toNat, range.maximum.toNat, range.step.toNat⟩
  | _ => none

/-- What is kept of a number.  From 2⁶⁴ on `strtoul` gives the greatest number there is, and
`strtol` stays within 63 bits. -/
def kept (option : ConfigOption) (n : ℤ) : ℤ :=
  match option.type with
  | .sint => if 2 ^ 64 ≤ n.natAbs then -1 else n.bmod (2 ^ 32)
  | _ => max (-2 ^ 63) (min (2 ^ 63 - 1) n) % 2 ^ 32

/-- The difference to the minimum, which wraps around in an `int`. -/
def distance (option : ConfigOption) (minimum n : ℤ) : ℤ :=
  match option.type with
  | .sint => (n - minimum).bmod (2 ^ 32)
  | _ => n - minimum

end ConfigOption

/-- The numbers of a range. -/
def Allows (range : Range ℤ) (n : ℤ) : Prop :=
  range.minimum ≤ n ∧ n ≤ range.maximum ∧ range.step ∣ n - range.minimum

/-- The numbers that pass the checks of the option. -/
def ConfigOption.Passes (option : ConfigOption) (range : Range ℤ) (n : ℤ) : Prop :=
  range.minimum ≤ n ∧ n ≤ range.maximum ∧ range.step ∣ option.distance range.minimum n

/-- The number that the option reads from a text; the empty text is read as 0. -/
def ConfigOption.read (option : ConfigOption) (text : String) : Option ℤ :=
  if text.toList = [] then some 0 else (denoted text.toList).map option.kept

/-! ## Conversions -/

section Conversions

variable {text : List Char} {n : ℤ}

lemma decimal_isSome_iff {digits : List Char} : (Numeral.decimal digits).isSome ↔
    digits ≠ [] ∧ ∀ c ∈ digits, c.isDigit = true := by
  rw [Numeral.decimal]
  split_ifs with h
  · simpa [List.all_eq_true] using h
  · simpa [List.all_eq_true] using h

/-- The sign in front of the digits. -/
def sign : List Char → ℤ
  | '-' :: _ => -1
  | _ => 1

lemma signedDecimal_eq (text : List Char) : Numeral.signedDecimal text =
    (Numeral.decimal (afterSign text)).map fun digits : ℕ => sign text * digits := by
  rw [Numeral.signedDecimal.eq_def, afterSign.eq_def, sign.eq_def]
  split
  · simp
  · simp
  · simp

lemma leadingInt_eq (text : List Char) : leadingInt text =
    sign (text.dropWhile isspace) * leadingDigits (afterSign (text.dropWhile isspace)) := by
  rw [leadingInt]
  generalize text.dropWhile isspace = rest
  rw [afterSign.eq_def, sign.eq_def]
  split
  · simp
  · simp
  · simp

/-- What `strtol` and `strtoul` read to the end: the empty text, and what denotes a number. -/
lemma numberEnd_eq_nil_iff : numberEnd text = [] ↔ text = [] ∨ (denoted text).isSome := by
  rw [denoted, signedDecimal_eq, Option.isSome_map, decimal_isSome_iff, numberEnd]
  generalize hdigits : afterSign (text.dropWhile isspace) = digits
  have hnil : text = [] → digits = [] := by
    rintro rfl
    exact hdigits.symm
  cases digits with
  | nil => simp
  | cons c digits =>
    have htext : text ≠ [] := fun h => absurd (hnil h) (List.cons_ne_nil c digits)
    cases hc : c.isDigit with
    | true => simp [hc, htext, List.dropWhile_eq_nil_iff]
    | false => simp [hc, htext]

lemma leadingInt_of_denoted (h : denoted text = some n) : leadingInt text = n := by
  rw [denoted, signedDecimal_eq] at h
  obtain ⟨m, hm, rfl⟩ := Option.map_eq_some_iff.1 h
  rw [leadingInt_eq, leadingDigits_of_decimal hm]

/-- What a signed option keeps of a text. -/
lemma toInt_toulong (h : denoted text = some n) :
    (UInt64.ofNat (strtoul text)).toUInt32.toInt32.toInt =
      if 2 ^ 64 ≤ n.natAbs then -1 else n.bmod (2 ^ 32) := by
  have hbmod : (UInt64.ofNat (strtoul text)).toUInt32.toInt32.toInt =
      (strtoul text : ℤ).bmod (2 ^ 32) := by simp
  rw [hbmod, strtoul, leadingInt_of_denoted h]
  split_ifs
  · rfl
  · rw [Int.toNat_of_nonneg (Int.emod_nonneg n (by decide)), Int.bmod_def, Int.bmod_def]
    omega

/-- What an unsigned option keeps of a text. -/
lemma toNat_tolong (h : denoted text = some n) :
    ((Int64.ofInt (strtol text)).toInt32.toUInt32.toNat : ℤ) =
      max (-2 ^ 63) (min (2 ^ 63 - 1) n) % 2 ^ 32 := by
  have hemod : ((Int64.ofInt (strtol text)).toInt32.toUInt32.toNat : ℤ) =
      strtol text % 2 ^ 32 := by
    rw [← Int32.toNat_toBitVec]
    simpa using Int.emod_nonneg _ (by decide)
  rw [hemod, strtol, leadingInt_of_denoted h]

variable {option : ConfigOption} {str : String}

/-- Whichever function converts the text, it does so where it has read it to the end. -/
lemma read_eq (converted : ℤ) (hnil : str.toList = [] → converted = 0)
    (hn : ∀ n, denoted str.toList = some n → converted = option.kept n) :
    option.read str = if numberEnd str.toList = [] then some converted else none := by
  rw [ConfigOption.read]
  by_cases hstr : str.toList = []
  · rw [if_pos hstr, if_pos (numberEnd_eq_nil_iff.2 (Or.inl hstr)), hnil hstr]
  · rw [if_neg hstr]
    cases hdenoted : denoted str.toList with
    | none =>
      have hend : numberEnd str.toList ≠ [] := by
        simp [numberEnd_eq_nil_iff, hstr, hdenoted]
      rw [if_neg hend]
      rfl
    | some n =>
      have hend : numberEnd str.toList = [] := by
        simp [numberEnd_eq_nil_iff, hdenoted]
      rw [if_pos hend, hn n hdenoted]
      rfl

lemma read_of_sint (h : option.type = .sint) : option.read str =
    (toulong str).toOption.map fun number => number.toUInt32.toInt32.toInt := by
  rw [read_eq (UInt64.ofNat (strtoul str.toList)).toUInt32.toInt32.toInt, toulong]
  · split_ifs <;> rfl
  · intro hnil
    rw [hnil]
    rfl
  · intro n hn
    rw [toInt_toulong hn, ConfigOption.kept, h]

lemma read_of_uint (h : option.type = .uint) : option.read str =
    (tolong str).toOption.map fun number => (number.toInt32.toUInt32.toNat : ℤ) := by
  rw [read_eq (Int64.ofInt (strtol str.toList)).toInt32.toUInt32.toNat, tolong]
  · split_ifs <;> rfl
  · intro hnil
    rw [hnil]
    rfl
  · intro n hn
    rw [toNat_tolong hn, ConfigOption.kept, h]

end Conversions

/-! ## The checks of a number -/

section Checks

variable {option : ConfigOption} {memory : Memory} {v : ℕ}

def Outcome.Returns {σ : Type} : Outcome σ → Prop
  | .returned _ => True
  | _ => False

lemma setNumber_returns_iff {number : Type} [LT number] [DecidableLT number] [Sub number]
    [Zero number] [DecidableEq number] {rest : number → number → Option number}
    {format : number → String} {stored : number → Value} {range : Range number} {value : number} :
    (ConfigOption.setNumber rest format stored v range value option memory).Returns ↔
      ¬ value < range.minimum ∧ ¬ range.maximum < value ∧
        rest (value - range.minimum) range.step = some 0 := by
  unfold ConfigOption.setNumber
  dsimp only
  split_ifs with hlow hhigh
  · simp [Outcome.Returns, hlow]
  · simp [Outcome.Returns, hhigh]
  · split
    next hnone => simp [Outcome.Returns, hnone]
    next remainder hsome =>
      rw [hsome]
      split_ifs with hzero
      · simp [Outcome.Returns, hzero]
      · simp [Outcome.Returns, ConfigOption.assign, hlow, hhigh, not_not.1 hzero]

lemma sintRest_eq_zero_iff {dividend divisor : Int32} (h : 1 ≤ divisor.toInt) :
    ConfigOption.sintRest dividend divisor = some 0 ↔ divisor.toInt ∣ dividend.toInt := by
  have hzero : divisor ≠ 0 := by
    rintro rfl
    exact absurd h (by decide)
  have hminus : divisor ≠ -1 := by
    rintro rfl
    exact absurd h (by decide)
  rw [ConfigOption.sintRest, if_neg (by tauto), Option.some.injEq, Int.dvd_iff_tmod_eq_zero,
    ← Int32.toInt_mod, ← Int32.toInt_inj]
  rfl

lemma uintRest_eq_zero_iff {dividend divisor : UInt32} (h : 1 ≤ divisor.toNat) :
    ConfigOption.uintRest dividend divisor = some 0 ↔
      (divisor.toNat : ℤ) ∣ dividend.toNat := by
  have hzero : divisor ≠ 0 := by
    rintro rfl
    exact absurd h (by decide)
  rw [ConfigOption.uintRest, if_neg hzero, Option.some.injEq, Int.natCast_dvd_natCast,
    Nat.dvd_iff_mod_eq_zero, ← UInt32.toNat_mod, ← UInt32.toNat_inj]
  rfl

/-- A signed number is set if it passes the checks. -/
lemma setSint_returns_iff {default : Int32} {sintRange : Range Int32} {value : Int32}
    {range : Range ℤ} (hdata : option.valueData = .sintData v default sintRange)
    (hrange : option.range = some range) (hstep : 1 ≤ range.step) :
    (option.setSint value memory).Returns ↔ option.Passes range value.toInt := by
  have htype : option.type = .sint := by rw [ConfigOption.type, hdata]; rfl
  rw [ConfigOption.range, hdata] at hrange
  obtain rfl := Option.some.inj hrange
  rw [ConfigOption.setSint, hdata]
  dsimp only at hstep ⊢
  rw [setNumber_returns_iff, sintRest_eq_zero_iff hstep, Int32.toInt_sub, ConfigOption.Passes,
    ConfigOption.distance, htype, Int32.lt_iff_toInt_lt, Int32.lt_iff_toInt_lt, not_lt, not_lt]

/-- An unsigned number is set if it passes the checks. -/
lemma setUint_returns_iff {default : UInt32} {uintRange : Range UInt32} {value : UInt32}
    {range : Range ℤ} (hdata : option.valueData = .uintData v default uintRange)
    (hrange : option.range = some range) (hstep : 1 ≤ range.step) :
    (option.setUint value memory).Returns ↔ option.Passes range value.toNat := by
  have htype : option.type = .uint := by rw [ConfigOption.type, hdata]; rfl
  rw [ConfigOption.range, hdata] at hrange
  obtain rfl := Option.some.inj hrange
  rw [ConfigOption.setUint, hdata]
  dsimp only at hstep ⊢
  rw [setNumber_returns_iff, uintRest_eq_zero_iff (by omega), ConfigOption.Passes,
    ConfigOption.distance, htype, UInt32.lt_iff_toNat_lt, UInt32.lt_iff_toNat_lt, not_lt, not_lt,
    Int.ofNat_le, Int.ofNat_le]
  refine and_congr_right fun hle => and_congr_right fun _ => ?_
  rw [UInt32.toNat_sub_of_le _ _ (UInt32.le_iff_toNat_le.2 hle), Int.ofNat_sub hle]

end Checks

/-! ## Calls of process -/

section Process

variable {options : ConfigOptions} {option : ConfigOption} {range : Range ℤ} {name text : String}

lemma set_returns_iff
    {setValue : ConfigOption → Memory → Outcome (ConfigOption × Memory)}
    (hmem : option ∈ options.map) :
    (options.set option.myName setValue).Returns ↔ (setValue option options.memory).Returns := by
  rw [ConfigOptions.set, find_of_mem hmem]
  dsimp only
  cases setValue option options.memory <;> rfl

/-- `process` returns where its branch does. -/
lemma process_returns_iff (hfound : options.findOption name = some option) :
    (options.process name text).Returns ↔ (options.processTyped option text).Returns := by
  rw [process, hfound]
  dsimp only
  split
  next hthrown => rw [hthrown]; rfl
  next => rfl

lemma setConverted_returns_iff {α : Type} {value : Except Thrown α}
    {setValue : α → ConfigOption → Memory → Outcome (ConfigOption × Memory)}
    (hmem : option ∈ options.map) :
    (options.setConverted option.myName value setValue).Returns ↔
      ∃ converted ∈ value.toOption, (setValue converted option options.memory).Returns := by
  cases value with
  | ok converted =>
    refine (set_returns_iff hmem).trans ⟨fun h => ⟨converted, rfl, h⟩, ?_⟩
    rintro ⟨_, hconverted, h⟩
    obtain rfl := Option.some.inj hconverted
    exact h
  | error exception =>
    refine ⟨False.elim, ?_⟩
    rintro ⟨_, hconverted, -⟩
    cases hconverted

/-- **The texts that are accepted** are those of which the number that is read passes the checks. -/
theorem process_returns_iff_passes (hfound : options.findOption name = some option)
    (hrange : option.range = some range) (hstep : 1 ≤ range.step) :
    (options.process name text).Returns ↔ ∃ n ∈ option.read text, option.Passes range n := by
  have hmem := findOption_mem hfound
  rw [process_returns_iff hfound]
  cases hdata : option.valueData with
  | sintData v default sintRange =>
    have htype : option.type = .sint := by rw [ConfigOption.type, hdata]; rfl
    unfold processTyped
    rw [htype, read_of_sint htype]
    dsimp only
    rw [setConverted_returns_iff hmem]
    simp only [setSint_returns_iff hdata hrange hstep, Option.mem_def, Option.map_eq_some_iff,
      exists_exists_and_eq_and]
  | uintData v default uintRange =>
    have htype : option.type = .uint := by rw [ConfigOption.type, hdata]; rfl
    unfold processTyped
    rw [htype, read_of_uint htype]
    dsimp only
    rw [setConverted_returns_iff hmem]
    simp only [setUint_returns_iff hdata hrange hstep, Option.mem_def, Option.map_eq_some_iff,
      exists_exists_and_eq_and]
  | boolData v default => simp [ConfigOption.range, hdata] at hrange
  | stringData v default allowed => simp [ConfigOption.range, hdata] at hrange
  | funData funVal default => simp [ConfigOption.range, hdata] at hrange

/-- What is stored is the number that has been read. -/
theorem value_of_process {after : ConfigOptions} (hfound : options.findOption name = some option)
    (hrange : option.range = some range) (h : options.process name text = .returned after) :
    (option.value after.memory).bind Value.number = option.read text := by
  have hmem := findOption_mem hfound
  have hnumber : option.type ≠ .function ∧
      (option.written text).bind Value.number = option.read text := by
    rw [ConfigOption.range] at hrange
    unfold ConfigOption.written
    split at hrange
    next hdata =>
      have htype : option.type = .sint := by rw [ConfigOption.type, hdata]; rfl
      rw [htype, read_of_sint htype]
      cases toulong text <;> exact ⟨ValueId.noConfusion, rfl⟩
    next hdata =>
      have htype : option.type = .uint := by rw [ConfigOption.type, hdata]; rfl
      rw [htype, read_of_uint htype]
      cases tolong text <;> exact ⟨ValueId.noConfusion, rfl⟩
    next => cases hrange
  have hsets := processTyped_sets text hmem hnumber.1
  have htyped : options.processTyped option text = .returned after := by
    rw [process, hfound] at h
    dsimp only at h
    split at h
    · cases h
    · exact h
  rw [htyped] at hsets
  obtain ⟨v, set, hv, hset, rfl⟩ := hsets
  rw [← hnumber.2, hset, ConfigOption.value, hv, put_memory]
  show Value.number (Function.update options.memory v set v) = Value.number set
  rw [Function.update_self]

/-! ## When the right texts are accepted -/

/-- The texts that are accepted are those that denote an allowed number, and this is stored. -/
def AcceptsExactly (options : ConfigOptions) (option : ConfigOption) (range : Range ℤ)
    (name text : String) : Prop :=
  (∀ after, options.process name text = .returned after → ∃ n, denoted text.toList = some n ∧
    Allows range n ∧ (option.value after.memory).bind Value.number = some n) ∧
  ∀ n, denoted text.toList = some n → Allows range n →
    ∃ after, options.process name text = .returned after ∧
      (option.value after.memory).bind Value.number = some n

/-- No number of 32 bits is taken for another one: the empty text is not read as an allowed 0, a
number that does not fit is not kept as an allowed one, and the step divides the difference to the
minimum, of which only 32 bits are left, if and only if it divides the difference. -/
def ReadsFaithfully (option : ConfigOption) (range : Range ℤ) (text : List Char) : Prop :=
  match denoted text with
  | some n =>
    if option.kept n = n then range.minimum ≤ n → n ≤ range.maximum →
      (range.step ∣ option.distance range.minimum n ↔ range.step ∣ n - range.minimum)
    else ¬ option.Passes range (option.kept n)
  | none => text = [] → ¬ option.Passes range 0

lemma read_eq_of_denoted {n : ℤ} (h : denoted text.toList = some n) :
    option.read text = some (option.kept n) := by
  have hne : text.toList ≠ [] := by
    intro hnil
    rw [hnil] at h
    cases h
  rw [ConfigOption.read, if_neg hne, h]
  rfl

lemma exists_returned {outcome : Outcome ConfigOptions} (h : outcome.Returns) :
    ∃ after, outcome = .returned after := by
  cases outcome with
  | returned after => exact ⟨after, rfl⟩
  | thrown => exact h.elim
  | killed => exact h.elim

/-- The texts are accepted exactly where the number that is read passes as the denoted one
should. -/
lemma acceptsExactly_iff_read (hfound : options.findOption name = some option)
    (hrange : option.range = some range) (hstep : 1 ≤ range.step) :
    AcceptsExactly options option range name text ↔
      ∀ n, option.read text = some n ∧ option.Passes range n ↔
        denoted text.toList = some n ∧ Allows range n := by
  have hreturns : (options.process name text).Returns ↔
      ∃ n ∈ option.read text, option.Passes range n :=
    process_returns_iff_passes hfound hrange hstep
  constructor
  · rintro ⟨hsound, hcomplete⟩ n
    constructor
    · rintro ⟨hread, hpasses⟩
      obtain ⟨after, hafter⟩ := exists_returned (hreturns.2 ⟨n, hread, hpasses⟩)
      obtain ⟨m, hm, hallows, hstored⟩ := hsound after hafter
      rw [value_of_process hfound hrange hafter, hread] at hstored
      obtain rfl := Option.some.inj hstored
      exact ⟨hm, hallows⟩
    · rintro ⟨hn, hallows⟩
      obtain ⟨after, hafter, hstored⟩ := hcomplete n hn hallows
      rw [value_of_process hfound hrange hafter] at hstored
      obtain ⟨m, hread, hpasses⟩ := hreturns.1 (hafter ▸ trivial)
      obtain rfl := Option.some.inj (hread.symm.trans hstored)
      exact ⟨hread, hpasses⟩
  · intro h
    constructor
    · intro after hafter
      obtain ⟨n, hread, hpasses⟩ := hreturns.1 (hafter ▸ trivial)
      obtain ⟨hn, hallows⟩ := (h n).1 ⟨hread, hpasses⟩
      exact ⟨n, hn, hallows, (value_of_process hfound hrange hafter).trans hread⟩
    · intro n hn hallows
      obtain ⟨hread, hpasses⟩ := (h n).2 ⟨hn, hallows⟩
      obtain ⟨after, hafter⟩ := exists_returned (hreturns.2 ⟨n, hread, hpasses⟩)
      exact ⟨after, hafter, (value_of_process hfound hrange hafter).trans hread⟩

/-- An allowed number fits. -/
lemma kept_of_allows {n : ℤ} (hrange : option.range = some range) (h : Allows range n) :
    option.kept n = n := by
  obtain ⟨hlow, hhigh, -⟩ := h
  rw [ConfigOption.range] at hrange
  split at hrange
  next sintVal sintDefault sintRange hdata =>
    have htype : option.type = .sint := by rw [ConfigOption.type, hdata]; rfl
    obtain rfl := Option.some.inj hrange
    have hmin := sintRange.minimum.le_toInt
    have hmax := sintRange.maximum.toInt_lt
    dsimp only at hlow hhigh
    rw [ConfigOption.kept, htype]
    dsimp only
    rw [if_neg (by omega), Int.bmod_def]
    omega
  next uintVal uintDefault uintRange hdata =>
    have htype : option.type = .uint := by rw [ConfigOption.type, hdata]; rfl
    obtain rfl := Option.some.inj hrange
    have hmax := uintRange.maximum.toNat_lt
    dsimp only at hlow hhigh
    rw [ConfigOption.kept, htype]
    dsimp only
    omega
  next => cases hrange

/-- **When an integer option accepts the right texts.** -/
theorem process_acceptsExactly_iff (hfound : options.findOption name = some option)
    (hrange : option.range = some range) (hstep : 1 ≤ range.step) :
    AcceptsExactly options option range name text ↔
      ReadsFaithfully option range text.toList := by
  rw [acceptsExactly_iff_read hfound hrange hstep, ReadsFaithfully]
  cases hdenoted : denoted text.toList with
  | none =>
    have hnone : (∀ n, option.read text = some n ∧ option.Passes range n ↔
        none = some n ∧ Allows range n) ↔
      ∀ n, option.read text = some n → ¬ option.Passes range n := by
      simp
    rw [hnone, ConfigOption.read, hdenoted]
    split_ifs with hnil
    · simp [hnil]
    · simp [hnil]
  | some m =>
    rw [read_eq_of_denoted hdenoted]
    dsimp only
    split_ifs with hkept
    · rw [hkept]
      have hone : (∀ n, some m = some n ∧ option.Passes range n ↔
          some m = some n ∧ Allows range n) ↔ (option.Passes range m ↔ Allows range m) := by
        constructor
        · intro h
          simpa using h m
        · rintro h n
          constructor
          · rintro ⟨hn, hpasses⟩
            obtain rfl := Option.some.inj hn
            exact ⟨rfl, h.1 hpasses⟩
          · rintro ⟨hn, hallows⟩
            obtain rfl := Option.some.inj hn
            exact ⟨rfl, h.2 hallows⟩
      rw [hone, ConfigOption.Passes, Allows, and_congr_right_iff]
      exact forall_congr' fun _ => and_congr_right_iff
    · constructor
      · intro h hpasses
        exact hkept (Option.some.inj ((h _).1 ⟨rfl, hpasses⟩).1).symm
      · intro h n
        constructor
        · rintro ⟨hn, hpasses⟩
          obtain rfl := Option.some.inj hn
          exact absurd hpasses h
        · rintro ⟨hn, hallows⟩
          obtain rfl := Option.some.inj hn
          exact absurd (kept_of_allows hrange hallows) hkept

/-- A level from -10 to 10. -/
def level : ConfigOption := ⟨"level", .sintData 0 0 ⟨-10, 10, 1⟩, false⟩

def levelOptions : ConfigOptions where
  map := [level]
  synMap := []
  memory := fun _ => .sint 0
  ordered := List.pairwise_singleton _ _

theorem process_acceptsExactly_level :
    AcceptsExactly levelOptions level ⟨-10, 10, 1⟩ "level" "-7" := by
  have hn : denoted "-7".toList = some (-7) := by decide
  refine (process_acceptsExactly_iff rfl rfl (by decide)).2 ?_
  rw [ReadsFaithfully, hn]
  exact show _ → _ → _ from fun _ _ => by decide

/-- The greatest number of 32 bits is read as -1. -/
theorem not_process_acceptsExactly :
    ¬ ∀ (options : ConfigOptions) (option : ConfigOption) (range : Range ℤ) (name text : String),
      options.findOption name = some option → option.range = some range → 1 ≤ range.step →
        AcceptsExactly options option range name text := by
  intro h
  have hexact := h levelOptions level ⟨-10, 10, 1⟩ "level" "4294967295" rfl rfl (by decide)
  have hfaithful := (process_acceptsExactly_iff rfl rfl (by decide)).1 hexact
  have hn : denoted "4294967295".toList = some 4294967295 := by decide
  rw [ReadsFaithfully, hn] at hfaithful
  dsimp only at hfaithful
  rw [if_neg (by decide)] at hfaithful
  exact hfaithful ⟨by decide, by decide, by decide⟩

end Process

end Khomp
