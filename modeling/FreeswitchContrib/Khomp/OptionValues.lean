import FreeswitchContrib.Khomp.NumericOptions
import Mathlib.Data.Nat.Digits.Defs
import Mathlib.Logic.Function.Iterate

/-!
# The values of an option

`values` lists what an option allows in an array that ends with a null pointer.  For an integer
option the size of the array is computed in one expression and the loop runs over the numbers, both
in 32 bits.

* `valuesLoop_eq_iff` — when the loop writes these texts, and no other number.
* `size_sint_iff` — when the size of a signed option's array is right.
* **`values_listsRange_iff`** — when the array has the numbers of the range and nothing more.
-/

namespace Khomp

/-! ## The source -/

/-- What `values` leaves: an array of so many places and what is written into it, a write outside of
the array, or a division that ends the program. -/
inductive Listing
  | array (size : ℕ) (entries : List (Option String))
  | overrun
  | killed
  deriving DecidableEq

/-- The loop over the numbers, and the null pointer behind the last text. -/
def valuesLoop {number : Type} [Add number] [LE number] [DecidableLE number]
    (format : number → String) (maximum step : number) (size : ℕ) (i : number) (index : ℕ)
    (written : List (Option String)) : Listing :=
  if i ≤ maximum then
    if index < size then
      valuesLoop format maximum step size (i + step) (index + 1) (written ++ [some (format i)])
    else .overrun
  else if index < size then .array size (written ++ [none])
  else .overrun
  termination_by size - index

/-- `((maximum - minimum) / step) + 1`, where that is no division that traps. -/
def sintCount (range : Range Int32) : Option UInt32 :=
  let difference := range.maximum - range.minimum
  if range.step = 0 ∨ (difference = Int32.minValue ∧ range.step = -1) then none
  else some (difference / range.step + 1).toUInt32

def uintCount (range : Range UInt32) : Option UInt32 :=
  if range.step = 0 then none else some ((range.maximum - range.minimum) / range.step + 1)

/-- An array with `count + 1` places for the numbers of a range. -/
def listNumbers {number : Type} [Add number] [LE number] [DecidableLE number]
    (format : number → String) (range : Range number) (count : Option UInt32) : Listing :=
  match count with
  | none => .killed
  | some count => valuesLoop format range.maximum range.step (count + 1).toNat range.minimum 0 []

/-- An array for these texts. -/
def listTexts (texts : List String) : Listing :=
  .array (texts.length + 1) (texts.map some ++ [none])

/-- `values` of an option for which it has not been called before; `funAllowed` is what a function
option allows. -/
def ConfigOption.values (option : ConfigOption) (funAllowed : List String) : Listing :=
  match option.valueData with
  | .boolData _ _ => listTexts ["yes", "no"]
  | .sintData _ _ sintRange => listNumbers ConfigOption.formatSint sintRange (sintCount sintRange)
  | .uintData _ _ uintRange => listNumbers ConfigOption.formatUint uintRange (uintCount uintRange)
  | .stringData _ _ stringAllowed => listTexts stringAllowed
  | .funData _ _ => listTexts funAllowed

/-! ## What an array should have -/

namespace Range

variable (range : Range ℤ)

/-- How many numbers the range has. -/
def count : ℕ := ((range.maximum - range.minimum) / range.step).toNat + 1

/-- The number in this place. -/
def number (j : ℕ) : ℤ := range.minimum + j * range.step

/-- The decimal texts of the numbers, and a null pointer. -/
def entries : List (Option String) :=
  (List.range range.count).map (fun j => some (toString (range.number j))) ++ [none]

end Range

/-- The array has room for the numbers of the range and the null pointer, and that is what it
has. -/
def ConfigOption.ListsRange (option : ConfigOption) (range : Range ℤ) : Prop :=
  option.values [] = .array (range.count + 1) range.entries

/-! ## The loop -/

section Loop

variable {number : Type} [Add number] [LE number] [DecidableLE number] {format : number → String}
  {maximum step i : number} {size index n : ℕ} {written entries : List (Option String)}

/-- What is written stays. -/
lemma valuesLoop_leads {s : ℕ}
    (h : valuesLoop format maximum step size i index written = .array s entries) :
    written <+: entries ∧ s = size := by
  fun_induction valuesLoop with
  | case1 i index written hle hlt ih =>
    obtain ⟨hleads, hs⟩ := ih h
    exact ⟨(List.prefix_append _ _).trans hleads, hs⟩
  | case2 => cases h
  | case3 =>
    cases h
    exact ⟨List.prefix_append _ _, rfl⟩
  | case4 => cases h

/-- The first turns. -/
lemma valuesLoop_steps (hle : ∀ j < n, (· + step)^[j] i ≤ maximum) (hsize : index + n ≤ size) :
    valuesLoop format maximum step size i index written =
      valuesLoop format maximum step size ((· + step)^[n] i) (index + n)
        (written ++ (List.range n).map fun j => some (format ((· + step)^[j] i))) := by
  induction n with
  | zero => simp
  | succ n ih =>
    rw [ih (fun j hj => hle j (Nat.lt_succ_of_lt hj)) (by omega), valuesLoop,
      if_pos (hle n (Nat.lt_succ_self n)), if_pos (by omega), Function.iterate_succ_apply',
      List.range_succ, List.map_append, List.append_assoc]
    rfl

/-- **When the loop writes these texts and no more.** -/
theorem valuesLoop_eq_iff {text : ℕ → String} (hle : ∀ j < n, (· + step)^[j] i ≤ maximum) :
    valuesLoop format maximum step size i 0 [] =
        .array (n + 1) ((List.range n).map (fun j => some (text j)) ++ [none]) ↔
      size = n + 1 ∧ ¬ (· + step)^[n] i ≤ maximum ∧
        ∀ j < n, format ((· + step)^[j] i) = text j := by
  constructor
  · intro h
    obtain rfl := (valuesLoop_leads h).2
    rw [valuesLoop_steps hle (by omega), Nat.zero_add, List.nil_append] at h
    have hnot : ¬ (· + step)^[n] i ≤ maximum := by
      intro hmore
      rw [valuesLoop, if_pos hmore, if_pos (Nat.lt_succ_self n)] at h
      -- a text stands where the null pointer should
      obtain ⟨rest, hrest⟩ := (valuesLoop_leads h).1
      have hat := congrArg (·[n]?) hrest
      simp at hat
    rw [valuesLoop, if_neg hnot, if_pos (Nat.lt_succ_self n)] at h
    refine ⟨rfl, hnot, fun j hj => ?_⟩
    have htexts := List.append_cancel_right (Listing.array.inj h).2
    have hat := congrArg (·[j]?) htexts
    simpa [hj] using hat
  · rintro ⟨rfl, hnot, htexts⟩
    rw [valuesLoop_steps hle (by omega), Nat.zero_add, List.nil_append, valuesLoop, if_neg hnot,
      if_pos (Nat.lt_succ_self n)]
    have hmap : (List.range n).map (fun j => some (format ((· + step)^[j] i))) =
        (List.range n).map fun j => some (text j) :=
      List.map_congr_left fun j hj => congrArg some (htexts j (List.mem_range.1 hj))
    rw [hmap]

omit [LE number] [DecidableLE number] in
/-- The number in the loop, as long as no sum is too great. -/
lemma iterate_value (value : number → ℤ) (greatest : ℤ) (hstep : 0 ≤ value step)
    (hadd : ∀ a, value a + value step ≤ greatest → value (a + step) = value a + value step)
    (hn : value i + n * value step ≤ greatest) :
    value ((· + step)^[n] i) = value i + n * value step := by
  induction n with
  | zero => simp
  | succ n ih =>
    push_cast at hn
    rw [Int.add_mul, Int.one_mul] at hn
    have hi := ih (by omega)
    rw [Function.iterate_succ_apply', hadd _ (by omega), hi]
    push_cast
    rw [Int.add_mul, Int.one_mul, Int.add_assoc]

end Loop

/-! ## The numbers of a range -/

namespace Range

variable {range : Range ℤ} {j : ℕ}

variable (range j) in
lemma number_succ : range.number (j + 1) = range.number j + range.step := by
  rw [number, number]
  push_cast
  rw [Int.add_mul, Int.one_mul, Int.add_assoc]

lemma number_mono {k : ℕ} (hstep : 0 ≤ range.step) (hjk : j ≤ k) :
    range.number j ≤ range.number k := by
  have hmul : (j : ℤ) * range.step ≤ k * range.step :=
    Int.mul_le_mul_of_nonneg_right (Int.ofNat_le.2 hjk) hstep
  rw [number, number]
  omega

lemma number_le (hle : range.minimum ≤ range.maximum) (hstep : 1 ≤ range.step)
    (hj : j < range.count) : range.number j ≤ range.maximum := by
  have hnonneg : 0 ≤ (range.maximum - range.minimum) / range.step :=
    Int.ediv_nonneg (by omega) (by omega)
  have hquotient : (j : ℤ) ≤ (range.maximum - range.minimum) / range.step := by
    rw [count] at hj
    omega
  have hmul := (Int.le_ediv_iff_mul_le (by omega)).1 hquotient
  rw [number]
  omega

lemma lt_number_count (hle : range.minimum ≤ range.maximum) (hstep : 1 ≤ range.step) :
    range.maximum < range.number range.count := by
  have hnonneg : 0 ≤ (range.maximum - range.minimum) / range.step :=
    Int.ediv_nonneg (by omega) (by omega)
  have hlt := Int.lt_ediv_add_one_mul_self (range.maximum - range.minimum)
    (show 0 < range.step by omega)
  rw [number, count]
  push_cast
  rw [Int.toNat_of_nonneg hnonneg]
  omega

/-- The loop ends behind the last number, unless the sum is too great and wraps around to one that
is not. -/
lemma not_le_iterate_iff {β : Type} [Add β] (value : β → ℤ) {i step : β}
    {greatest : ℤ} (hle : range.minimum ≤ range.maximum) (hstep : 1 ≤ range.step)
    (hmax : range.maximum ≤ greatest)
    (hvalue : ∀ j, range.number j ≤ greatest → value ((· + step)^[j] i) = range.number j)
    (hwrap : ∀ a, value a ≤ range.maximum → greatest < value a + range.step →
      value (a + step) ≤ range.maximum) :
    ¬ value ((· + step)^[range.count] i) ≤ range.maximum ↔
      range.number range.count ≤ greatest := by
  constructor
  · intro hbehind
    by_contra hgreat
    obtain ⟨m, hm⟩ : ∃ m, range.count = m + 1 := ⟨_, rfl⟩
    have hbefore := number_le hle hstep (j := m) (by omega)
    have hiterate := hvalue m (by omega)
    have hsum := number_succ range m
    rw [hm, Function.iterate_succ_apply'] at hbehind
    rw [hm] at hgreat
    exact hbehind (hwrap _ (by omega) (by omega))
  · intro hfits
    rw [hvalue _ hfits]
    exact Int.not_le.mpr (lt_number_count hle hstep)

end Range

/-! ## Signed options -/

section Signed

variable {r : Range Int32} {range : Range ℤ} {j : ℕ}

/-- The range with integers for its numbers. -/
def Range.ofSint (r : Range Int32) : Range ℤ := ⟨r.minimum.toInt, r.maximum.toInt, r.step.toInt⟩

lemma iterate_sint (hstep : 1 ≤ (Range.ofSint r).step) (hj : (Range.ofSint r).number j < 2 ^ 31) :
    ((· + r.step)^[j] r.minimum).toInt = (Range.ofSint r).number j := by
  refine iterate_value Int32.toInt (2 ^ 31 - 1) ?_ ?_ ?_
  · exact Int.le_trans (by decide) hstep
  · intro a ha
    have hlow := a.le_toInt
    have hpos : 1 ≤ r.step.toInt := hstep
    rw [Int32.toInt_add, Int.bmod_def]
    omega
  · exact Int.le_sub_one_of_lt hj

lemma not_le_iterate_sint (hle : (Range.ofSint r).minimum ≤ (Range.ofSint r).maximum)
    (hstep : 1 ≤ (Range.ofSint r).step) :
    ¬ (· + r.step)^[(Range.ofSint r).count] r.minimum ≤ r.maximum ↔
      (Range.ofSint r).number (Range.ofSint r).count < 2 ^ 31 := by
  have hmax : (Range.ofSint r).maximum ≤ 2 ^ 31 - 1 := Int.le_sub_one_of_lt r.maximum.toInt_lt
  have hiff := Range.not_le_iterate_iff Int32.toInt hle hstep hmax
    (fun j hj => iterate_sint hstep (Int.lt_of_le_sub_one hj)) fun a ha hgreat => by
      have hmaximum : (Range.ofSint r).maximum = r.maximum.toInt := rfl
      have hstepeq : (Range.ofSint r).step = r.step.toInt := rfl
      have hlow := r.maximum.le_toInt
      have hsteplt := r.step.toInt_lt
      rw [Int32.toInt_add, Int.bmod_def]
      omega
  rw [Int32.le_iff_toInt_le]
  exact hiff.trans Int.le_sub_one_iff

lemma sintCount_eq (hstep : 1 ≤ (Range.ofSint r).step) :
    sintCount r = some ((r.maximum - r.minimum) / r.step + 1).toUInt32 := by
  have hpos : 1 ≤ r.step.toInt := hstep
  have hzero : r.step ≠ 0 := by
    intro hzero
    rw [hzero] at hpos
    exact absurd hpos (by decide)
  have hminus : r.step ≠ -1 := by
    intro hminus
    rw [hminus] at hpos
    exact absurd hpos (by decide)
  rw [sintCount, if_neg (by tauto)]

lemma toNat_toUInt32 (x : Int32) : (x.toUInt32.toNat : ℤ) = x.toInt % 2 ^ 32 := by
  have hcond := BitVec.toInt_eq_toNat_cond x.toBitVec
  have hlt := x.toUInt32.toNat_lt
  rw [Int32.toInt_toBitVec, Int32.toNat_toBitVec] at hcond
  split_ifs at hcond <;> omega

/-- The size of the array, for which the differences and sums wrap around. -/
lemma size_sint :
    ((((r.maximum - r.minimum) / r.step + 1).toUInt32 + 1).toNat : ℤ) =
      (((r.maximum.toInt - r.minimum.toInt).bmod (2 ^ 32)).tdiv r.step.toInt + 2) % 2 ^ 32 := by
  rw [UInt32.toNat_add, Int.natCast_emod, Int.natCast_add, toNat_toUInt32, Int32.toInt_add,
    Int32.toInt_div, Int32.toInt_sub]
  generalize ((r.maximum.toInt - r.minimum.toInt).bmod (2 ^ 32)).tdiv r.step.toInt = quotient
  have hone : (1 : Int32).toInt = 1 := rfl
  have hone' : ((1 : UInt32).toNat : ℤ) = 1 := rfl
  rw [hone, hone', Int.bmod_def, Int.bmod_def]
  omega

/-- When the size is right for `difference / step + 1` numbers and a null pointer. -/
lemma size_iff (difference step : ℤ) (hlow : 0 ≤ difference) (hhigh : difference < 2 ^ 32)
    (hstep : 1 ≤ step) (hstep' : step < 2 ^ 31) :
    ((difference.bmod (2 ^ 32)).tdiv step + 2) % 2 ^ 32 = difference / step + 2 ↔
      difference < 2 ^ 31 ∨ step = 1 ∧ difference + 2 < 2 ^ 32 := by
  have hquotient : 0 ≤ difference / step := Int.ediv_nonneg hlow (by omega)
  by_cases hshort : difference < 2 ^ 31
  · have hle : difference / step ≤ difference := Int.ediv_le_self step hlow
    have hbmod : difference.bmod (2 ^ 32) = difference := by
      rw [Int.bmod_def]
      omega
    rw [hbmod, Int.tdiv_eq_ediv_of_nonneg hlow]
    refine iff_of_true ?_ (Or.inl hshort)
    omega
  · have hbmod : difference.bmod (2 ^ 32) = -(2 ^ 32 - difference) := by
      rw [Int.bmod_def]
      omega
    rw [hbmod, Int.neg_tdiv, Int.tdiv_eq_ediv_of_nonneg (by omega)]
    rcases eq_or_lt_of_le hstep with rfl | htwo
    · rw [Int.ediv_one, Int.ediv_one]
      omega
    · -- two quotients by at least 2 do not make up 2³²
      refine iff_of_false ?_ (by omega)
      have hfirst : difference / step * 2 ≤ difference :=
        le_trans (Int.mul_le_mul_of_nonneg_left (by omega) hquotient)
          (Int.ediv_mul_le difference (by omega))
      have hrest : 0 ≤ (2 ^ 32 - difference) / step := Int.ediv_nonneg (by omega) (by omega)
      have hsecond : (2 ^ 32 - difference) / step * 2 ≤ 2 ^ 32 - difference :=
        le_trans (Int.mul_le_mul_of_nonneg_left (by omega) hrest)
          (Int.ediv_mul_le (2 ^ 32 - difference) (by omega))
      have hpos : 1 ≤ difference / step := by
        rw [Int.le_ediv_iff_mul_le (by omega)]
        omega
      omega

/-- **A signed option** lists its range if no sum wraps around and the size is right. -/
theorem listNumbers_sint_iff (hle : (Range.ofSint r).minimum ≤ (Range.ofSint r).maximum)
    (hstep : 1 ≤ (Range.ofSint r).step) :
    listNumbers ConfigOption.formatSint r (sintCount r) =
        .array ((Range.ofSint r).count + 1) (Range.ofSint r).entries ↔
      (Range.ofSint r).number (Range.ofSint r).count < 2 ^ 31 ∧
        ((Range.ofSint r).maximum - (Range.ofSint r).minimum < 2 ^ 31 ∨
          (Range.ofSint r).step = 1 ∧
            (Range.ofSint r).maximum - (Range.ofSint r).minimum + 2 < 2 ^ 32) := by
  have hmin := r.minimum.le_toInt
  have hmax := r.maximum.toInt_lt
  have hle' : r.minimum.toInt ≤ r.maximum.toInt := hle
  have hvalue : ∀ j < (Range.ofSint r).count,
      ((· + r.step)^[j] r.minimum).toInt = (Range.ofSint r).number j := fun j hj =>
    iterate_sint hstep (Int.lt_of_le_of_lt (Range.number_le hle hstep hj) hmax)
  have hinside : ∀ j < (Range.ofSint r).count, (· + r.step)^[j] r.minimum ≤ r.maximum := by
    intro j hj
    rw [Int32.le_iff_toInt_le, hvalue j hj]
    exact Range.number_le hle hstep hj
  have htexts : ∀ j < (Range.ofSint r).count,
      ConfigOption.formatSint ((· + r.step)^[j] r.minimum) =
        toString ((Range.ofSint r).number j) := by
    intro j hj
    rw [← hvalue j hj]
    rfl
  have hnonneg : 0 ≤ (r.maximum.toInt - r.minimum.toInt) / r.step.toInt :=
    Int.ediv_nonneg (by omega) (Int.le_trans (by decide) hstep)
  have hsize := size_iff (r.maximum.toInt - r.minimum.toInt) r.step.toInt (by omega)
    (by omega) hstep r.step.toInt_lt
  rw [sintCount_eq hstep, listNumbers, Range.entries, valuesLoop_eq_iff hinside,
    not_le_iterate_sint hle hstep, and_iff_left htexts, and_comm]
  refine and_congr_right fun _ => Iff.trans ?_ hsize
  rw [← size_sint, ← Int.natCast_inj, Range.count]
  have hcount : (((Range.ofSint r).maximum - (Range.ofSint r).minimum) /
      (Range.ofSint r).step).toNat = (r.maximum.toInt - r.minimum.toInt) / r.step.toInt :=
    Int.toNat_of_nonneg hnonneg
  push_cast
  rw [hcount, Int.add_assoc]
  rfl

end Signed

/-! ## Unsigned options -/

section Unsigned

variable {r : Range UInt32} {j : ℕ}

def Range.ofUint (r : Range UInt32) : Range ℤ := ⟨r.minimum.toNat, r.maximum.toNat, r.step.toNat⟩

lemma iterate_uint (hj : (Range.ofUint r).number j < 2 ^ 32) :
    (((· + r.step)^[j] r.minimum).toNat : ℤ) = (Range.ofUint r).number j := by
  refine iterate_value (fun a : UInt32 => (a.toNat : ℤ)) (2 ^ 32 - 1)
    (Int.natCast_nonneg _) ?_ (Int.le_sub_one_of_lt hj)
  intro a ha
  rw [UInt32.toNat_add, Nat.mod_eq_of_lt (by omega), Int.natCast_add]

lemma not_le_iterate_uint (hle : (Range.ofUint r).minimum ≤ (Range.ofUint r).maximum)
    (hstep : 1 ≤ (Range.ofUint r).step) :
    ¬ (· + r.step)^[(Range.ofUint r).count] r.minimum ≤ r.maximum ↔
      (Range.ofUint r).number (Range.ofUint r).count < 2 ^ 32 := by
  have hmaximum : (Range.ofUint r).maximum = r.maximum.toNat := rfl
  have hlt := r.maximum.toNat_lt
  have hiff := Range.not_le_iterate_iff (fun a : UInt32 => (a.toNat : ℤ)) hle hstep
    (show (Range.ofUint r).maximum ≤ 2 ^ 32 - 1 by omega)
    (fun j hj => iterate_uint (Int.lt_of_le_sub_one hj)) fun a ha hgreat => by
      have hstepeq : (Range.ofUint r).step = r.step.toNat := rfl
      have hsteplt := r.step.toNat_lt
      rw [UInt32.toNat_add]
      omega
  rw [UInt32.le_iff_toNat_le, ← Int.ofNat_le]
  exact hiff.trans Int.le_sub_one_iff

/-- A negative number does not look like one that is not. -/
lemma toString_ne {a b : ℤ} (ha : a < 0) (hb : 0 ≤ b) : toString a ≠ toString b := by
  obtain ⟨n, rfl⟩ := Int.eq_negSucc_of_lt_zero ha
  obtain ⟨m, rfl⟩ := Int.eq_ofNat_of_zero_le hb
  intro h
  have hminus : '-' ∈ (toString m).toList := by
    have hlist : ("-" ++ toString (n + 1)).toList = (toString m).toList := congrArg String.toList h
    rw [← hlist]
    simp
  have hdigits : (toString m).toList = Nat.toDigits 10 m := by
    simp [toString, Nat.repr]
  rw [hdigits] at hminus
  exact absurd (Nat.isDigit_of_mem_toDigits (by decide) (by decide) hminus) (by decide)

/-- `%d` writes a number as it is if it fits into an `int`. -/
lemma formatUint_iff (value : UInt32) :
    ConfigOption.formatUint value = toString (value.toNat : ℤ) ↔ value.toNat < 2 ^ 31 := by
  have hlt := value.toNat_lt
  have hint : value.toInt32.toInt = (value.toNat : ℤ).bmod (2 ^ 32) :=
    BitVec.toInt_eq_toNat_bmod value.toBitVec
  have hformat : ConfigOption.formatUint value = toString ((value.toNat : ℤ).bmod (2 ^ 32)) := by
    rw [← hint]
    rfl
  rw [hformat]
  constructor
  · intro h
    by_contra hgreat
    exact toString_ne (by rw [Int.bmod_def]; omega) (Int.natCast_nonneg _) h
  · intro hsmall
    have hbmod : (value.toNat : ℤ).bmod (2 ^ 32) = value.toNat := by
      rw [Int.bmod_def]
      omega
    rw [hbmod]

/-- **An unsigned option** lists its range if its numbers fit into an `int` and no sum wraps
around. -/
theorem listNumbers_uint_iff (hle : (Range.ofUint r).minimum ≤ (Range.ofUint r).maximum)
    (hstep : 1 ≤ (Range.ofUint r).step) :
    listNumbers ConfigOption.formatUint r (uintCount r) =
        .array ((Range.ofUint r).count + 1) (Range.ofUint r).entries ↔
      (Range.ofUint r).number ((Range.ofUint r).count - 1) < 2 ^ 31 ∧
        (Range.ofUint r).number (Range.ofUint r).count < 2 ^ 32 := by
  have hmax := r.maximum.toNat_lt
  have hpos : 1 ≤ (r.step.toNat : ℤ) := hstep
  have hle' : (r.minimum.toNat : ℤ) ≤ r.maximum.toNat := hle
  have hvalue : ∀ j < (Range.ofUint r).count,
      (((· + r.step)^[j] r.minimum).toNat : ℤ) = (Range.ofUint r).number j := by
    intro j hj
    have hbound := Range.number_le hle hstep hj
    have hmaximum : (Range.ofUint r).maximum = r.maximum.toNat := rfl
    exact iterate_uint (by omega)
  have hinside : ∀ j < (Range.ofUint r).count, (· + r.step)^[j] r.minimum ≤ r.maximum := by
    intro j hj
    have hbound := Range.number_le hle hstep hj
    have hmaximum : (Range.ofUint r).maximum = r.maximum.toNat := rfl
    have hj' := hvalue j hj
    rw [UInt32.le_iff_toNat_le]
    omega
  have htexts : (∀ j < (Range.ofUint r).count,
      ConfigOption.formatUint ((· + r.step)^[j] r.minimum) =
        toString ((Range.ofUint r).number j)) ↔
      (Range.ofUint r).number ((Range.ofUint r).count - 1) < 2 ^ 31 := by
    constructor
    · intro h
      have hlast : (Range.ofUint r).count - 1 < (Range.ofUint r).count :=
        Nat.sub_lt (Nat.succ_pos _) Nat.one_pos
      have hfits := h _ hlast
      rw [← hvalue _ hlast, formatUint_iff] at hfits
      rw [← hvalue _ hlast]
      omega
    · intro hlast j hj
      have hbound : (Range.ofUint r).number j ≤
          (Range.ofUint r).number ((Range.ofUint r).count - 1) :=
        Range.number_mono (Int.le_trans (by decide) hstep) (by omega)
      have hj' := hvalue j hj
      rw [← hj', formatUint_iff]
      omega
  have hsize : (Range.ofUint r).number ((Range.ofUint r).count - 1) < 2 ^ 31 →
      ((r.maximum - r.minimum) / r.step + 1 + 1).toNat = (Range.ofUint r).count + 1 := by
    intro hlast
    have hdifference : ((r.maximum - r.minimum).toNat : ℤ) =
        (Range.ofUint r).maximum - (Range.ofUint r).minimum := by
      rw [UInt32.toNat_sub_of_le _ _ (UInt32.le_iff_toNat_le.2 (Int.ofNat_le.1 hle')),
        Int.ofNat_sub (Int.ofNat_le.1 hle')]
      rfl
    have hquotient : (Range.ofUint r).count - 1 = (r.maximum - r.minimum).toNat / r.step.toNat := by
      rw [Range.count, Nat.add_sub_cancel, ← hdifference]
      exact congrArg Int.toNat (Int.natCast_ediv _ _).symm
    have hle_mul : ((Range.ofUint r).count - 1 : ℕ) * 1 ≤
        (((Range.ofUint r).count - 1 : ℕ) : ℤ) * r.step.toNat :=
      Int.mul_le_mul_of_nonneg_left hpos (Int.natCast_nonneg _)
    have hcount : (Range.ofUint r).count = (Range.ofUint r).count - 1 + 1 := rfl
    have hone : (1 : UInt32).toNat = 1 := rfl
    have hminimum : (Range.ofUint r).minimum = r.minimum.toNat := rfl
    have hstepeq : (Range.ofUint r).step = r.step.toNat := rfl
    rw [Range.number, hminimum, hstepeq] at hlast
    rw [UInt32.toNat_add, UInt32.toNat_add, UInt32.toNat_div, hone, ← hquotient]
    omega
  have hcount : uintCount r = some ((r.maximum - r.minimum) / r.step + 1) := by
    rw [uintCount, if_neg]
    intro hzero
    rw [hzero] at hpos
    exact absurd hpos (by decide)
  rw [hcount, listNumbers, Range.entries, valuesLoop_eq_iff hinside,
    not_le_iterate_uint hle hstep, htexts]
  exact ⟨fun h => ⟨h.2.2, h.2.1⟩, fun h => ⟨hsize h.1, h.2, h.1⟩⟩

end Unsigned

/-! ## When an integer option lists its range -/

/-- No number that is listed or added up is too great for its type, and no wrong size is computed
from a difference that is. -/
def ConfigOption.ListsRightly (option : ConfigOption) (range : Range ℤ) : Prop :=
  match option.type with
  | .sint => range.number range.count < 2 ^ 31 ∧
      (range.maximum - range.minimum < 2 ^ 31 ∨
        range.step = 1 ∧ range.maximum - range.minimum + 2 < 2 ^ 32)
  | _ => range.number (range.count - 1) < 2 ^ 31 ∧ range.number range.count < 2 ^ 32

/-- **When the array has the numbers of the range** and nothing more. -/
theorem values_listsRange_iff {option : ConfigOption} {range : Range ℤ}
    (hrange : option.range = some range) (hle : range.minimum ≤ range.maximum)
    (hstep : 1 ≤ range.step) : option.ListsRange range ↔ option.ListsRightly range := by
  rw [ConfigOption.range] at hrange
  rw [ConfigOption.ListsRange, ConfigOption.values, ConfigOption.ListsRightly]
  split at hrange
  next sintVal sintDefault sintRange hdata =>
    have htype : option.type = .sint := by rw [ConfigOption.type, hdata]; rfl
    obtain rfl := Option.some.inj hrange
    rw [hdata, htype]
    exact listNumbers_sint_iff hle hstep
  next uintVal uintDefault uintRange hdata =>
    have htype : option.type = .uint := by rw [ConfigOption.type, hdata]; rfl
    obtain rfl := Option.some.inj hrange
    rw [hdata, htype]
    exact listNumbers_uint_iff hle hstep
  next => cases hrange

/-- Every second number from 0 to 30. -/
def evenPorts : ConfigOption := ⟨"ports", .sintData 0 4 ⟨0, 30, 2⟩, false⟩

theorem values_listsRange_ports : evenPorts.ListsRange ⟨0, 30, 2⟩ :=
  (values_listsRange_iff rfl (by decide) (by decide)).2
    (by exact show _ < _ ∧ _ from ⟨by decide, Or.inl (by decide)⟩)

/-- The numbers from 0 to the greatest one there is: the sum behind the last one wraps around. -/
theorem not_values_listsRange :
    ¬ ∀ (option : ConfigOption) (range : Range ℤ), option.range = some range →
      range.minimum ≤ range.maximum → 1 ≤ range.step → option.ListsRange range := by
  intro h
  have hlists := h ⟨"all", .sintData 0 0 ⟨-2147483647, 2147483647, 1⟩, false⟩ _ rfl (by decide)
    (by decide)
  have hrightly := (values_listsRange_iff rfl (by decide) (by decide)).1 hlists
  exact absurd hrightly.1 (by decide)

end Khomp
