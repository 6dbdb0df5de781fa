import Mathlib.Data.Int.Basic

/-!
# Numerals

Decimal numerals, with or without a sign, as the number parsers of most languages read them.

A check of all characters of a text is decided on the text, not by running over all characters.
-/

namespace Numeral

instance (priority := high) decidableForallMem {α : Type} (text : List α) (P : α → Prop)
    [DecidablePred P] : Decidable (∀ a ∈ text, P a) :=
  List.decidableBAll P text

def decimal (digits : List Char) : Option ℕ :=
  if !digits.isEmpty && digits.all Char.isDigit then
    some (digits.foldl (fun n d => 10 * n + (d.toNat - '0'.toNat)) 0)
  else
    none

def signedDecimal : List Char → Option ℤ
  | '-' :: digits => (decimal digits).map fun n : ℕ => -(n : ℤ)
  | '+' :: digits => (decimal digits).map fun n : ℕ => (n : ℤ)
  | digits => (decimal digits).map fun n : ℕ => (n : ℤ)

/-- The digits of a number, with a sign if it is negative. -/
def ofInt : ℤ → List Char
  | .ofNat n => Nat.toDigits 10 n
  | .negSucc n => '-' :: Nat.toDigits 10 (n + 1)

variable {text : List Char} {n : ℕ}

lemma isDigit_of_decimal (h : decimal text = some n) : ∀ c ∈ text, c.isDigit = true := by
  rw [decimal] at h
  split_ifs at h with hall
  rw [Bool.and_eq_true, List.all_eq_true] at hall
  exact hall.2

lemma ne_nil_of_decimal (h : decimal text = some n) : text ≠ [] := by
  rintro rfl
  simp [decimal] at h

/-- A numeral without a sign is a numeral. -/
lemma signedDecimal_of_decimal (h : decimal text = some n) : signedDecimal text = some (n : ℤ) := by
  have hdigits := isDigit_of_decimal h
  rw [signedDecimal.eq_def]
  split
  · simp [Char.isDigit] at hdigits
  · simp [Char.isDigit] at hdigits
  · rw [h]
    rfl

lemma isDigit_or_of_mem_ofInt {m : ℤ} {c : Char} (h : c ∈ ofInt m) :
    c.isDigit = true ∨ c = '-' := by
  cases m with
  | ofNat n => exact Or.inl (Nat.isDigit_of_mem_toDigits (by decide) (by decide) h)
  | negSucc n =>
    rcases List.mem_cons.mp h with h | h
    · exact Or.inr h
    · exact Or.inl (Nat.isDigit_of_mem_toDigits (by decide) (by decide) h)

/-- There is one sign at most. -/
lemma count_ofInt (m : ℤ) : (ofInt m).count '-' ≤ 1 := by
  have hdigits (n : ℕ) : (Nat.toDigits 10 n).count '-' = 0 := by
    refine List.count_eq_zero_of_not_mem fun h => ?_
    have hdigit := Nat.isDigit_of_mem_toDigits (by decide) (by decide) h
    cases hdigit
  cases m with
  | ofNat n =>
    rw [ofInt, hdigits]
    exact Nat.zero_le 1
  | negSucc n => rw [ofInt, List.count_cons_self, hdigits]

end Numeral
