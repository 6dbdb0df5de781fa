import Mathlib.Data.List.Basic
import Mathlib.Data.List.Flatten
import Mathlib.Algebra.Order.Ring.Int
import Mathlib.Tactic.Common

/-!
# Two texts with surplus marks

Two texts are put together from the same pieces, but behind a piece one of them may have more of a
certain mark than the other.  They are nevertheless equal if the surplus is made up for before
anything but marks comes.

* `Part` — a piece that both texts have, with the surplus of the left one behind it.
* `Balanced` — wherever the surplus so far is not zero, the next piece is made of marks.
* **`left_eq_right_iff`** — the texts are equal exactly then.
-/

namespace Surplus

variable {α : Type} {mark : α} {m n : ℕ} {b : ℤ} {s t : List α}

structure Part (α : Type) where
  kept : List α
  /-- how many marks more the left text has behind it, or the right one if this is negative -/
  surplus : ℤ

/-- So many marks, and none for a negative number. -/
def marks (mark : α) (n : ℤ) : List α := List.replicate n.toNat mark

def left (mark : α) (parts : List (Part α)) : List α :=
  parts.flatMap fun part => part.kept ++ marks mark part.surplus

def right (mark : α) (parts : List (Part α)) : List α :=
  parts.flatMap fun part => part.kept ++ marks mark (-part.surplus)

/-- From this surplus on, a piece that is not made of marks comes only where there is none, and in
the end there is none. -/
def Balanced (mark : α) : ℤ → List (Part α) → Prop
  | b, [] => b = 0
  | b, part :: parts =>
    (b = 0 ∨ ∀ a ∈ part.kept, a = mark) ∧ Balanced mark (b + part.surplus) parts

lemma balanced_of_forall {parts : List (Part α)} (h : ∀ part ∈ parts, part.surplus = 0) :
    Balanced mark 0 parts := by
  induction parts with
  | nil => rfl
  | cons part parts ih =>
    obtain ⟨hpart, hparts⟩ := List.forall_mem_cons.mp h
    refine ⟨Or.inl rfl, ?_⟩
    rw [hpart]
    exact ih hparts

/-- Only the difference counts. -/
lemma marks_append_eq_iff (i j : ℤ) :
    (marks mark i ++ marks mark j) ++ s = (marks mark (-i) ++ marks mark (-j)) ++ t ↔
      marks mark (i + j) ++ s = marks mark (-(i + j)) ++ t := by
  obtain ⟨k, hk⟩ : ∃ k, i.toNat + j.toNat = k + (i + j).toNat ∧
      (-i).toNat + (-j).toNat = k + (-(i + j)).toNat := by
    refine ⟨i.toNat + j.toNat - (i + j).toNat, ?_, ?_⟩ <;> omega
  simp only [marks, List.replicate_append_replicate]
  rw [hk.1, hk.2, List.replicate_add, List.replicate_add, List.append_assoc, List.append_assoc,
    List.append_right_inj]

/-- Marks before another character are told by their number. -/
lemma replicate_append_cons_eq {a : α} (ha : a ≠ mark)
    (h : List.replicate m mark ++ a :: s = List.replicate n mark ++ a :: t) : m = n := by
  induction m generalizing n with
  | zero =>
    cases n with
    | zero => rfl
    | succ n => exact absurd (List.cons.inj h).1 ha
  | succ m ih =>
    cases n with
    | zero => exact absurd (List.cons.inj h).1.symm ha
    | succ n => exact congrArg (· + 1) (ih (List.cons.inj h).2)

lemma exists_first_ne {kept : List α} (h : ¬ ∀ a ∈ kept, a = mark) :
    ∃ k a rest, kept = List.replicate k mark ++ a :: rest ∧ a ≠ mark := by
  induction kept with
  | nil => exact absurd (fun _ h => nomatch h) h
  | cons a kept ih =>
    by_cases ha : a = mark
    · rw [List.forall_mem_cons, and_iff_right ha] at h
      obtain ⟨k, c, rest, rfl, hc⟩ := ih h
      exact ⟨k + 1, c, rest, by rw [ha]; rfl, hc⟩
    · exact ⟨0, a, kept, rfl, ha⟩

/-- A piece that is not made of marks cannot come behind a surplus. -/
lemma eq_zero_of_append_eq {kept : List α} (hkept : ¬ ∀ a ∈ kept, a = mark)
    (h : marks mark b ++ (kept ++ s) = marks mark (-b) ++ (kept ++ t)) : b = 0 := by
  obtain ⟨k, a, rest, rfl, ha⟩ := exists_first_ne hkept
  have hstretch (n : ℕ) (u : List α) : List.replicate n mark ++
      (List.replicate k mark ++ a :: rest ++ u) = List.replicate (n + k) mark ++ a :: (rest ++ u) := by
    rw [← List.replicate_append_replicate, List.append_assoc, List.append_assoc, List.cons_append]
  rw [marks, marks, hstretch, hstretch] at h
  have hlength := replicate_append_cons_eq ha h
  omega

/-- A piece of marks changes its place with the surplus before it. -/
lemma marks_append_kept {kept : List α} (h : ∀ a ∈ kept, a = mark) (b : ℤ) :
    marks mark b ++ kept = kept ++ marks mark b := by
  rw [List.eq_replicate_of_mem h, marks, List.replicate_append_replicate,
    List.replicate_append_replicate, Nat.add_comm]

/-- One piece. -/
lemma kept_append_eq_iff {kept : List α} (k : ℤ) :
    marks mark b ++ (kept ++ marks mark k ++ s) = marks mark (-b) ++ (kept ++ marks mark (-k) ++ t) ↔
      (b = 0 ∨ ∀ a ∈ kept, a = mark) ∧
        marks mark (b + k) ++ s = marks mark (-(b + k)) ++ t := by
  rw [← marks_append_eq_iff]
  by_cases hkept : ∀ a ∈ kept, a = mark
  · rw [and_iff_right (Or.inr hkept), List.append_assoc, List.append_assoc, ← List.append_assoc,
      ← List.append_assoc _ kept, marks_append_kept hkept, marks_append_kept hkept,
      List.append_assoc, List.append_assoc, List.append_right_inj, List.append_assoc,
      List.append_assoc]
  · rw [or_iff_left hkept]
    by_cases hb : b = 0
    · rw [and_iff_right hb, hb, List.append_assoc kept, List.append_assoc kept]
      exact List.append_right_inj kept
    · refine iff_of_false (fun h => hb ?_) (fun h => hb h.1)
      rw [List.append_assoc kept, List.append_assoc kept] at h
      exact eq_zero_of_append_eq hkept h

/-- **The two texts are equal exactly if the surplus is always made up for.** -/
theorem left_eq_right_iff (parts : List (Part α)) (b : ℤ) :
    marks mark b ++ left mark parts = marks mark (-b) ++ right mark parts ↔
      Balanced mark b parts := by
  induction parts generalizing b with
  | nil =>
    show marks mark b ++ [] = marks mark (-b) ++ [] ↔ b = 0
    constructor
    · intro h
      have hlength := congrArg List.length h
      simp only [marks, List.append_nil, List.length_replicate] at hlength
      omega
    · rintro rfl
      rfl
  | cons part parts ih =>
    exact (kept_append_eq_iff part.surplus).trans (and_congr_right fun _ => ih _)

end Surplus
