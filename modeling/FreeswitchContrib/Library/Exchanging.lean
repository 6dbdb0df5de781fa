import Mathlib.Data.List.Basic
import Mathlib.Order.Defs.LinearOrder
import Mathlib.Order.Lattice

/-!
# Sorting by exchanges

Entries with keys, of which two neighbours are exchanged where the greater key is in front.

* `Rearranged` — no entry has gone past another one with the same key.
* `Settled` — the entries in front are in order, and none behind them belongs before one of them.
-/

namespace Exchanging

variable {α κ : Type} [LinearOrder κ] {key : α → κ} {front rest rest' xs ys zs : List α} {x y : α}

/-- A permutation under which the entries with the same key are as they were. -/
structure Rearranged (key : α → κ) (xs ys : List α) : Prop where
  perm : ys.Perm xs
  stable : ∀ k, ys.filter (key · = k) = xs.filter (key · = k)

namespace Rearranged

lemma refl (xs : List α) : Rearranged key xs xs := ⟨.refl xs, fun _ => rfl⟩

lemma trans (h : Rearranged key xs ys) (h' : Rearranged key ys zs) : Rearranged key xs zs :=
  ⟨h'.perm.trans h.perm, fun k => (h'.stable k).trans (h.stable k)⟩

/-- Two neighbours are exchanged. -/
lemma exchange (front : List α) (h : key y < key x) (rest : List α) :
    Rearranged key (front ++ x :: y :: rest) (front ++ y :: x :: rest) where
  perm := (List.Perm.swap x y rest).append_left front
  stable k := by
    rw [List.filter_append, List.filter_append]
    congr 1
    by_cases hx : key x = k
    · have hy : key y ≠ k := fun hy => ne_of_lt h (hy.trans hx.symm)
      simp [hx, hy]
    · simp [hx, List.filter_cons]

/-- What is in front does not matter. -/
lemma append_left (front : List α) (h : Rearranged key xs ys) :
    Rearranged key (front ++ xs) (front ++ ys) where
  perm := h.perm.append_left front
  stable k := by rw [List.filter_append, List.filter_append, h.stable k]

end Rearranged

/-- The exchange as two assignments. -/
lemma set_set (front : List α) (x y : α) (rest : List α) :
    ((front ++ x :: y :: rest).set front.length y).set (front.length + 1) x =
      front ++ y :: x :: rest := by
  simp

structure Settled (key : α → κ) (front rest : List α) : Prop where
  sorted : front.Pairwise fun x y => key x ≤ key y
  below : ∀ x ∈ front, ∀ y ∈ rest, key x ≤ key y

namespace Settled

lemma nil (rest : List α) : Settled key [] rest :=
  ⟨.nil, fun _ hx => absurd hx List.not_mem_nil⟩

lemma perm_right (h : Settled key front rest) (hperm : rest'.Perm rest) :
    Settled key front rest' :=
  ⟨h.sorted, fun x hx y hy => h.below x hx y (hperm.mem_iff.mp hy)⟩

/-- The least of the entries that are left comes next. -/
lemma snoc (h : Settled key front (x :: rest)) (hleast : ∀ y ∈ rest, key x ≤ key y) :
    Settled key (front ++ [x]) rest where
  sorted := by
    refine List.pairwise_append.mpr ⟨h.sorted, List.pairwise_singleton _ x, fun z hz y hy => ?_⟩
    obtain rfl := List.mem_singleton.mp hy
    exact h.below z hz y List.mem_cons_self
  below z hz y hy := by
    rcases List.mem_append.mp hz with hz | hz
    · exact h.below z hz y (List.mem_cons_of_mem x hy)
    · obtain rfl := List.mem_singleton.mp hz
      exact hleast y hy

/-- One entry that is left is where it belongs. -/
lemma pairwise (h : Settled key front rest) (hrest : rest.length ≤ 1) :
    (front ++ rest).Pairwise fun x y => key x ≤ key y := by
  refine List.pairwise_append.mpr ⟨h.sorted, ?_, h.below⟩
  match rest, hrest with
  | [], _ => exact .nil
  | [x], _ => exact List.pairwise_singleton _ x

end Settled

end Exchanging
