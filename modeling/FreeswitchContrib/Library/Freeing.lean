import Mathlib.Data.Finset.Basic
import Mathlib.Data.Finset.Option
import Mathlib.Data.List.Infix

/-!
# Traces of allocations

What a program creates and frees, in its order.  To free a null pointer does nothing.

* `FreesOnce` — only what is there is freed, and all that has been created is freed once, but for
  what is kept.
* `FreesOnce.new`, `FreesOnce.free`, `FreesOnce.freeNull` — one more operation.
-/

namespace Freeing

inductive Operation (α : Type)
  | new (a : α)
  | free (a : Option α)
  deriving DecidableEq

variable {α : Type} [DecidableEq α]

/-- Nothing is freed that has not been created or has been freed, and all that has been created is
freed once or is `kept`. -/
structure FreesOnce (kept : Finset α) (operations : List (Operation α)) : Prop where
  legal : ∀ before a, before ++ [.free (some a)] <+: operations →
    .new a ∈ before ∧ .free (some a) ∉ before
  count : ∀ a, .new a ∈ operations →
    operations.count (.free (some a)) = if a ∈ kept then 0 else 1
  created : ∀ a ∈ kept, .new a ∈ operations

variable {kept : Finset α} {operations : List (Operation α)} {a : α}

namespace FreesOnce

lemma nil : FreesOnce (∅ : Finset α) [] where
  legal before a h := by
    have hlength := h.length_le
    rw [List.length_append] at hlength
    cases hlength
  count a h := nomatch h
  created a h := absurd h (Finset.notMem_empty a)

/-- What is freed has been created. -/
lemma new_mem (h : FreesOnce kept operations) (hfree : .free (some a) ∈ operations) :
    .new a ∈ operations := by
  obtain ⟨before, after, rfl⟩ := List.append_of_mem hfree
  refine List.mem_append_left _ (h.legal before a ?_).1
  exact ⟨after, by rw [List.append_assoc, List.singleton_append]⟩

/-- Something new is kept. -/
lemma new (h : FreesOnce kept operations) (ha : .new a ∉ operations) :
    FreesOnce (insert a kept) (operations ++ [.new a]) where
  legal before b hb := by
    rcases List.prefix_concat_iff.1 hb with hb | hb
    · cases (List.append_inj' hb rfl).2
    · exact h.legal before b hb
  count b hb := by
    have hone : [Operation.new a].count (.free (some b)) = 0 :=
      List.count_eq_zero.2 (by simp)
    rw [List.count_append, hone, Nat.add_zero]
    rcases List.mem_append.1 hb with hmem | hmem
    · have hne : b ≠ a := fun hsame => ha (hsame ▸ hmem)
      rw [h.count b hmem]
      exact if_congr (by rw [Finset.mem_insert, or_iff_right hne]) rfl rfl
    · cases List.mem_singleton.1 hmem
      rw [if_pos (Finset.mem_insert_self ..)]
      exact List.count_eq_zero.2 fun hfree => ha (h.new_mem hfree)
  created b hb := by
    rcases Finset.mem_insert.1 hb with rfl | hb
    · exact List.mem_append_right _ (List.mem_singleton_self _)
    · exact List.mem_append_left _ (h.created b hb)

/-- What is kept is freed. -/
lemma free (h : FreesOnce kept operations) (ha : a ∈ kept) :
    FreesOnce (kept.erase a) (operations ++ [.free (some a)]) where
  legal before b hb := by
    rcases List.prefix_concat_iff.1 hb with hb | hb
    · obtain ⟨rfl, hsame⟩ := List.append_inj' hb rfl
      cases hsame
      have hcount := h.count a (h.created a ha)
      rw [if_pos ha] at hcount
      exact ⟨h.created a ha, List.count_eq_zero.1 hcount⟩
    · exact h.legal before b hb
  count b hb := by
    have hb : .new b ∈ operations := by
      rcases List.mem_append.1 hb with hb | hb
      · exact hb
      · cases List.mem_singleton.1 hb
    rw [List.count_append, h.count b hb]
    by_cases hba : b = a
    · subst hba
      rw [if_pos ha, if_neg (Finset.notMem_erase b kept), List.count_singleton_self]
    · have hother : [Operation.free (some a)].count (.free (some b)) = 0 :=
        List.count_eq_zero.2 fun hmem => hba (by simpa using hmem)
      rw [hother, Nat.add_zero]
      exact if_congr (by rw [Finset.mem_erase, and_iff_right hba]) rfl rfl
  created b hb := List.mem_append_left _ (h.created b (Finset.mem_of_mem_erase hb))

/-- A null pointer is freed. -/
lemma freeNull (h : FreesOnce kept operations) : FreesOnce kept (operations ++ [.free none]) where
  legal before b hb := by
    rcases List.prefix_concat_iff.1 hb with hb | hb
    · cases (List.append_inj' hb rfl).2
    · exact h.legal before b hb
  count b hb := by
    have hb : .new b ∈ operations := by
      rcases List.mem_append.1 hb with hb | hb
      · exact hb
      · cases List.mem_singleton.1 hb
    rw [List.count_append, h.count b hb, List.count_eq_zero.2 (by simp), Nat.add_zero]
  created b hb := List.mem_append_left _ (h.created b hb)

/-- A pointer is freed that has what is kept beside the rest, or is null. -/
lemma freePointer {pointer : Option α} (h : FreesOnce (pointer.toFinset ∪ kept) operations)
    (hkept : ∀ a ∈ pointer, a ∉ kept) : FreesOnce kept (operations ++ [.free pointer]) := by
  cases pointer with
  | none => exact (Finset.empty_union kept ▸ h).freeNull
  | some a =>
    have hfree := h.free (a := a) (Finset.mem_union_left _ (Finset.mem_singleton_self a))
    rwa [Option.toFinset_some, Finset.singleton_union, Finset.erase_insert (hkept a rfl)] at hfree

end FreesOnce

/-- What is freed first has not been created. -/
lemma not_freesOnce_of_first {rest : List (Operation α)} :
    ¬ FreesOnce kept (.free (some a) :: rest) := fun h =>
  nomatch (h.legal [] a ⟨rest, rfl⟩).1

end Freeing
