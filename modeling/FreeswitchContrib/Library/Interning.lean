import Mathlib.Data.List.Infix
import Mathlib.Data.List.Nodup

/-!
# Numbering names in the order of their first use

An interner gives a name that it meets for the first time the next number, and a name it knows
the number it has.  The table of names is a list without repetitions, a name's number is its place.

`intern_of_mem` and `idxOf_intern` say that a number never changes.  `idxOf_agree_iff` is about two
tables: their numbers agree with the names exactly when one table continues the other.
-/

namespace FreeswitchContrib.Interning

variable {α : Type} [BEq α] [LawfulBEq α] {names names' : List α} {a b : α}

/-- The table after a name is used. -/
def intern (names : List α) (a : α) : List α := if a ∈ names then names else names ++ [a]

/-- The table after names are used, one after the other. -/
def internAll (names : List α) (uses : List α) : List α := uses.foldl intern names

/-! ## One name -/

lemma intern_of_mem (h : a ∈ names) : intern names a = names := if_pos h

lemma intern_of_notMem (h : a ∉ names) : intern names a = names ++ [a] := if_neg h

lemma prefix_intern (names : List α) (a : α) : names <+: intern names a := by
  by_cases h : a ∈ names
  · rw [intern_of_mem h]
  · rw [intern_of_notMem h]
    exact List.prefix_append names [a]

lemma mem_intern_iff : b ∈ intern names a ↔ b ∈ names ∨ b = a := by
  by_cases h : a ∈ names
  · rw [intern_of_mem h]
    constructor
    · exact Or.inl
    · rintro (hb | rfl)
      · exact hb
      · exact h
  · rw [intern_of_notMem h, List.mem_append, List.mem_singleton]

lemma nodup_intern (h : names.Nodup) (a : α) : (intern names a).Nodup := by
  by_cases ha : a ∈ names
  · rwa [intern_of_mem ha]
  · rw [intern_of_notMem ha]
    exact List.nodup_append.mpr ⟨h, List.nodup_singleton a, fun x hx y hy => by
      rintro rfl
      exact ha (List.mem_singleton.mp hy ▸ hx)⟩

/-- A number does not change. -/
lemma idxOf_of_prefix (h : names <+: names') (ha : a ∈ names) :
    names'.idxOf a = names.idxOf a := by
  obtain ⟨rest, rfl⟩ := h
  exact List.idxOf_append_of_mem ha

/-- A new name gets the next number. -/
lemma idxOf_intern_of_notMem (h : a ∉ names) : (intern names a).idxOf a = names.length := by
  rw [intern_of_notMem h, List.idxOf_append_of_notMem h, List.idxOf_cons_self, Nat.add_zero]

/-! ## Many names -/

lemma prefix_internAll (uses names : List α) : names <+: internAll names uses := by
  induction uses generalizing names with
  | nil => exact List.prefix_refl names
  | cons a uses ih => exact (prefix_intern names a).trans (ih (intern names a))

lemma mem_internAll_iff {uses : List α} :
    b ∈ internAll names uses ↔ b ∈ names ∨ b ∈ uses := by
  induction uses generalizing names with
  | nil => simp [internAll]
  | cons a uses ih =>
      show b ∈ internAll (intern names a) uses ↔ _
      rw [ih, mem_intern_iff, List.mem_cons, or_assoc]

lemma nodup_internAll (h : names.Nodup) (uses : List α) : (internAll names uses).Nodup := by
  induction uses generalizing names with
  | nil => exact h
  | cons a uses ih => exact ih (nodup_intern h a)

/-! ## Two tables -/

/-- **Two tables number alike** if and only if one continues the other. -/
theorem idxOf_agree_iff (h : names.Nodup) (h' : names'.Nodup) :
    (∀ a ∈ names, ∀ b ∈ names', names.idxOf a = names'.idxOf b ↔ a = b)
      ↔ names <+: names' ∨ names' <+: names := by
  constructor
  · intro hagree
    have hget : ∀ i (hi : i < names.length) (hi' : i < names'.length),
        names[i] = names'[i] := fun i hi hi' =>
      (hagree _ (List.getElem_mem hi) _ (List.getElem_mem hi')).mp (by
        rw [h.idxOf_getElem i hi, h'.idxOf_getElem i hi'])
    rcases Nat.le_total names.length names'.length with hle | hle
    · exact Or.inl (List.prefix_iff_getElem.mpr ⟨hle, fun i hi => hget i hi (hi.trans_le hle)⟩)
    · exact Or.inr (List.prefix_iff_getElem.mpr
        ⟨hle, fun i hi => (hget i (hi.trans_le hle) hi).symm⟩)
  · intro hpre a ha b hb
    rcases hpre with hpre | hpre
    · rw [← idxOf_of_prefix hpre ha]
      exact List.idxOf_inj (hpre.subset ha)
    · rw [← idxOf_of_prefix hpre hb]
      exact List.idxOf_inj ha

end FreeswitchContrib.Interning
