import Mathlib.Data.List.Dedup
import Mathlib.Data.List.Induction
import Mathlib.Tactic.SplitIfs

/-!
# First appearances

The distinct elements of a list in the order in which they first appear, and what is found by
comparing every element with the one before it only.

* `firstSeen` — the distinct elements.
* `changes` — the elements that differ from the one before.
* **`changes_eq_firstSeen_iff`** — these are the same exactly if equal elements stand together.
-/

namespace FirstSeen

variable {α : Type} [DecidableEq α] {l : List α} {a c previous : α}

/-- The distinct elements in the order of their first appearance. -/
def firstSeen (l : List α) : List α := l.reverse.dedup.reverse

/-- The elements that differ from the one before them; the first is compared with `previous`. -/
def changes : α → List α → List α
  | _, [] => []
  | previous, a :: l => if a = previous then changes previous l else a :: changes a l

/-- An element that differs from the one before it has not been there earlier. -/
def Grouped (l : List α) : Prop :=
  ∀ front c d back, l = front ++ c :: d :: back → d ≠ c → d ∉ front

/-! ## The distinct elements -/

lemma firstSeen_nil : firstSeen ([] : List α) = [] := rfl

lemma firstSeen_concat (l : List α) (a : α) :
    firstSeen (l ++ [a]) = if a ∈ l then firstSeen l else firstSeen l ++ [a] := by
  unfold firstSeen
  rw [List.reverse_append, List.reverse_singleton, List.singleton_append]
  split_ifs with h
  · rw [List.dedup_cons_of_mem (List.mem_reverse.mpr h)]
  · rw [List.dedup_cons_of_notMem (List.mem_reverse.not.mpr h), List.reverse_cons]

lemma mem_firstSeen : a ∈ firstSeen l ↔ a ∈ l := by
  rw [firstSeen, List.mem_reverse, List.mem_dedup, List.mem_reverse]

lemma nodup_firstSeen (l : List α) : (firstSeen l).Nodup :=
  List.nodup_reverse.mpr (List.nodup_dedup l.reverse)

lemma head?_firstSeen (l : List α) : (firstSeen l).head? = l.head? := by
  induction l using List.reverseRecOn with
  | nil => rfl
  | append_singleton l a ih =>
    cases l with
    | nil => rfl
    | cons b l =>
      have hne : firstSeen (b :: l) ≠ [] :=
        List.ne_nil_of_mem (mem_firstSeen.mpr List.mem_cons_self)
      rw [firstSeen_concat]
      split_ifs with h
      · exact ih
      · rw [List.head?_append_of_ne_nil _ hne, ih]
        rfl

/-! ## Changes -/

lemma changes_append (previous : α) (l l' : List α) :
    changes previous (l ++ l') =
      changes previous l ++ changes (l.getLast?.getD previous) l' := by
  induction l generalizing previous with
  | nil => rfl
  | cons a l ih =>
    rw [List.cons_append, changes, changes, List.getLast?_cons, Option.getD_some]
    split_ifs with h
    · rw [ih, h]
    · rw [ih, List.cons_append]

lemma head?_changes (previous : α) (l : List α) : (changes previous l).head? ≠ some previous := by
  induction l with
  | nil => exact Option.some_ne_none previous ∘ Eq.symm
  | cons a l ih =>
    rw [changes]
    split_ifs with h
    · exact ih
    · exact fun heq => h (Option.some.inj heq)

lemma mem_changes (h : a ∈ l) : a = previous ∨ a ∈ changes previous l := by
  induction l generalizing previous with
  | nil => cases h
  | cons b l ih =>
    rw [changes]
    split_ifs with hb
    · rcases List.mem_cons.mp h with rfl | h
      · exact .inl hb
      · exact ih h
    · rcases List.mem_cons.mp h with rfl | h
      · exact .inr List.mem_cons_self
      · exact .inr (List.mem_cons.mpr (ih h))

lemma mem_changes_of_head? (hhead : l.head? ≠ some previous) (h : a ∈ l) :
    a ∈ changes previous l := by
  cases l with
  | nil => cases h
  | cons b l =>
    have hb : b ≠ previous := fun heq => hhead (by rw [heq]; rfl)
    rw [changes, if_neg hb]
    rcases List.mem_cons.mp h with rfl | h
    · exact List.mem_cons_self
    · exact List.mem_cons.mpr (mem_changes h)

omit [DecidableEq α] in
lemma Grouped.of_concat (h : Grouped (l ++ [a])) : Grouped l := by
  intro front c d back heq hne
  refine h front c d (back ++ [a]) ?_ hne
  rw [heq, List.append_assoc]
  rfl

omit [DecidableEq α] in
/-- An element that differs from the last one is new. -/
lemma Grouped.not_mem (h : Grouped (l ++ [c] ++ [a])) (hne : a ≠ c) : a ∉ l ++ [c] := by
  have hfront := h l c a [] (by rw [List.append_assoc]; rfl) hne
  exact fun hmem => (List.mem_append.mp hmem).elim hfront fun hlast =>
    hne (List.mem_singleton.mp hlast)

/-- The last element of such a list is the last one that has appeared first. -/
lemma Grouped.firstSeen_concat (h : Grouped (l ++ [a])) :
    ∃ front, firstSeen (l ++ [a]) = front ++ [a] ∧ a ∉ front := by
  suffices hsplit : ∃ front, firstSeen (l ++ [a]) = front ++ [a] by
    obtain ⟨front, heq⟩ := hsplit
    have hnodup := nodup_firstSeen (l ++ [a])
    rw [heq] at hnodup
    have hdisjoint := List.disjoint_of_nodup_append hnodup
    exact ⟨front, heq, fun hmem => hdisjoint hmem (List.mem_singleton.mpr rfl)⟩
  induction l using List.reverseRecOn with
  | nil => exact ⟨[], by rw [FirstSeen.firstSeen_concat, if_neg List.not_mem_nil]; rfl⟩
  | append_singleton l c ih =>
    rw [FirstSeen.firstSeen_concat]
    by_cases hac : a = c
    · subst hac
      rw [if_pos (List.mem_append_right _ (List.mem_singleton.mpr rfl))]
      exact ih h.of_concat
    · rw [if_neg (h.not_mem hac)]
      exact ⟨_, rfl⟩

lemma changes_eq_firstSeen (hgrouped : Grouped l) (hhead : l.head? ≠ some previous) :
    changes previous l = firstSeen l := by
  induction l using List.reverseRecOn with
  | nil => rfl
  | append_singleton l a ih =>
    rw [changes_append, firstSeen_concat]
    rcases List.eq_nil_or_concat l with rfl | ⟨front, c, rfl⟩
    · have ha : a ≠ previous := fun heq => hhead (by rw [heq]; rfl)
      rw [if_neg List.not_mem_nil]
      simp [changes, ha, firstSeen_nil]
    · rw [List.concat_eq_append] at hgrouped hhead ih ⊢
      have hne : front ++ [c] ≠ [] := by simp
      rw [List.head?_append_of_ne_nil _ hne] at hhead
      rw [ih hgrouped.of_concat hhead, List.getLast?_concat, Option.getD_some]
      by_cases hac : a = c
      · rw [if_pos (by simp [hac]), changes, if_pos hac, changes, List.append_nil]
      · rw [if_neg (hgrouped.not_mem hac), changes, if_neg hac, changes]

/-- **Comparing with the element before finds the distinct elements** exactly if equal ones stand
together and the first one is found at all. -/
theorem changes_eq_firstSeen_iff :
    changes previous l = firstSeen l ↔ l.head? ≠ some previous ∧ Grouped l := by
  constructor
  · intro heq
    have hhead : l.head? ≠ some previous := by
      rw [← head?_firstSeen, ← heq]
      exact head?_changes previous l
    refine ⟨hhead, fun front c d back hl hne hmem => ?_⟩
    have hsplit : l = (front ++ [c]) ++ d :: back := by rw [hl, List.append_assoc]; rfl
    have hfront : (front ++ [c]).head? ≠ some previous := by
      rw [hsplit, List.head?_append_of_ne_nil _ (by simp)] at hhead
      exact hhead
    -- what comes again is found twice
    have hnodup := nodup_firstSeen l
    rw [← heq, hsplit, changes_append, List.getLast?_concat, Option.getD_some, changes,
      if_neg hne] at hnodup
    have hdisjoint := List.disjoint_of_nodup_append hnodup
    exact hdisjoint (mem_changes_of_head? hfront (List.mem_append_left _ hmem)) List.mem_cons_self
  · exact fun h => changes_eq_firstSeen h.2 h.1

end FirstSeen
