import Mathlib.Data.Option.Basic
import Mathlib.Data.Set.Basic
import Mathlib.Tactic.SplitIfs

/-!
# Two kinds of objects that point at each other

Left and right objects have names and are found by them in two indexes.  A left object keeps a map
from right objects to link objects, and a right object keeps a map from names to left objects.

* `Consistent` — both indexes are exact, an object is in the map of another one exactly when that
  one is in its map, and no two entries share a link object.
* `Populated`, `Held` — every right object has a left one, and every link object is in a map.
* The five changes keep a consistent state consistent.
-/

@[ext] structure CrossLinks (α β κ υ ξ : Type) where
  leftAt : κ → Option α
  leftName : α → Option κ
  rightAt : υ → Option β
  rightName : β → Option υ
  link : α → β → Option ξ
  member : β → κ → Option α
  /-- The right object that a link object has been made for, while it is there. -/
  target : ξ → Option β

namespace CrossLinks

variable {α β κ υ ξ : Type}

structure Consistent (S : CrossLinks α β κ υ ξ) : Prop where
  left : ∀ k a, S.leftAt k = some a ↔ S.leftName a = some k
  right : ∀ u b, S.rightAt u = some b ↔ S.rightName b = some u
  member_name : ∀ b k a, S.member b k = some a → S.leftName a = some k
  member_live : ∀ b k a, S.member b k = some a → (S.rightName b).isSome
  linked : ∀ a b, (S.link a b).isSome ↔ ∃ k, S.member b k = some a
  link_target : ∀ a b x, S.link a b = some x → S.target x = some b
  link_unique : ∀ a b a' b' x, S.link a b = some x → S.link a' b' = some x → a = a' ∧ b = b'

/-- Every right object but these has a left one. -/
def Populated (S : CrossLinks α β κ υ ξ) (but : Set β) : Prop :=
  ∀ b u, b ∉ but → S.rightName b = some u → ∃ k a, S.member b k = some a

/-- Every link object is in a map. -/
def Held (S : CrossLinks α β κ υ ξ) : Prop :=
  ∀ x b, S.target x = some b → ∃ a, S.link a b = some x

/-! ## Changes -/

noncomputable section

open Classical

def addLeft (S : CrossLinks α β κ υ ξ) (a : α) (k : κ) : CrossLinks α β κ υ ξ :=
  { S with
    leftAt := fun k' => if k' = k then some a else S.leftAt k'
    leftName := fun a' => if a' = a then some k else S.leftName a' }

def addRight (S : CrossLinks α β κ υ ξ) (b : β) (u : υ) : CrossLinks α β κ υ ξ :=
  { S with
    rightAt := fun u' => if u' = u then some b else S.rightAt u'
    rightName := fun b' => if b' = b then some u else S.rightName b' }

/-- A link object is put into the map of `a`, and `a` into the map of `b` under its name. -/
def connect (S : CrossLinks α β κ υ ξ) (a : α) (k : κ) (b : β) (x : ξ) : CrossLinks α β κ υ ξ :=
  { S with
    link := fun a' b' => if a' = a ∧ b' = b then some x else S.link a' b'
    member := fun b' k' => if b' = b ∧ k' = k then some a else S.member b' k'
    target := fun x' => if x' = x then some b else S.target x' }

def disconnect (S : CrossLinks α β κ υ ξ) (a : α) (k : κ) (b : β) (x : ξ) :
    CrossLinks α β κ υ ξ :=
  { S with
    link := fun a' b' => if a' = a ∧ b' = b then none else S.link a' b'
    member := fun b' k' => if b' = b ∧ k' = k then none else S.member b' k'
    target := fun x' => if x' = x then none else S.target x' }

def dropRight (S : CrossLinks α β κ υ ξ) (b : β) (u : υ) : CrossLinks α β κ υ ξ :=
  { S with
    rightAt := fun u' => if u' = u then none else S.rightAt u'
    rightName := fun b' => if b' = b then none else S.rightName b' }

end

/-! ## Consistency is kept -/

variable {S : CrossLinks α β κ υ ξ} {a : α} {b : β} {k : κ} {u : υ} {x : ξ} {but : Set β}

namespace Consistent

/-- A left object is the one that has its name. -/
lemma left_unique {a' : α} (h : S.Consistent) (ha : S.leftName a = some k)
    (ha' : S.leftName a' = some k) : a = a' :=
  Option.some.inj (((h.left k a).2 ha).symm.trans ((h.left k a').2 ha'))

/-- The index of the left objects with a new one in it. -/
theorem addLeft (h : S.Consistent) (hk : S.leftAt k = none) (ha : S.leftName a = none) :
    (S.addLeft a k).Consistent where
  left k' a' := by
    unfold CrossLinks.addLeft
    dsimp only
    split_ifs with hk' ha' ha'
    · simp [hk', ha']
    · subst hk'
      have hne : S.leftName a' ≠ some k' := fun hname => by
        rw [(h.left k' a').2 hname] at hk
        cases hk
      simp [hne, Ne.symm ha']
    · subst ha'
      have hne : S.leftAt k' ≠ some a' := fun hat => by
        rw [(h.left k' a').1 hat] at ha
        cases ha
      simp [hne, Ne.symm hk']
    · exact h.left k' a'
  right := h.right
  member_name b k' a' hmember := by
    have hname := h.member_name b k' a' hmember
    unfold CrossLinks.addLeft
    dsimp only
    split_ifs with ha'
    · rw [← ha', hname] at ha
      cases ha
    · exact hname
  member_live := h.member_live
  linked := h.linked
  link_target := h.link_target
  link_unique := h.link_unique

/-- The index of the right objects with a new one in it. -/
theorem addRight (h : S.Consistent) (hu : S.rightAt u = none) (hb : S.rightName b = none) :
    (S.addRight b u).Consistent where
  left := h.left
  right u' b' := by
    unfold CrossLinks.addRight
    dsimp only
    split_ifs with hu' hb' hb'
    · simp [hu', hb']
    · subst hu'
      have hne : S.rightName b' ≠ some u' := fun hname => by
        rw [(h.right u' b').2 hname] at hu
        cases hu
      simp [hne, Ne.symm hb']
    · subst hb'
      have hne : S.rightAt u' ≠ some b' := fun hat => by
        rw [(h.right u' b').1 hat] at hb
        cases hb
      simp [hne, Ne.symm hu']
    · exact h.right u' b'
  member_name := h.member_name
  member_live b' k' a' hmember := by
    unfold CrossLinks.addRight
    dsimp only
    split_ifs
    · rfl
    · exact h.member_live b' k' a' hmember
  linked := h.linked
  link_target := h.link_target
  link_unique := h.link_unique

/-- A new link object between two objects that are there; it may replace an older one. -/
theorem connect (h : S.Consistent) (ha : S.leftName a = some k) (hb : (S.rightName b).isSome)
    (hx : S.target x = none) : (S.connect a k b x).Consistent where
  left := h.left
  right := h.right
  member_name b' k' a' hmember := by
    unfold CrossLinks.connect at hmember
    dsimp only at hmember
    split_ifs at hmember with heq
    · cases hmember
      rw [heq.2]
      exact ha
    · exact h.member_name b' k' a' hmember
  member_live b' k' a' hmember := by
    unfold CrossLinks.connect at hmember
    dsimp only at hmember
    split_ifs at hmember with heq
    · rw [heq.1]
      exact hb
    · exact h.member_live b' k' a' hmember
  linked a' b' := by
    unfold CrossLinks.connect
    dsimp only
    by_cases hb' : b' = b
    · subst hb'
      by_cases ha' : a' = a
      · subst ha'
        simp only [and_self, if_true, Option.isSome_some, true_iff, true_and]
        exact ⟨k, if_pos ⟨rfl, rfl⟩⟩
      · simp only [ha', false_and, if_false, true_and]
        rw [h.linked]
        constructor
        · rintro ⟨k', hk'⟩
          have hne : k' ≠ k := by
            rintro rfl
            exact ha' (h.left_unique (h.member_name _ _ _ hk') ha)
          exact ⟨k', by rw [if_neg fun heq => hne heq.2, hk']⟩
        · rintro ⟨k', hk'⟩
          split_ifs at hk' with hkk
          · exact absurd (Option.some.inj hk').symm ha'
          · exact ⟨k', hk'⟩
    · simp only [hb', and_false, false_and, if_false]
      exact h.linked a' b'
  link_target a' b' x' hlink := by
    unfold CrossLinks.connect at hlink ⊢
    dsimp only at hlink ⊢
    split_ifs at hlink with heq
    · rw [if_pos (Option.some.inj hlink).symm, heq.2]
    · have htarget := h.link_target a' b' x' hlink
      split_ifs with hx'
      · rw [hx', hx] at htarget
        cases htarget
      · exact htarget
  link_unique a₁ b₁ a₂ b₂ x' h₁ h₂ := by
    have hfresh (a' : α) (b' : β) : S.link a' b' ≠ some x := fun hlink => by
      rw [h.link_target a' b' x hlink] at hx
      cases hx
    unfold CrossLinks.connect at h₁ h₂
    dsimp only at h₁ h₂
    split_ifs at h₁ h₂ with heq₁ heq₂ heq₂
    · exact ⟨heq₁.1.trans heq₂.1.symm, heq₁.2.trans heq₂.2.symm⟩
    · cases h₁
      exact absurd h₂ (hfresh a₂ b₂)
    · cases h₂
      exact absurd h₁ (hfresh a₁ b₁)
    · exact h.link_unique a₁ b₁ a₂ b₂ x' h₁ h₂

/-- A link object is taken out of both maps and deleted. -/
theorem disconnect (h : S.Consistent) (ha : S.leftName a = some k) (hx : S.link a b = some x) :
    (S.disconnect a k b x).Consistent where
  left := h.left
  right := h.right
  member_name b' k' a' hmember := by
    unfold CrossLinks.disconnect at hmember
    dsimp only at hmember
    split_ifs at hmember
    exact h.member_name b' k' a' hmember
  member_live b' k' a' hmember := by
    unfold CrossLinks.disconnect at hmember
    dsimp only at hmember
    split_ifs at hmember
    exact h.member_live b' k' a' hmember
  linked a' b' := by
    unfold CrossLinks.disconnect
    dsimp only
    by_cases hb' : b' = b
    · subst hb'
      by_cases ha' : a' = a
      · subst ha'
        simp only [and_self, if_true, Option.isSome_none, true_and]
        constructor
        · exact fun hfalse => absurd hfalse (by simp)
        · rintro ⟨k', hk'⟩
          split_ifs at hk' with hkk
          have hname := h.member_name _ _ _ hk'
          exact absurd ⟨rfl, Option.some.inj (hname.symm.trans ha)⟩ hkk
      · simp only [ha', false_and, if_false, true_and]
        rw [h.linked]
        constructor
        · rintro ⟨k', hk'⟩
          have hne : k' ≠ k := by
            rintro rfl
            exact ha' (h.left_unique (h.member_name _ _ _ hk') ha)
          exact ⟨k', by rw [if_neg fun heq => hne heq.2, hk']⟩
        · rintro ⟨k', hk'⟩
          split_ifs at hk'
          exact ⟨k', hk'⟩
    · simp only [hb', and_false, false_and, if_false]
      exact h.linked a' b'
  link_target a' b' x' hlink := by
    unfold CrossLinks.disconnect at hlink ⊢
    dsimp only at hlink ⊢
    split_ifs at hlink with heq
    have hne : x' ≠ x := by
      rintro rfl
      exact heq (h.link_unique a' b' a b x' hlink hx)
    rw [if_neg hne]
    exact h.link_target a' b' x' hlink
  link_unique a₁ b₁ a₂ b₂ x' h₁ h₂ := by
    unfold CrossLinks.disconnect at h₁ h₂
    dsimp only at h₁ h₂
    split_ifs at h₁ h₂
    exact h.link_unique a₁ b₁ a₂ b₂ x' h₁ h₂

/-- A right object without left ones is deleted. -/
theorem dropRight (h : S.Consistent) (hu : S.rightName b = some u)
    (hempty : ∀ k, S.member b k = none) : (S.dropRight b u).Consistent where
  left := h.left
  right u' b' := by
    unfold CrossLinks.dropRight
    dsimp only
    split_ifs with hu' hb' hb'
    · simp
    · subst hu'
      have hne : S.rightName b' ≠ some u' := fun hname => by
        have := ((h.right u' b').2 hname).symm.trans ((h.right u' b).2 hu)
        exact hb' (Option.some.inj this)
      simp [hne]
    · subst hb'
      have hne : S.rightAt u' ≠ some b' := fun hat => by
        have := ((h.right u' b').1 hat).symm.trans hu
        exact hu' (Option.some.inj this)
      simp [hne]
    · exact h.right u' b'
  member_name := h.member_name
  member_live b' k' a' hmember := by
    unfold CrossLinks.dropRight
    dsimp only
    have hne : b' ≠ b := by
      rintro rfl
      have hnone : S.member b' k' = none := hempty k'
      exact absurd (hnone.symm.trans hmember) (by simp)
    rw [if_neg hne]
    exact h.member_live b' k' a' hmember
  linked := h.linked
  link_target := h.link_target
  link_unique := h.link_unique

/-- An object that is linked is there. -/
lemma right_of_link (h : S.Consistent) (hx : S.link a b = some x) :
    ∃ u, S.rightName b = some u ∧ S.rightAt u = some b := by
  obtain ⟨k, hk⟩ := (h.linked a b).1 (Option.isSome_iff_exists.2 ⟨x, hx⟩)
  obtain ⟨u, hu⟩ := Option.isSome_iff_exists.1 (h.member_live b k a hk)
  exact ⟨u, hu, (h.right u b).2 hu⟩

/-- **Each map mirrors the other one.** -/
theorem link_isSome_iff (h : S.Consistent) (ha : S.leftName a = some k) :
    (S.link a b).isSome ↔ S.member b k = some a := by
  rw [h.linked]
  refine ⟨fun ⟨k', hk'⟩ => ?_, fun hmember => ⟨k, hmember⟩⟩
  have hname := h.member_name b k' a hk'
  rw [Option.some.inj (ha.symm.trans hname)]
  exact hk'

end Consistent

/-! ## Nothing is left over -/

lemma Populated.mono {but' : Set β} (h : S.Populated but) (hle : but ⊆ but') :
    S.Populated but' :=
  fun b u hb => h b u fun hmem => hb (hle hmem)

/-- An object of which a left one is known need not be excepted. -/
lemma Populated.of_member (h : S.Populated {b}) (hmember : S.member b k = some a) :
    S.Populated ∅ := by
  intro b' u _ hu
  by_cases hb : b' = b
  · subst hb
    exact ⟨k, a, hmember⟩
  · exact h b' u hb hu

lemma Populated.addRight (h : S.Populated ∅) : (S.addRight b u).Populated {b} := by
  intro b' u' hb' hu'
  have hne : b' ≠ b := hb'
  unfold CrossLinks.addRight at hu'
  dsimp only at hu'
  rw [if_neg hne] at hu'
  exact h b' u' (Set.notMem_empty b') hu'

lemma Populated.connect (h : S.Populated {b}) : (S.connect a k b x).Populated ∅ := by
  intro b' u' _ hu'
  unfold CrossLinks.connect
  dsimp only
  by_cases hb : b' = b
  · exact ⟨k, a, if_pos ⟨hb, rfl⟩⟩
  · obtain ⟨k', a', hmember⟩ := h b' u' hb hu'
    exact ⟨k', a', by rw [if_neg fun heq => hb heq.1, hmember]⟩

lemma Populated.disconnect (h : S.Populated {b}) : (S.disconnect a k b x).Populated {b} := by
  intro b' u' hb' hu'
  obtain ⟨k', a', hmember⟩ := h b' u' hb' hu'
  have hne : b' ≠ b := hb'
  refine ⟨k', a', ?_⟩
  unfold CrossLinks.disconnect
  dsimp only
  rw [if_neg fun heq => hne heq.1, hmember]

lemma Populated.dropRight (h : S.Populated {b}) : (S.dropRight b u).Populated ∅ := by
  intro b' u' _ hu'
  unfold CrossLinks.dropRight at hu' ⊢
  dsimp only at hu' ⊢
  split_ifs at hu' with hb
  exact h b' u' hb hu'

/-- A link object that replaces another one would leave it over. -/
lemma Held.connect (h : S.Held) (hnone : S.link a b = none) : (S.connect a k b x).Held := by
  intro x' b' htarget
  unfold CrossLinks.connect at htarget ⊢
  dsimp only at htarget ⊢
  split_ifs at htarget with hx
  · cases htarget
    exact ⟨a, by rw [if_pos ⟨rfl, rfl⟩, hx]⟩
  · obtain ⟨a', hlink⟩ := h x' b' htarget
    refine ⟨a', ?_⟩
    rw [if_neg, hlink]
    rintro ⟨rfl, rfl⟩
    rw [hnone] at hlink
    cases hlink

lemma Held.disconnect (h : S.Held) (hlink : S.link a b = some x) :
    (S.disconnect a k b x).Held := by
  intro x' b' htarget
  unfold CrossLinks.disconnect at htarget ⊢
  dsimp only at htarget ⊢
  split_ifs at htarget with hx
  obtain ⟨a', hlink'⟩ := h x' b' htarget
  refine ⟨a', ?_⟩
  rw [if_neg, hlink']
  rintro ⟨rfl, rfl⟩
  exact hx (Option.some.inj (hlink'.symm.trans hlink))

end CrossLinks
