import Mathlib.Data.Nat.Notation
import Mathlib.Logic.Function.Basic

/-!
# Ownership

Resources that are created, handed on and destroyed by programs without a garbage collector.  They
have numbers in the order of their creation.  A place, a variable or a thread, holds at most one; a
resource that is in use is in one place only, and one that was destroyed is in none.

The rules take the places after a step by what they hold, so a step of a program fits them whatever
else it changes.  `Transfer` is the kinds of such steps where nothing is lost.
-/

namespace Ownership

variable {π : Type}

structure Owned (held : π → Option ℕ) (destroyed : ℕ → ℕ) (numCreated : ℕ) : Prop where
  unique : ∀ p q r, held p = some r → held q = some r → p = q
  alive : ∀ p r, held p = some r → destroyed r = 0 ∧ r < numCreated
  once : ∀ r, destroyed r ≤ 1
  created : ∀ r, destroyed r ≠ 0 → r < numCreated

variable {held held' : π → Option ℕ} {destroyed : ℕ → ℕ} {n r : ℕ} {p q : π}

namespace Owned

/-- Resources can be forgotten. -/
lemma mono (h : Owned held destroyed n) (hle : ∀ x r, held' x = some r → held x = some r) :
    Owned held' destroyed n where
  unique x y r hx hy := h.unique x y r (hle x r hx) (hle y r hy)
  alive x r hx := h.alive x r (hle x r hx)
  once := h.once
  created := h.created

/-- A new resource is held by the place that created it. -/
lemma create (h : Owned held destroyed n)
    (hheld : ∀ x r, held' x = some r → (x = p ∧ r = n) ∨ held x = some r) :
    Owned held' destroyed (n + 1) where
  unique x y r hx hy := by
    rcases hheld x r hx with ⟨rfl, rfl⟩ | hx'
    · rcases hheld y _ hy with ⟨rfl, -⟩ | hy'
      · rfl
      · exact absurd (h.alive y _ hy').2 (Nat.lt_irrefl _)
    · rcases hheld y r hy with ⟨rfl, rfl⟩ | hy'
      · exact absurd (h.alive x _ hx').2 (Nat.lt_irrefl _)
      · exact h.unique x y r hx' hy'
  alive x r hx := by
    rcases hheld x r hx with ⟨rfl, rfl⟩ | hx'
    · refine ⟨?_, Nat.lt_succ_self _⟩
      by_contra hdead
      exact absurd (h.created _ hdead) (Nat.lt_irrefl _)
    · exact ⟨(h.alive x r hx').1, Nat.lt_succ_of_lt (h.alive x r hx').2⟩
  once := h.once
  created r hr := Nat.lt_succ_of_lt (h.created r hr)

/-- A resource goes from one place to another. -/
lemma move (h : Owned held destroyed n)
    (hheld : ∀ x r, held' x = some r → (x = q ∧ held p = some r) ∨ (x ≠ p ∧ held x = some r)) :
    Owned held' destroyed n where
  unique x y r hx hy := by
    rcases hheld x r hx with ⟨rfl, hp⟩ | ⟨hne, hx'⟩
    · rcases hheld y r hy with ⟨rfl, -⟩ | ⟨hne, hy'⟩
      · rfl
      · exact absurd (h.unique y p r hy' hp) hne
    · rcases hheld y r hy with ⟨rfl, hp⟩ | ⟨-, hy'⟩
      · exact absurd (h.unique x p r hx' hp) hne
      · exact h.unique x y r hx' hy'
  alive x r hx := by
    rcases hheld x r hx with ⟨-, hp⟩ | ⟨-, hx'⟩
    · exact h.alive p r hp
    · exact h.alive x r hx'
  once := h.once
  created := h.created

/-- A resource is destroyed by the place that holds it. -/
lemma destroy (h : Owned held destroyed n) (hp : held p = some r)
    (hheld : ∀ x r', held' x = some r' → x ≠ p ∧ held x = some r') :
    Owned held' (Function.update destroyed r (destroyed r + 1)) n where
  unique x y r' hx hy := h.unique x y r' (hheld x r' hx).2 (hheld y r' hy).2
  alive x r' hx := by
    obtain ⟨hne, hx'⟩ := hheld x r' hx
    have hr : r' ≠ r := by
      rintro rfl
      exact hne (h.unique x p _ hx' hp)
    rw [Function.update_of_ne hr]
    exact h.alive x r' hx'
  once r' := by
    by_cases hr : r' = r
    · subst hr
      have hzero := (h.alive p _ hp).1
      rw [Function.update_self]
      omega
    · rw [Function.update_of_ne hr]
      exact h.once r'
  created r' hr' := by
    by_cases hr : r' = r
    · exact hr ▸ (h.alive p r hp).2
    · rw [Function.update_of_ne hr] at hr'
      exact h.created r' hr'

/-- What one place holds, no other does. -/
lemma not_held (h : Owned held destroyed n) (hp : held p = some r) (hne : q ≠ p) :
    held q ≠ some r :=
  fun hq => hne (h.unique q p r hq hp)

end Owned

/-! ## Nothing is lost -/

/-- A resource that was not destroyed is held somewhere. -/
def Kept (held : π → Option ℕ) (destroyed : ℕ → ℕ) (numCreated : ℕ) : Prop :=
  ∀ r < numCreated, destroyed r = 0 → ∃ p, held p = some r

namespace Kept

lemma mono (h : Kept held destroyed n) (hle : ∀ x r, held x = some r → held' x = some r) :
    Kept held' destroyed n := by
  intro r hr hzero
  obtain ⟨x, hx⟩ := h r hr hzero
  exact ⟨x, hle x r hx⟩

lemma create (h : Kept held destroyed n) (hp : held' p = some n)
    (hle : ∀ x r, held x = some r → held' x = some r) : Kept held' destroyed (n + 1) := by
  intro r hr hzero
  rcases Nat.lt_succ_iff_lt_or_eq.mp hr with hr | rfl
  · exact h.mono hle r hr hzero
  · exact ⟨p, hp⟩

lemma destroy (h : Kept held destroyed n)
    (hle : ∀ x r', r' ≠ r → held x = some r' → held' x = some r') :
    Kept held' (Function.update destroyed r (destroyed r + 1)) n := by
  intro r' hr' hzero
  have hne : r' ≠ r := by
    rintro rfl
    rw [Function.update_self] at hzero
    exact Nat.succ_ne_zero _ hzero
  rw [Function.update_of_ne hne] at hzero
  obtain ⟨x, hx⟩ := h r' hr' hzero
  exact ⟨x, hle x r' hne hx⟩

/-- What nobody holds has been destroyed once. -/
lemma destroyed_eq_one (h : Kept held destroyed n) (howned : Owned held destroyed n) (hr : r < n)
    (hheld : ∀ p, held p ≠ some r) : destroyed r = 1 := by
  have honce := howned.once r
  by_contra hne
  obtain ⟨p, hp⟩ := h r hr (by omega)
  exact hheld p hp

end Kept

/-! ## Changing hands -/

variable [DecidableEq π]

/-- A step that creates a resource, hands one on, or destroys one. -/
inductive Transfer (held : π → Option ℕ) (destroyed : ℕ → ℕ) (n : ℕ) :
    (π → Option ℕ) → (ℕ → ℕ) → ℕ → Prop where
  | frame : Transfer held destroyed n held destroyed n
  | create (p : π) (hp : held p = none) :
      Transfer held destroyed n (Function.update held p (some n)) destroyed (n + 1)
  | move (p q : π) (r : ℕ) (hp : held p = some r) (hq : held q = none) :
      Transfer held destroyed n (Function.update (Function.update held p none) q (some r))
        destroyed n
  | destroy (p : π) (r : ℕ) (hp : held p = some r) :
      Transfer held destroyed n (Function.update held p none)
        (Function.update destroyed r (destroyed r + 1)) n

variable {destroyed' : ℕ → ℕ} {n' : ℕ}

/-- What a place holds that was emptied, another one held. -/
lemma update_none_eq_some {x : π} (h : Function.update held p none x = some r) :
    x ≠ p ∧ held x = some r := by
  by_cases heq : x = p
  · subst heq
    rw [Function.update_self] at h
    cases h
  · rw [Function.update_of_ne heq] at h
    exact ⟨heq, h⟩

lemma Owned.forget (h : Owned held destroyed n) :
    Owned (Function.update held p none) destroyed n :=
  h.mono fun _ _ hx => (update_none_eq_some hx).2

/-- **A transfer keeps every resource in one place.** -/
theorem Owned.transfer (h : Owned held destroyed n)
    (ht : Transfer held destroyed n held' destroyed' n') : Owned held' destroyed' n' := by
  cases ht with
  | frame => exact h
  | create p hp =>
    refine h.create (p := p) fun x r hx => ?_
    by_cases heq : x = p
    · subst heq
      rw [Function.update_self] at hx
      exact Or.inl ⟨rfl, (Option.some.inj hx).symm⟩
    · rw [Function.update_of_ne heq] at hx
      exact Or.inr hx
  | move p q r hp hq =>
    refine h.move (p := p) (q := q) fun x r' hx => ?_
    by_cases heq : x = q
    · subst heq
      rw [Function.update_self] at hx
      obtain rfl := Option.some.inj hx
      exact Or.inl ⟨rfl, hp⟩
    · rw [Function.update_of_ne heq] at hx
      exact Or.inr (update_none_eq_some hx)
  | destroy p r hp => exact h.destroy hp fun _ _ hx => update_none_eq_some hx

/-- **A transfer loses no resource.** -/
theorem Kept.transfer (h : Kept held destroyed n)
    (ht : Transfer held destroyed n held' destroyed' n') : Kept held' destroyed' n' := by
  cases ht with
  | frame => exact h
  | create p hp =>
    refine h.create (p := p) (Function.update_self _ _ _) fun x r hx => ?_
    have hne : x ≠ p := by
      rintro rfl
      cases hp.symm.trans hx
    rw [Function.update_of_ne hne, hx]
  | move p q r hp hq =>
    intro r' hr' hzero
    obtain ⟨x, hx⟩ := h r' hr' hzero
    by_cases heq : x = p
    · subst heq
      exact ⟨q, by rw [Function.update_self, ← hp, hx]⟩
    · have hne : x ≠ q := by
        rintro rfl
        cases hq.symm.trans hx
      exact ⟨x, by rw [Function.update_of_ne hne, Function.update_of_ne heq, hx]⟩
  | destroy p r hp =>
    refine h.destroy fun x r' hne hx => ?_
    have hxp : x ≠ p := by
      rintro rfl
      exact hne (Option.some.inj (hx.symm.trans hp))
    rw [Function.update_of_ne hxp, hx]

end Ownership
