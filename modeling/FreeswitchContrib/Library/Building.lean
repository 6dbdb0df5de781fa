import Mathlib.Data.List.Basic

/-!
# Building from checked parts

A builder reads the parts of an input one after the other and stores what it makes of them.  At a
part it may crash, or refuse the input and leave what it has stored up to there.
-/

namespace FreeswitchContrib

/-- What was built, and whether it was accepted; `none` is a crash. -/
abbrev Built (α : Type) := Option (α × Bool)

variable {α β : Type}

namespace Built

/-- What is built is stored, and the rest is only read if it was accepted. -/
def andThen (part : Built α) (store : α → β) (rest : β → Built β) : Built β :=
  match part with
  | none => none
  | some (a, false) => some (store a, false)
  | some (a, true) => rest (store a)

@[simp] lemma andThen_accepted (a : α) (store : α → β) (rest : β → Built β) :
    andThen (some (a, true)) store rest = rest (store a) := rfl

@[simp] lemma andThen_refused (a : α) (store : α → β) (rest : β → Built β) :
    andThen (some (a, false)) store rest = some (store a, false) := rfl

/-- What is accepted as a whole was accepted part by part. -/
lemma andThen_eq_accepted {part : Built α} {store : α → β} {rest : β → Built β} {b : β}
    (h : part.andThen store rest = some (b, true)) :
    ∃ a, part = some (a, true) ∧ rest (store a) = some (b, true) := by
  match part with
  | none => cases h
  | some (a, false) => cases h
  | some (a, true) => exact ⟨a, rfl, h⟩

/-- The last part. -/
def stored (part : Built α) (store : α → β) : Built β :=
  part.map fun built => (store built.1, built.2)

/-- What was built satisfies `P`, accepted or not. -/
def Sat (built : Built α) (P : α → Prop) : Prop := ∀ a accepted, built = some (a, accepted) → P a

@[simp] lemma sat_some {a : α} {accepted : Bool} {P : α → Prop} :
    Sat (some (a, accepted)) P ↔ P a := by
  constructor
  · intro h; exact h a accepted rfl
  · rintro h a' accepted' ⟨⟩; exact h

lemma Sat.stored {part : Built α} {store : α → β} {P : β → Prop} (h : ∀ a, P (store a)) :
    Sat (part.stored store) P := by
  intro b accepted heq
  obtain ⟨⟨a, _⟩, _, ha⟩ := Option.map_eq_some_iff.1 heq
  obtain ⟨rfl, _⟩ := Prod.mk.inj ha
  exact h a

lemma Sat.andThen_of_cases {part : Built α} {store : α → β} {rest : β → Built β} {P : β → Prop}
    (hrefused : ∀ a, part = some (a, false) → P (store a))
    (hrest : ∀ a, part = some (a, true) → Sat (rest (store a)) P) :
    Sat (part.andThen store rest) P := by
  intro b accepted heq
  match hpart : part with
  | none => cases heq
  | some (a, false) => cases heq; exact hrefused a rfl
  | some (a, true) => exact hrest a rfl b accepted heq

lemma Sat.andThen {part : Built α} {store : α → β} {rest : β → Built β} {P : β → Prop}
    (h : Sat part fun a => P (store a)) (hrest : ∀ b, P b → Sat (rest b) P) :
    Sat (part.andThen store rest) P :=
  Sat.andThen_of_cases (fun a heq => h a false heq) fun a heq => hrest _ (h a true heq)

end Built

/-! ## Verdicts -/

/-- What a check of the input comes to. -/
inductive Verdict where
  | accepted
  | refused
  | fatal
  deriving DecidableEq

/-- The checks of an input in the order in which they are made: the first that is not passed. -/
def firstVerdict : List Verdict → Verdict
  | [] => .accepted
  | .accepted :: checks => firstVerdict checks
  | verdict :: _ => verdict

def check (refused : Bool) : Verdict := if refused then .refused else .accepted

/-- The builder does what the checks say, and what it builds of an accepted input satisfies `P`. -/
def Reads (checks : List Verdict) (built : Built α) (P : α → Prop) : Prop :=
  match firstVerdict checks with
  | .accepted => ∃ a, built = some (a, true) ∧ P a
  | .refused => ∃ a, built = some (a, false)
  | .fatal => built = none

namespace Reads

variable {checks checks' : List Verdict} {part built : Built α} {P Q : α → Prop}

lemma accept {a : α} (h : P a) : Reads [] (some (a, true)) P := ⟨a, rfl, h⟩

lemma refuse {a : α} : Reads (.refused :: checks) (some (a, false)) P := ⟨a, rfl⟩

lemma crash : Reads (.fatal :: checks) none P := rfl

lemma pass (h : Reads checks built P) : Reads (.accepted :: checks) built P := h

lemma check_cons {refused : Bool} {a : α} (h : refused = false → Reads checks built P) :
    Reads (check refused :: checks) (if refused then some (a, false) else built) P := by
  cases refused with
  | false => exact h rfl
  | true => exact refuse

lemma imp (h : Reads checks built P) (hPQ : ∀ a, P a → Q a) : Reads checks built Q := by
  unfold Reads at h ⊢
  cases hv : firstVerdict checks with
  | accepted =>
    rw [hv] at h
    obtain ⟨a, heq, ha⟩ := h
    exact ⟨a, heq, hPQ a ha⟩
  | refused => rwa [hv] at h
  | fatal => rwa [hv] at h

lemma stored {store : α → β} {Q : β → Prop} (h : Reads checks part P)
    (hstore : ∀ a, P a → Q (store a)) : Reads checks (part.stored store) Q := by
  unfold Reads at h ⊢
  cases hv : firstVerdict checks with
  | accepted =>
    rw [hv] at h
    obtain ⟨a, rfl, ha⟩ := h
    exact ⟨store a, rfl, hstore a ha⟩
  | refused =>
    rw [hv] at h
    obtain ⟨a, rfl⟩ := h
    exact ⟨store a, rfl⟩
  | fatal =>
    rw [hv] at h
    subst h
    rfl

lemma firstVerdict_append (checks checks' : List Verdict) :
    firstVerdict (checks ++ checks') =
      if firstVerdict checks = .accepted then firstVerdict checks' else firstVerdict checks := by
  induction checks with
  | nil => rfl
  | cons verdict checks ih =>
    cases verdict with
    | accepted => exact ih
    | refused => rfl
    | fatal => rfl

lemma andThen {store : α → β} {rest : β → Built β} {Q : β → Prop} (h : Reads checks part P)
    (hrest : ∀ a, P a → Reads checks' (rest (store a)) Q) :
    Reads (checks ++ checks') (part.andThen store rest) Q := by
  unfold Reads at h ⊢
  rw [firstVerdict_append]
  cases hv : firstVerdict checks with
  | accepted =>
    rw [hv] at h
    obtain ⟨a, rfl, ha⟩ := h
    exact hrest a ha
  | refused =>
    rw [hv] at h
    obtain ⟨a, rfl⟩ := h
    exact ⟨store a, rfl⟩
  | fatal =>
    rw [hv] at h
    subst h
    rfl

end Reads

end FreeswitchContrib
