import Mathlib.Logic.Function.Basic

/-!
# Interleavings

A system of threads takes one step after the other.  `next` says what an action does to the state,
and `none` that it cannot be taken there: a thread that waits for a lock has no step.  A run is a
list of actions; which thread takes which is up to the list.

`run_invariant` is the rule for what holds in every run, `run_invariant_of_always` the one for the
runs that keep to a condition on their steps.

A state can have the history of the run, a list of events.  `IsLast` is where an event of a kind was
last: what a thread does since it has started.
-/

namespace Interleaving

variable {σ α : Type} {next : σ → α → Option σ} {s s' s₁ : σ} {a : α} {as bs : List α}
  {I : σ → Prop} {G : σ → α → Prop}

/-- The state after a list of actions, when all of them can be taken. -/
def run (next : σ → α → Option σ) : σ → List α → Option σ
  | s, [] => some s
  | s, a :: as => (next s a).bind fun s' => run next s' as

/-- Every step of a list of actions is taken under this condition. -/
def Always (next : σ → α → Option σ) (G : σ → α → Prop) : σ → List α → Prop
  | _, [] => True
  | s, a :: as => G s a ∧ ∀ s', next s a = some s' → Always next G s' as

@[simp] lemma run_nil (next : σ → α → Option σ) (s : σ) : run next s [] = some s := rfl

lemma run_cons_eq_some_iff :
    run next s (a :: as) = some s' ↔ ∃ s₁, next s a = some s₁ ∧ run next s₁ as = some s' := by
  rw [run, Option.bind_eq_some_iff]

lemma run_append : ∀ (as : List α) (s : σ),
    run next s (as ++ bs) = (run next s as).bind fun s' => run next s' bs
  | [], _ => rfl
  | a :: as, s => by
    rw [List.cons_append, run, run]
    cases next s a with
    | none => rfl
    | some s₁ => exact run_append as s₁

lemma always_cons (hG : G s a) (hnext : next s a = some s') (h : Always next G s' as) :
    Always next G s (a :: as) :=
  ⟨hG, fun _ h' => Option.some.inj (hnext.symm.trans h') ▸ h⟩

/-- A list of actions can be gone through to see under which condition its steps are. -/
instance decidableAlways [∀ s a, Decidable (G s a)] :
    ∀ (s : σ) (as : List α), Decidable (Always next G s as)
  | _, [] => .isTrue trivial
  | s, a :: as =>
    match h : next s a with
    | none => decidable_of_iff (G s a) ⟨fun hG => ⟨hG, fun s' h' => by simp [h] at h'⟩, And.left⟩
    | some s' =>
      have := decidableAlways s' as
      decidable_of_iff (G s a ∧ Always next G s' as)
        ⟨fun hG => always_cons hG.1 h hG.2, fun hG => ⟨hG.1, hG.2 s' h⟩⟩

lemma always_of_forall : ∀ {as : List α} {s : σ}, (∀ a ∈ as, ∀ s, G s a) → Always next G s as
  | [], _, _ => trivial
  | a :: _, s, h => ⟨h a List.mem_cons_self s,
      fun _ _ => always_of_forall fun a' ha' => h a' (List.mem_cons_of_mem a ha')⟩

/-- **What steps under a condition keep, runs under it keep.** -/
theorem run_invariant_of_always (hstep : ∀ s a s', I s → G s a → next s a = some s' → I s') :
    ∀ {as : List α} {s : σ}, I s → Always next G s as → run next s as = some s' → I s'
  | [], s, hI, _, h => by
    obtain rfl : s = s' := Option.some.inj h
    exact hI
  | a :: as, s, hI, hG, h => by
    obtain ⟨s₁, h₁, h⟩ := run_cons_eq_some_iff.mp h
    exact run_invariant_of_always hstep (hstep s a s₁ hI hG.1 h₁) (hG.2 s₁ h₁) h

/-- **What every step keeps, every run keeps.** -/
theorem run_invariant (hstep : ∀ s a s', I s → next s a = some s' → I s') (hI : I s)
    (h : run next s as = some s') : I s' :=
  run_invariant_of_always (fun s a s' hI (_ : True) => hstep s a s' hI) hI
    (always_of_forall fun _ _ _ => trivial) h

/-! ## Histories -/

section

variable {ε : Type} {p : ε → Prop} {h before before' after after' l : List ε} {e e' : ε}

/-- The last event of this kind, and what was before and after it. -/
structure IsLast (p : ε → Prop) (h before : List ε) (e : ε) (after : List ε) : Prop where
  eq : h = before ++ e :: after
  kind : p e
  none : ∀ x ∈ after, ¬ p x

lemma isLast_snoc (hp : p e) : IsLast p (h ++ [e]) h e [] := ⟨rfl, hp, by simp⟩

lemma IsLast.append (hlast : IsLast p h before e after) (hl : ∀ x ∈ l, ¬ p x) :
    IsLast p (h ++ l) before e (after ++ l) where
  eq := by rw [hlast.eq, List.append_assoc, List.cons_append]
  kind := hlast.kind
  none x hx := (List.mem_append.mp hx).elim (hlast.none x) (hl x)

lemma IsLast.unique (hlast : IsLast p h before e after) (hlast' : IsLast p h before' e' after') :
    before = before' ∧ e = e' ∧ after = after' := by
  have heq := hlast.eq.symm.trans hlast'.eq
  rcases List.append_eq_append_iff.mp heq with ⟨l, rfl, hl⟩ | ⟨l, rfl, hl⟩
  · cases l with
    | nil => simpa using hl
    | cons x l =>
      obtain ⟨rfl, rfl⟩ := List.cons_eq_cons.mp hl
      exact absurd hlast'.kind (hlast.none e' (by simp))
  · cases l with
    | nil => simpa [eq_comm] using hl
    | cons x l =>
      obtain ⟨rfl, rfl⟩ := List.cons_eq_cons.mp hl
      exact absurd hlast.kind (hlast'.none e (by simp))

end

end Interleaving
