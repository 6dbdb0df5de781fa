import Mathlib.Data.List.Basic
import Mathlib.Tactic.SplitIfs

/-!
# Programs that may fault

Programs over a state that may come to a fault, and rules for what holds where they return.  A fault
that is not `allowed` must not be reached.

* `Sat` — started where `P` holds, the program returns where `Q` holds, or faults as is allowed.
* **`sat_foldlM`** — a loop over a list, by an invariant of one turn.
-/

namespace Faulting

variable {φ σ α β : Type}

/-- From every state with `P` the program returns a result and a state with `Q`, unless it comes to
a fault that is allowed. -/
def Sat (allowed : φ → Prop) (P : σ → Prop) (m : StateT σ (Except φ) α) (Q : α → σ → Prop) : Prop :=
  ∀ s, P s →
    match m.run s with
    | .ok (a, s') => Q a s'
    | .error fault => allowed fault

variable {allowed : φ → Prop} {P P' : σ → Prop} {Q Q' : α → σ → Prop} {R : β → σ → Prop}

/-- What a program returns with. -/
lemma Sat.ok {m : StateT σ (Except φ) α} (h : Sat allowed P m Q) {s s' : σ} {a : α} (hs : P s)
    (hrun : m.run s = .ok (a, s')) : Q a s' := by
  have hsat := h s hs
  rw [hrun] at hsat
  exact hsat

lemma Sat.error {m : StateT σ (Except φ) α} (h : Sat allowed P m Q) {s : σ} {fault : φ}
    (hs : P s) (hrun : m.run s = .error fault) : allowed fault := by
  have hsat := h s hs
  rw [hrun] at hsat
  exact hsat

lemma sat_pure {a : α} (h : ∀ s, P s → Q a s) : Sat allowed P (pure a) Q := h

lemma sat_throw {fault : φ} (h : ∀ s, P s → allowed fault) :
    Sat allowed P (throw fault : StateT σ (Except φ) α) Q := h

lemma sat_get {Q : σ → σ → Prop} (h : ∀ s, P s → Q s s) :
    Sat allowed P (get : StateT σ (Except φ) σ) Q := h

lemma sat_modify {f : σ → σ} {Q : PUnit → σ → Prop} (h : ∀ s, P s → Q ⟨⟩ (f s)) :
    Sat allowed P (modify f : StateT σ (Except φ) PUnit) Q := h

/-- What the first program returns with is what the second one starts with. -/
lemma sat_bind {m : StateT σ (Except φ) α} {f : α → StateT σ (Except φ) β}
    (hm : Sat allowed P m Q) (hf : ∀ a, Sat allowed (Q a) (f a) R) :
    Sat allowed P (m >>= f) R := by
  intro s hs
  have hfirst := hm s hs
  rw [StateT.run_bind]
  cases hrun : m.run s with
  | error fault =>
    rw [hrun] at hfirst
    exact hfirst
  | ok result =>
    rw [hrun] at hfirst
    exact hf result.1 result.2 hfirst

lemma sat_ite {c : Prop} [Decidable c] {m m' : StateT σ (Except φ) α}
    (h : c → Sat allowed P m Q) (h' : ¬ c → Sat allowed P m' Q) :
    Sat allowed P (if c then m else m') Q := by
  split_ifs with hc
  · exact h hc
  · exact h' hc

lemma Sat.mono {m : StateT σ (Except φ) α} (h : Sat allowed P m Q) (hP : ∀ s, P' s → P s)
    (hQ : ∀ a s, Q a s → Q' a s) : Sat allowed P' m Q' := by
  intro s hs
  have hrun := h s (hP s hs)
  cases hresult : m.run s with
  | error fault =>
    rw [hresult] at hrun
    exact hrun
  | ok result =>
    rw [hresult] at hrun
    exact hQ _ _ hrun

/-- More faults may be allowed. -/
lemma Sat.allow {allowed' : φ → Prop} {m : StateT σ (Except φ) α} (h : Sat allowed P m Q)
    (hallowed : ∀ fault, allowed fault → allowed' fault) : Sat allowed' P m Q := by
  intro s hs
  have hrun := h s hs
  cases hresult : m.run s with
  | error fault =>
    rw [hresult] at hrun
    exact hallowed fault hrun
  | ok result =>
    rw [hresult] at hrun
    exact hrun

/-- What is known of a program in two ways. -/
lemma Sat.and {m : StateT σ (Except φ) α} (h : Sat allowed P m Q)
    (h' : Sat (fun _ => True) P' m Q') :
    Sat allowed (fun s => P s ∧ P' s) m fun a s => Q a s ∧ Q' a s := by
  intro s hs
  have hrun := h s hs.1
  have hrun' := h' s hs.2
  cases hresult : m.run s with
  | error fault =>
    rw [hresult] at hrun
    exact hrun
  | ok result =>
    rw [hresult] at hrun hrun'
    exact ⟨hrun, hrun'⟩

/-- A fact that does not depend on the state may be used. -/
lemma sat_of {p : Prop} {m : StateT σ (Except φ) α} (hp : ∀ s, P s → p)
    (h : p → Sat allowed P m Q) : Sat allowed P m Q :=
  fun s hs => h (hp s hs) s hs

/-- The state that a program starts in may be named. -/
lemma sat_of_eq {m : StateT σ (Except φ) α} (h : ∀ s, P s → Sat allowed (· = s) m Q) :
    Sat allowed P m Q :=
  fun s hs => h s hs s rfl

lemma sat_exists {ι : Type} {P : ι → σ → Prop} {m : StateT σ (Except φ) α}
    (h : ∀ i, Sat allowed (P i) m Q) : Sat allowed (fun s => ∃ i, P i s) m Q :=
  fun s ⟨i, hs⟩ => h i s hs

/-- What the result of the first program is known to be may be used in the second one. -/
lemma sat_bind_of {m : StateT σ (Except φ) α} {f : α → StateT σ (Except φ) β} {p : α → Prop}
    (hm : Sat allowed P m fun a s => Q a s ∧ p a)
    (hf : ∀ a, p a → Sat allowed (Q a) (f a) R) : Sat allowed P (m >>= f) R :=
  sat_bind hm fun a s hs => hf a hs.2 s hs.1

/-- **A loop** keeps what every turn of it keeps. -/
theorem sat_foldlM {f : β → α → StateT σ (Except φ) β} {entries : List α} (I : β → σ → Prop)
    (h : ∀ b, ∀ a ∈ entries, Sat allowed (I b) (f b a) I) (b : β) :
    Sat allowed (I b) (entries.foldlM f b) I := by
  induction entries generalizing b with
  | nil => exact sat_pure fun _ hs => hs
  | cons a rest ih =>
    rw [List.foldlM_cons]
    exact sat_bind (h b a List.mem_cons_self) fun b' =>
      ih (fun b a ha => h b a (List.mem_cons_of_mem _ ha)) b'

/-- What a loop keeps may depend on the entries that it is done with. -/
theorem sat_foldlM_before {f : β → α → StateT σ (Except φ) β} {entries : List α}
    (J : List α → β → σ → Prop) (h : ∀ done a rest b, entries = done ++ a :: rest →
      Sat allowed (J done b) (f b a) (J (done ++ [a]))) (b : β) :
    Sat allowed (J [] b) (entries.foldlM f b) (J entries) := by
  have hrest (rest done : List α) (b : β) (hentries : entries = done ++ rest) :
      Sat allowed (J done b) (rest.foldlM f b) (J entries) := by
    induction rest generalizing done b with
    | nil =>
      rw [List.append_nil] at hentries
      exact sat_pure fun _ hs => hentries ▸ hs
    | cons a rest ih =>
      rw [List.foldlM_cons]
      exact sat_bind (h done a rest b hentries) fun b' =>
        ih (done ++ [a]) b' (by rw [hentries, List.append_assoc]; rfl)
  exact hrest entries [] b rfl

lemma sat_forM {f : α → StateT σ (Except φ) PUnit} {I : σ → Prop} {entries : List α}
    (h : ∀ a ∈ entries, Sat allowed I (f a) fun _ => I) :
    Sat allowed I (entries.forM f) fun _ => I := by
  induction entries with
  | nil => exact sat_pure fun _ hs => hs
  | cons a rest ih =>
    exact sat_bind (h a List.mem_cons_self) fun _ =>
      ih fun a ha => h a (List.mem_cons_of_mem _ ha)

lemma sat_mapM {f : α → StateT σ (Except φ) β} {I : σ → Prop} {entries : List α}
    (h : ∀ a ∈ entries, Sat allowed I (f a) fun _ => I) :
    Sat allowed I (entries.mapM f) fun _ => I := by
  induction entries with
  | nil =>
    rw [List.mapM_nil]
    exact sat_pure fun _ hs => hs
  | cons a rest ih =>
    rw [List.mapM_cons]
    refine sat_bind (h a List.mem_cons_self) fun _ => ?_
    exact sat_bind (ih fun a ha => h a (List.mem_cons_of_mem _ ha)) fun _ =>
      sat_pure fun _ hs => hs

end Faulting
