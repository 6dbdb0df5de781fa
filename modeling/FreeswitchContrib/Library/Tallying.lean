import FreeswitchContrib.Library.Faulting
import Mathlib.Algebra.Group.Basic

/-!
# What a program adds to a tally

A property of the states with a tally, which has values in an additive monoid, and how much a
program adds to the tally wherever it returns.  The property may just say what has been counted.

* `Adds` — what the program adds is the same on every path.
* **`adds_foldlM`**, `adds_forM`, `adds_mapM` — a loop of which no turn adds anything.
-/

namespace Tallying

open Faulting

variable {φ σ α β M : Type} [AddCommMonoid M] {I : M → σ → Prop} {w w' : M}

/-- Where the program returns, the property holds with this added to the tally. -/
def Adds (I : M → σ → Prop) (m : StateT σ (Except φ) α) (w : M) : Prop :=
  ∀ n, Sat (fun _ => True) (I n) m fun _ => I (n + w)

/-- It holds beside what else is known of the program. -/
lemma Adds.with {allowed : φ → Prop} {P : σ → Prop} {m : StateT σ (Except φ) α}
    {Q : α → σ → Prop} (h : Adds I m w) (hm : Sat allowed P m Q) (n : M) :
    Sat allowed (fun s => P s ∧ I n s) m fun a s => Q a s ∧ I (n + w) s := by
  intro s hs
  have hsat := hm s hs.1
  cases hrun : m.run s with
  | error fault =>
    rw [hrun] at hsat
    exact hsat
  | ok result =>
    rw [hrun] at hsat
    exact ⟨hsat, (h n).ok hs.2 hrun⟩

lemma adds_pure {a : α} : Adds I (pure a : StateT σ (Except φ) α) 0 :=
  fun n => sat_pure fun _ hs => (add_zero n).symm ▸ hs

lemma adds_throw {fault : φ} : Adds I (throw fault : StateT σ (Except φ) α) w :=
  fun _ => sat_throw fun _ _ => trivial

lemma adds_get : Adds I (get : StateT σ (Except φ) σ) 0 :=
  fun n => sat_get fun _ hs => (add_zero n).symm ▸ hs

lemma adds_modify {f : σ → σ} (h : ∀ n s, I n s → I (n + w) (f s)) :
    Adds I (modify f : StateT σ (Except φ) PUnit) w :=
  fun n => sat_modify (h n)

lemma adds_bind {m : StateT σ (Except φ) α} {f : α → StateT σ (Except φ) β}
    (hm : Adds I m w) (hf : ∀ a, Adds I (f a) w') : Adds I (m >>= f) (w + w') :=
  fun n => sat_bind (hm n) fun a => (hf a (n + w)).mono (fun _ hs => hs) fun _ _ hs =>
    add_assoc n w w' ▸ hs

/-- What comes before it adds nothing. -/
lemma adds_after {m : StateT σ (Except φ) α} {f : α → StateT σ (Except φ) β}
    (hm : Adds I m 0) (hf : ∀ a, Adds I (f a) w) : Adds I (m >>= f) w := by
  have h := adds_bind hm hf
  rw [zero_add] at h
  exact h

/-- What is known of the result of what comes before may be used. -/
lemma adds_after_of {m : StateT σ (Except φ) α} {f : α → StateT σ (Except φ) β} {p : α → Prop}
    (hm : ∀ n, Sat (fun _ => True) (I n) m fun a s => I n s ∧ p a)
    (hf : ∀ a, p a → Adds I (f a) w) : Adds I (m >>= f) w :=
  fun n => sat_bind_of (hm n) fun a ha => hf a ha n

lemma adds_ite {c : Prop} [Decidable c] {m m' : StateT σ (Except φ) α}
    (h : Adds I m w) (h' : Adds I m' w) : Adds I (if c then m else m') w := by
  split_ifs
  · exact h
  · exact h'

theorem adds_foldlM {f : β → α → StateT σ (Except φ) β} (h : ∀ b a, Adds I (f b a) 0)
    (entries : List α) (b : β) : Adds I (entries.foldlM f b) 0 := by
  induction entries generalizing b with
  | nil => exact adds_pure
  | cons a rest ih =>
    rw [List.foldlM_cons]
    exact adds_after (h b a) ih

lemma adds_forM {f : α → StateT σ (Except φ) PUnit} {entries : List α}
    (h : ∀ a ∈ entries, Adds I (f a) 0) : Adds I (entries.forM f) 0 := by
  induction entries with
  | nil => exact adds_pure
  | cons a rest ih =>
    exact adds_after (h a List.mem_cons_self) fun _ =>
      ih fun a ha => h a (List.mem_cons_of_mem _ ha)

lemma adds_mapM {f : α → StateT σ (Except φ) β} (h : ∀ a, Adds I (f a) 0)
    (entries : List α) : Adds I (entries.mapM f) 0 := by
  induction entries with
  | nil =>
    rw [List.mapM_nil]
    exact adds_pure
  | cons a rest ih =>
    rw [List.mapM_cons]
    exact adds_after (h a) fun _ => adds_after ih fun _ => adds_pure

end Tallying
