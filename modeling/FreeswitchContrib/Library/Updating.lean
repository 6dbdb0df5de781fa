import Mathlib.Data.List.Basic
import Mathlib.Data.List.Induction
import Mathlib.Data.List.Nodup
import Mathlib.Logic.Function.Basic

/-!
# Maps that are filled from a list

A loop over a list that puts a value under a key for each element.  Of several elements with one key
the last one stays.  `foldl_overwrite` is the same for a single variable, which some of the elements
overwrite.
-/

namespace Updating

variable {α β γ : Type} [DecidableEq α] {key : β → α} {l : List β} {a : α} {x : β}

/-- A key that no element has keeps its value. -/
theorem foldl_update_of_notMem (value : β → γ) (h : a ∉ l.map key) (m : α → γ) :
    l.foldl (fun m x => Function.update m (key x) (value x)) m a = m a := by
  induction l generalizing m with
  | nil => rfl
  | cons x l ih =>
    rw [List.map_cons, List.mem_cons, not_or] at h
    rw [List.foldl_cons, ih h.2, Function.update_of_ne h.1]

/-- With distinct keys every element's value stays. -/
theorem foldl_update_of_mem (value : β → γ) (hdistinct : (l.map key).Nodup) (h : x ∈ l)
    (m : α → γ) : l.foldl (fun m x => Function.update m (key x) (value x)) m (key x) = value x := by
  induction l generalizing m with
  | nil => exact absurd h List.not_mem_nil
  | cons y l ih =>
    rw [List.map_cons, List.nodup_cons] at hdistinct
    rw [List.foldl_cons]
    rcases List.mem_cons.1 h with rfl | h
    · rw [foldl_update_of_notMem value hdistinct.1, Function.update_self]
    · exact ih hdistinct.2 h _

/-- **The last element with the key stays.** -/
theorem foldl_update_eq (key : β → α) (value : β → γ) (l : List β) (m : α → γ) (a : α) :
    l.foldl (fun m x => Function.update m (key x) (value x)) m a =
      ((l.reverse.find? fun x => key x = a).map value).getD (m a) := by
  induction l using List.reverseRecOn with
  | nil => rfl
  | append_singleton l x ih =>
    rw [List.foldl_concat, List.reverse_concat, List.find?_cons]
    by_cases hkey : key x = a
    · rw [decide_eq_true hkey, hkey, Function.update_self, Option.map_some, Option.getD_some]
    · rw [decide_eq_false hkey, Function.update_of_ne (Ne.symm hkey), ih]

/-- **What the last element writes stays**, where `Inv` is all that a turn has to know of the rest of
the state. -/
theorem foldl_overwrite {σ : Type} {step : σ → β → σ} (get : σ → γ) (write : β → Option γ)
    (Inv : σ → Prop) (hstep : ∀ s, Inv s → ∀ x,
      Inv (step s x) ∧ get (step s x) = (write x).getD (get s)) (l : List β) {s : σ} (h : Inv s) :
    get (l.foldl step s) = (l.filterMap write).getLast?.getD (get s) := by
  induction l generalizing s with
  | nil => rfl
  | cons x l ih =>
    obtain ⟨hinv, hget⟩ := hstep s h x
    rw [List.foldl_cons, ih hinv, hget, List.filterMap_cons]
    cases write x with
    | none => rfl
    | some c =>
      cases hlast : (l.filterMap write).getLast? with
      | none => rw [List.getLast?_eq_none_iff.1 hlast]; rfl
      | some d => rw [List.getLast?_cons, hlast]; rfl

end Updating
