import Mathlib.Data.List.Basic

/-!
# Mutual exclusion

Parties that go on one after the other, each for the sake of a key.  `Exclusive` says that at most
one of them is engaged for a key.  A party that goes on without becoming engaged keeps it, and one
that becomes engaged where nobody is.
-/

namespace Exclusion

variable {α κ : Type} {engaged engaged' : α → Prop} {key : α → κ} {parties new : List α} {i j : ℕ}
  {a a' b : α}

def Exclusive (engaged : α → Prop) (key : α → κ) (parties : List α) : Prop :=
  ∀ (i j : ℕ) (a b : α), parties[i]? = some a → parties[j]? = some b → engaged a → engaged b →
    key a = key b → i = j

lemma getElem?_set_eq_some (h : (parties.set i a')[j]? = some b) :
    (j = i ∧ b = a') ∨ (j ≠ i ∧ parties[j]? = some b) := by
  by_cases hij : i = j
  · subst hij
    rw [List.getElem?_set_self'] at h
    cases hi : parties[i]? with
    | none => simp [hi] at h
    | some a => exact .inl ⟨rfl, by simpa [hi] using h.symm⟩
  · rw [List.getElem?_set_ne hij] at h
    exact .inr ⟨Ne.symm hij, h⟩

lemma mem_set_cases (h : b ∈ parties.set i a') :
    b = a' ∨ ∃ j, j ≠ i ∧ parties[j]? = some b := by
  obtain ⟨j, hj⟩ := List.mem_iff_getElem?.mp h
  rcases getElem?_set_eq_some hj with ⟨-, rfl⟩ | ⟨hne, hj⟩
  · exact .inl rfl
  · exact .inr ⟨j, hne, hj⟩

lemma mem_set_self (hi : parties[i]? = some a) (a' : α) : a' ∈ parties.set i a' := by
  obtain ⟨hlt, -⟩ := List.getElem?_eq_some_iff.mp hi
  exact List.mem_set hlt a'

lemma mem_set_of_ne (hj : parties[j]? = some b) (hne : j ≠ i) (a' : α) :
    b ∈ parties.set i a' :=
  List.mem_iff_getElem?.mpr ⟨j, (List.getElem?_set_ne (Ne.symm hne)).trans hj⟩

namespace Exclusive

lemma mono (h : Exclusive engaged key parties) (hle : ∀ a, engaged' a → engaged a) :
    Exclusive engaged' key parties :=
  fun i j a b hi hj ha hb => h i j a b hi hj (hle a ha) (hle b hb)

/-- One party has gone on and is not engaged if it was not. -/
lemma set_of_imp (h : Exclusive engaged key parties) (hi : parties[i]? = some a)
    (himp : engaged a' → engaged a) (hkey : key a' = key a) :
    Exclusive engaged key (parties.set i a') := by
  intro j k b c hj hk hb hc hbc
  rcases getElem?_set_eq_some hj with ⟨rfl, rfl⟩ | ⟨-, hj'⟩
  · rcases getElem?_set_eq_some hk with ⟨rfl, -⟩ | ⟨-, hk'⟩
    · rfl
    · exact h _ _ a c hi hk' (himp hb) hc (hkey.symm.trans hbc)
  · rcases getElem?_set_eq_some hk with ⟨rfl, rfl⟩ | ⟨-, hk'⟩
    · exact h _ _ b a hj' hi hb (himp hc) (hbc.trans hkey)
    · exact h _ _ b c hj' hk' hb hc hbc

/-- One party becomes engaged for a key for which nobody is. -/
lemma set_of_free (h : Exclusive engaged key parties)
    (hfree : ∀ b ∈ parties, engaged b → key b ≠ key a') :
    Exclusive engaged key (parties.set i a') := by
  intro j k b c hj hk hb hc hbc
  rcases getElem?_set_eq_some hj with ⟨rfl, rfl⟩ | ⟨-, hj'⟩
  · rcases getElem?_set_eq_some hk with ⟨rfl, -⟩ | ⟨-, hk'⟩
    · rfl
    · exact absurd hbc.symm (hfree c (List.mem_of_getElem? hk') hc)
  · rcases getElem?_set_eq_some hk with ⟨rfl, rfl⟩ | ⟨-, hk'⟩
    · exact absurd hbc (hfree b (List.mem_of_getElem? hj') hb)
    · exact h _ _ b c hj' hk' hb hc hbc

/-- New parties, of which none is engaged. -/
lemma append (h : Exclusive engaged key parties) (hnew : ∀ b ∈ new, ¬ engaged b) :
    Exclusive engaged key (parties ++ new) := by
  have hold : ∀ {j : ℕ} {b : α}, (parties ++ new)[j]? = some b → engaged b →
      parties[j]? = some b := by
    intro j b hj hb
    rcases Nat.lt_or_ge j parties.length with hlt | hge
    · rwa [List.getElem?_append_left hlt] at hj
    · rw [List.getElem?_append_right hge] at hj
      exact absurd hb (hnew b (List.mem_of_getElem? hj))
  intro j k b c hj hk hb hc hbc
  exact h j k b c (hold hj hb) (hold hk hc) hb hc hbc

/-- Who is engaged for the key of an engaged party is that party. -/
lemma eq_of_mem (h : Exclusive engaged key parties) (hi : parties[i]? = some a) (ha : engaged a)
    (hj : parties[j]? = some b) (hb : engaged b) (hne : j ≠ i) : key b ≠ key a :=
  fun hkey => hne (h j i b a hj hi hb ha hkey)

end Exclusive

end Exclusion
