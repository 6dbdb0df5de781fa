import Mathlib.Data.List.Sort
import Mathlib.Data.List.Dedup
import Mathlib.Data.List.MinMax
import Mathlib.Order.Lattice

/-!
# Bounded least-cost tables

A stream of offers, each with a key and a cost, is summarised by a table of at most `m` entries:
one entry per key, at the least cost offered for that key, ascending, and when more than `m` keys
were offered the `m` cheapest of them.  `IsTable` says what such a table is, in a form an
insertion can preserve; `offer` is the insertion; `IsTable.costs_eq` says that the table's costs
are the `m` smallest of the per-key minima.

`IsTable.flatten` is the composition law: tables of size `k ≥ m` of the parts may stand for the
parts when a table of size `m` of the whole is built.  An offer evicted from a part had `k`
cheaper keys in that part, so it could not have been among the `m` cheapest of the whole.
-/

namespace LeastCost

variable {ρ κ γ : Type*} [LinearOrder γ] (key : ρ → κ) (cost : ρ → γ)

/-! ## Tables -/

/-- The table a stream of offers is summarised by: `complete` and `dominates` say that a key is
left out only by a full table, all of whose entries cost no more. -/
structure IsTable (m : ℕ) (offers table : List ρ) : Prop where
  nodup : (table.map key).Nodup
  sorted : table.Pairwise fun a b => cost a ≤ cost b
  offered : ∀ r ∈ table, ∃ o ∈ offers, key o = key r ∧ cost o = cost r
  least : ∀ r ∈ table, ∀ o ∈ offers, key o = key r → cost r ≤ cost o
  dominates : ∀ r ∈ table, ∀ o ∈ offers, key o ∉ table.map key → cost r ≤ cost o
  length_le : table.length ≤ m
  complete : table.length < m → ∀ o ∈ offers, key o ∈ table.map key

variable {key cost} {m k : ℕ} {offers offers' table : List ρ}

lemma IsTable.nil : IsTable key cost m [] [] where
  nodup := List.nodup_nil
  sorted := List.Pairwise.nil
  offered := by simp
  least := by simp
  dominates := by simp
  length_le := Nat.zero_le _
  complete := by simp

/-- Only which offers were made matters, not their order or number. -/
lemma IsTable.congr (h : IsTable key cost m offers table) (hmem : ∀ o, o ∈ offers ↔ o ∈ offers') :
    IsTable key cost m offers' table where
  nodup := h.nodup
  sorted := h.sorted
  offered := fun r hr => by
    obtain ⟨o, ho, hk⟩ := h.offered r hr
    exact ⟨o, (hmem o).mp ho, hk⟩
  least := fun r hr o ho => h.least r hr o ((hmem o).mpr ho)
  dominates := fun r hr o ho => h.dominates r hr o ((hmem o).mpr ho)
  length_le := h.length_le
  complete := fun hlt o ho => h.complete hlt o ((hmem o).mpr ho)

/-- A key that was offered and is not in the table was left out by a full table. -/
lemma IsTable.length_eq_of_notMem (h : IsTable key cost m offers table) {o : ρ} (ho : o ∈ offers)
    (hk : key o ∉ table.map key) : table.length = m := by
  by_contra hne
  exact hk (h.complete (lt_of_le_of_ne h.length_le hne) o ho)

/-- Entries of a table with the same key are the same entry. -/
lemma eq_of_key_eq (hnd : (table.map key).Nodup) {a b : ρ} (ha : a ∈ table) (hb : b ∈ table)
    (hab : key a = key b) : a = b :=
  List.inj_on_of_nodup_map hnd ha hb hab

/-! ## Placing an offer -/

/-- `r` placed after every entry that costs no more than it. -/
abbrev place (cost : ρ → γ) (r : ρ) (table : List ρ) : List ρ :=
  table.orderedInsert (fun a b => cost a < cost b) r

lemma place_eq (r : ρ) (table : List ρ) :
    place cost r table = (table.takeWhile fun b => decide (cost b ≤ cost r))
      ++ r :: table.dropWhile fun b => decide (cost b ≤ cost r) := by
  have h : (fun b => decide ¬cost r < cost b) = fun b => decide (cost b ≤ cost r) := by
    funext b
    simp
  rw [place, List.orderedInsert_eq_take_drop, h]

lemma place_sorted (r : ρ) : ∀ {table : List ρ}, table.Pairwise (fun a b => cost a ≤ cost b) →
    (place cost r table).Pairwise fun a b => cost a ≤ cost b
  | [], _ => by simp [place]
  | b :: l, h => by
      rw [List.pairwise_cons] at h
      by_cases hb : cost r < cost b
      · rw [place, List.orderedInsert_cons, if_pos hb, List.pairwise_cons, List.pairwise_cons]
        refine ⟨fun x hx => ?_, h⟩
        rcases List.mem_cons.mp hx with rfl | hx
        · exact hb.le
        · exact hb.le.trans (h.1 x hx)
      · rw [place, List.orderedInsert_cons, if_neg hb, List.pairwise_cons]
        refine ⟨fun x hx => ?_, place_sorted r h.2⟩
        rcases (List.mem_orderedInsert _).mp hx with rfl | hx
        · exact not_lt.mp hb
        · exact h.1 x hx

/-- Placing within the first `s` entries of a sorted list does not look at the others. -/
lemma take_succ_place (r : ρ) (table : List ρ) (s : ℕ)
    (h : (table.takeWhile fun b => decide (cost b ≤ cost r)).length ≤ s) :
    (place cost r table).take (s + 1) = place cost r (table.take s) := by
  induction table generalizing s with
  | nil => simp [place]
  | cons b l ih =>
      by_cases hb : cost r < cost b
      · cases s with
        | zero => simp [place, List.orderedInsert_cons, if_pos hb]
        | succ s => simp [place, List.orderedInsert_cons, if_pos hb]
      · have hle : cost b ≤ cost r := not_lt.mp hb
        rw [List.takeWhile_cons_of_pos (by simpa using hle), List.length_cons] at h
        obtain ⟨s, rfl⟩ : ∃ n, s = n + 1 := ⟨s - 1, by omega⟩
        rw [List.take_succ_cons, place, List.orderedInsert_cons, if_neg hb, place,
          List.orderedInsert_cons, if_neg hb, List.take_succ_cons, ih s (by omega)]

/-- Placing behind the first `s` entries leaves them alone. -/
lemma take_place_of_le (r : ρ) (table : List ρ) (s : ℕ)
    (h : s ≤ (table.takeWhile fun b => decide (cost b ≤ cost r)).length) :
    (place cost r table).take s = table.take s := by
  rw [place_eq, List.take_append_of_le_length h]
  conv_rhs => rw [← List.takeWhile_append_dropWhile (p := fun b => decide (cost b ≤ cost r))
    (l := table)]
  rw [List.take_append_of_le_length h]

variable [DecidableEq κ]

/-- The table after one more offer: a key that is present keeps its entry when that is cheaper and
has it replaced otherwise, a new key is placed and the costliest entry makes room. -/
def offer (key : ρ → κ) (cost : ρ → γ) (m : ℕ) (table : List ρ) (r : ρ) : List ρ :=
  match table.find? (fun e => decide (key e = key r)) with
  | some e =>
      if cost e < cost r then table
      else place cost r (table.eraseP fun e => decide (key e = key r))
  | none => (place cost r table).take m

lemma offer_of_notMem {r : ρ} (h : key r ∉ table.map key) :
    offer key cost m table r = (place cost r table).take m := by
  have hn : table.find? (fun e => decide (key e = key r)) = none := by
    rw [List.find?_eq_none]
    intro e he hke
    exact h (List.mem_map.mpr ⟨e, he, of_decide_eq_true hke⟩)
  rw [offer, hn]

lemma find?_of_mem (hnd : (table.map key).Nodup) {e r : ρ} (he : e ∈ table)
    (hk : key e = key r) : table.find? (fun e => decide (key e = key r)) = some e := by
  obtain ⟨e', he'⟩ : ∃ e', table.find? (fun e => decide (key e = key r)) = some e' := by
    rw [← Option.isSome_iff_exists]
    exact List.find?_isSome.mpr ⟨e, he, decide_eq_true hk⟩
  have hk' : key e' = key r := by simpa using List.find?_some he'
  rw [he', eq_of_key_eq hnd (List.mem_of_find?_eq_some he') he (hk'.trans hk.symm)]

lemma offer_of_mem_lt (hnd : (table.map key).Nodup) {e r : ρ} (he : e ∈ table)
    (hk : key e = key r) (hlt : cost e < cost r) : offer key cost m table r = table := by
  rw [offer, find?_of_mem hnd he hk]
  exact if_pos hlt

lemma offer_of_mem_le (hnd : (table.map key).Nodup) {e r : ρ} (he : e ∈ table)
    (hk : key e = key r) (hle : cost r ≤ cost e) : offer key cost m table r
      = place cost r (table.eraseP fun e => decide (key e = key r)) := by
  rw [offer, find?_of_mem hnd he hk]
  exact if_neg (not_lt.mpr hle)

/-- What is left after the entry of a key is taken out. -/
lemma mem_eraseP_iff (hnd : (table.map key).Nodup) {e r : ρ} (he : e ∈ table)
    (hk : key e = key r) (x : ρ) :
    x ∈ (table.eraseP fun e => decide (key e = key r)) ↔ x ∈ table ∧ key x ≠ key r := by
  constructor
  · intro hx
    refine ⟨List.mem_of_mem_eraseP hx, fun hkx => ?_⟩
    obtain ⟨a, l₁, l₂, -, ha, htab, her⟩ :=
      List.exists_of_eraseP he (p := fun e => decide (key e = key r)) (decide_eq_true hk)
    rw [her] at hx
    rw [htab, List.map_append, List.map_cons, List.nodup_append] at hnd
    have hka : key a = key r := by simpa using ha
    rcases List.mem_append.mp hx with hx | hx
    · exact hnd.2.2 (key x) (List.mem_map_of_mem hx) (key a) (by simp) (hkx.trans hka.symm)
    · have h2 := (List.nodup_cons.mp hnd.2.1).1
      exact h2 (by rw [hka, ← hkx]; exact List.mem_map_of_mem hx)
  · rintro ⟨hx, hne⟩
    exact (List.mem_eraseP_of_neg (by simpa using hne)).mpr hx

/-! ## The step: one more offer -/

lemma map_perm_cons_eraseP (hnd : (table.map key).Nodup) {e r : ρ} (he : e ∈ table)
    (hk : key e = key r) : (e :: table.eraseP fun e => decide (key e = key r)).Perm table := by
  obtain ⟨a, l₁, l₂, -, ha, htab, her⟩ :=
    List.exists_of_eraseP he (p := fun e => decide (key e = key r)) (decide_eq_true hk)
  have hka : key a = key r := by simpa using ha
  have hae : a = e := eq_of_key_eq hnd (by rw [htab]; simp) he (hka.trans hk.symm)
  rw [her, htab, hae]
  exact List.perm_middle.symm

/-- Replacing the entry of a key keeps the keys. -/
lemma keys_place_eraseP (hnd : (table.map key).Nodup) {e r : ρ} (he : e ∈ table)
    (hk : key e = key r) :
    ((place cost r (table.eraseP fun e => decide (key e = key r))).map key).Perm
      (table.map key) := by
  have h1 := (List.perm_orderedInsert (fun a b => cost a < cost b) r
    (table.eraseP fun e => decide (key e = key r))).map key
  have h2 := (map_perm_cons_eraseP hnd he hk).map key
  rw [List.map_cons] at h1 h2
  exact h1.trans (hk ▸ h2)

/-- The replacement case: the key is present at no lower a cost. -/
lemma IsTable.replace (h : IsTable key cost m offers table) {e r : ρ} (he : e ∈ table)
    (hk : key e = key r) (hle : cost r ≤ cost e) : IsTable key cost m (offers ++ [r])
      (place cost r (table.eraseP fun e => decide (key e = key r))) := by
  set rest := table.eraseP fun e => decide (key e = key r) with hrest
  have hmem : ∀ x, x ∈ place cost r rest ↔ x = r ∨ (x ∈ table ∧ key x ≠ key r) := fun x => by
    rw [List.mem_orderedInsert, hrest, mem_eraseP_iff h.nodup he hk]
  have hkeys : ((place cost r rest).map key).Perm (table.map key) :=
    keys_place_eraseP h.nodup he hk
  have hlen : (place cost r rest).length = table.length := by
    simpa using hkeys.length_eq
  constructor
  · exact hkeys.nodup_iff.mpr h.nodup
  · exact place_sorted r (h.sorted.sublist List.eraseP_sublist)
  · intro x hx
    rcases (hmem x).mp hx with rfl | ⟨hx, -⟩
    · exact ⟨x, by simp, rfl, rfl⟩
    · obtain ⟨o, ho, hko⟩ := h.offered x hx
      exact ⟨o, by simp [ho], hko⟩
  · intro x hx o ho hko
    rcases (hmem x).mp hx with rfl | ⟨hx, hne⟩
    · rcases List.mem_append.mp ho with ho | ho
      · exact hle.trans (h.least e he o ho (hko.trans hk.symm))
      · rw [List.mem_singleton.mp ho]
    · rcases List.mem_append.mp ho with ho | ho
      · exact h.least x hx o ho hko
      · exact absurd (hko ▸ congrArg key (List.mem_singleton.mp ho)) hne
  · intro x hx o ho hko
    rw [hkeys.mem_iff] at hko
    have ho' : o ∈ offers := by
      rcases List.mem_append.mp ho with ho | ho
      · exact ho
      · rw [List.mem_singleton.mp ho, ← hk] at hko
        exact absurd (List.mem_map_of_mem he) hko
    rcases (hmem x).mp hx with rfl | ⟨hx, -⟩
    · exact hle.trans (h.dominates e he o ho' hko)
    · exact h.dominates x hx o ho' hko
  · rw [hlen]
    exact h.length_le
  · intro hlt o ho
    rw [hkeys.mem_iff]
    rcases List.mem_append.mp ho with ho | ho
    · exact h.complete (hlen ▸ hlt) o ho
    · rw [List.mem_singleton.mp ho, ← hk]
      exact List.mem_map_of_mem he

/-- The insertion case: the key is new to the table. -/
lemma IsTable.insert (h : IsTable key cost m offers table) {r : ρ} (hk : key r ∉ table.map key) :
    IsTable key cost m (offers ++ [r]) ((place cost r table).take m) := by
  have hsorted := place_sorted r h.sorted
  have hsplit := List.take_append_drop m (place cost r table)
  have hnd : ((place cost r table).map key).Nodup := by
    rw [((List.perm_orderedInsert (fun a b => cost a < cost b) r table).map key).nodup_iff,
      List.map_cons, List.nodup_cons]
    exact ⟨hk, h.nodup⟩
  have hlen : (place cost r table).length = table.length + 1 := List.orderedInsert_length _ _ _
  have hsub : ∀ x ∈ (place cost r table).take m, x = r ∨ x ∈ table := fun x hx =>
    (List.mem_orderedInsert _).mp (List.mem_of_mem_take hx)
  -- an entry that does not fit costs at least as much as every entry that does
  have hcut : ∀ x ∈ (place cost r table).take m, ∀ y ∈ (place cost r table).drop m,
      cost x ≤ cost y := by
    rw [← hsplit, List.pairwise_append] at hsorted
    exact hsorted.2.2
  have hin : ∀ y, y = r ∨ y ∈ table → key y ∉ ((place cost r table).take m).map key →
      y ∈ (place cost r table).drop m := by
    intro y hy hky
    have hy : y ∈ (place cost r table).take m ++ (place cost r table).drop m := by
      rw [hsplit, List.mem_orderedInsert]
      exact hy
    exact (List.mem_append.mp hy).resolve_left fun hy => hky (List.mem_map_of_mem hy)
  -- an older offer of the key of `r` was left out by a full table
  have holder : ∀ x ∈ (place cost r table).take m, ∀ o ∈ offers, key o ∉ table.map key →
      cost x ≤ cost o := by
    intro x hx o ho hko
    rcases hsub x hx with rfl | hx'
    · have hfull := h.length_eq_of_notMem ho hko
      obtain ⟨y, hy⟩ : ∃ y, y ∈ (place cost x table).drop m := by
        apply List.exists_mem_of_length_pos
        rw [List.length_drop]
        omega
      have hyt : y ∈ table := by
        rcases (List.mem_orderedInsert _).mp (List.mem_of_mem_drop hy) with rfl | hyt
        · rw [← hsplit, List.map_append, List.nodup_append] at hnd
          exact absurd rfl (hnd.2.2 _ (List.mem_map_of_mem hx) _ (List.mem_map_of_mem hy))
        · exact hyt
      exact (hcut x hx y hy).trans (h.dominates y hyt o ho hko)
    · exact h.dominates x hx' o ho hko
  constructor
  · exact hnd.sublist ((List.take_sublist m _).map key)
  · exact hsorted.sublist (List.take_sublist m _)
  · intro x hx
    rcases hsub x hx with rfl | hx
    · exact ⟨x, by simp, rfl, rfl⟩
    · obtain ⟨o, ho, hko⟩ := h.offered x hx
      exact ⟨o, by simp [ho], hko⟩
  · intro x hx o ho hko
    rcases List.mem_append.mp ho with ho' | ho
    · rcases hsub x hx with rfl | hx'
      · exact holder x hx o ho' (hko ▸ hk)
      · exact h.least x hx' o ho' hko
    · rw [List.mem_singleton.mp ho] at hko ⊢
      rcases hsub x hx with rfl | hx'
      · exact le_rfl
      · exact absurd (hko ▸ List.mem_map_of_mem hx') hk
  · intro x hx o ho hko
    rcases List.mem_append.mp ho with ho | ho
    · by_cases hkt : key o ∈ table.map key
      · obtain ⟨e, he, hke⟩ := List.mem_map.mp hkt
        have hdrop := hin e (Or.inr he) (hke ▸ hko)
        exact (hcut x hx e hdrop).trans (h.least e he o ho hke.symm)
      · exact holder x hx o ho hkt
    · rw [List.mem_singleton.mp ho] at hko ⊢
      exact hcut x hx r (hin r (Or.inl rfl) hko)
  · exact (List.length_take_le _ _)
  · intro hlt o ho
    rw [List.length_take] at hlt
    have hall : (place cost r table).take m = place cost r table :=
      List.take_of_length_le (by omega)
    rw [hall]
    rcases List.mem_append.mp ho with ho | ho
    · obtain ⟨e, he, hke⟩ := List.mem_map.mp (h.complete (by omega) o ho)
      exact List.mem_map.mpr ⟨e, (List.mem_orderedInsert _).mpr (Or.inr he), hke⟩
    · rw [List.mem_singleton.mp ho]
      exact List.mem_map_of_mem ((List.mem_orderedInsert _).mpr (Or.inl rfl))

/-- **One step.**  An offer keeps a table a table. -/
theorem IsTable.offer (h : IsTable key cost m offers table) (r : ρ) :
    IsTable key cost m (offers ++ [r]) (LeastCost.offer key cost m table r) := by
  by_cases hk : key r ∈ table.map key
  · obtain ⟨e, he, hke⟩ := List.mem_map.mp hk
    by_cases hlt : cost e < cost r
    · rw [offer_of_mem_lt h.nodup he hke hlt]
      -- a dearer offer of a key that is present changes nothing
      refine ⟨h.nodup, h.sorted, fun x hx => ?_, fun x hx o ho hko => ?_, fun x hx o ho hko => ?_,
        h.length_le, fun hl o ho => ?_⟩
      · obtain ⟨o, ho, hko⟩ := h.offered x hx
        exact ⟨o, by simp [ho], hko⟩
      · rcases List.mem_append.mp ho with ho | ho
        · exact h.least x hx o ho hko
        · rw [List.mem_singleton.mp ho] at hko ⊢
          rw [eq_of_key_eq h.nodup hx he (hko.symm.trans hke.symm)]
          exact hlt.le
      · rcases List.mem_append.mp ho with ho | ho
        · exact h.dominates x hx o ho hko
        · exact absurd hk (List.mem_singleton.mp ho ▸ hko)
      · rcases List.mem_append.mp ho with ho | ho
        · exact h.complete hl o ho
        · rw [List.mem_singleton.mp ho]
          exact hk
    · rw [offer_of_mem_le h.nodup he hke (not_lt.mp hlt)]
      exact h.replace he hke (not_lt.mp hlt)
  · rw [offer_of_notMem hk]
    exact h.insert hk

/-! ## Composition: tables of the parts -/

omit [DecidableEq κ] in
/-- A full part table whose entries all cost less than `c` leaves no room, in a whole of size
`m ≤ k`, for an entry at cost `c`: one of its keys is missing from the whole. -/
lemma exists_key_notMem (hm : m ≤ k) {part : List ρ} (hnd : (part.map key).Nodup)
    (hfull : part.length = k) (hlen : table.length ≤ m) {r : ρ} (hr : r ∈ table)
    (hkr : key r ∉ part.map key) : ∃ e ∈ part, key e ∉ table.map key := by
  by_contra hall
  push Not at hall
  have hsub : ∀ x ∈ key r :: part.map key, x ∈ table.map key := by
    intro x hx
    rcases List.mem_cons.mp hx with rfl | hx
    · exact List.mem_map_of_mem hr
    · obtain ⟨e, he, rfl⟩ := List.mem_map.mp hx
      exact hall e he
  have hle := (List.subperm_of_subset (List.nodup_cons.mpr ⟨hkr, hnd⟩) hsub).length_le
  simp only [List.length_cons, List.length_map] at hle
  omega

omit [DecidableEq κ] in
/-- **Composition.**  If every part is summarised by a table of size `k` and a table of size
`m ≤ k` summarises the entries of the part tables, it summarises the parts. -/
theorem IsTable.flatten {parts : List (List ρ × List ρ)} (hm : m ≤ k)
    (hparts : ∀ p ∈ parts, IsTable key cost k p.1 p.2)
    (h : IsTable key cost m (parts.flatMap Prod.snd) table) :
    IsTable key cost m (parts.flatMap Prod.fst) table := by
  have hent : ∀ p ∈ parts, ∀ e ∈ p.2, e ∈ parts.flatMap Prod.snd := fun p hp e he =>
    List.mem_flatMap.mpr ⟨p, hp, he⟩
  -- an offer evicted from its part: the part's table is full and costs no more
  have hevict : ∀ p ∈ parts, ∀ o ∈ p.1, key o ∉ p.2.map key →
      p.2.length = k ∧ ∀ e ∈ p.2, cost e ≤ cost o := fun p hp o ho hko =>
    ⟨(hparts p hp).length_eq_of_notMem ho hko, fun e he => (hparts p hp).dominates e he o ho hko⟩
  constructor
  · exact h.nodup
  · exact h.sorted
  · intro r hr
    obtain ⟨e, he, hke, hce⟩ := h.offered r hr
    obtain ⟨p, hp, hep⟩ := List.mem_flatMap.mp he
    obtain ⟨o, ho, hko, hco⟩ := (hparts p hp).offered e hep
    exact ⟨o, List.mem_flatMap.mpr ⟨p, hp, ho⟩, hko.trans hke, hco.trans hce⟩
  · intro r hr o ho hko
    obtain ⟨p, hp, hop⟩ := List.mem_flatMap.mp ho
    by_cases hin : key o ∈ p.2.map key
    · obtain ⟨e, he, hke⟩ := List.mem_map.mp hin
      exact (h.least r hr e (hent p hp e he) (hke.trans hko)).trans
        ((hparts p hp).least e he o hop hke.symm)
    · obtain ⟨hfull, hcost⟩ := hevict p hp o hop hin
      obtain ⟨e, he, hke⟩ := exists_key_notMem hm (hparts p hp).nodup hfull h.length_le hr
        (hko ▸ hin)
      exact (h.dominates r hr e (hent p hp e he) hke).trans (hcost e he)
  · intro r hr o ho hko
    obtain ⟨p, hp, hop⟩ := List.mem_flatMap.mp ho
    by_cases hin : key o ∈ p.2.map key
    · obtain ⟨e, he, hke⟩ := List.mem_map.mp hin
      exact (h.dominates r hr e (hent p hp e he) (hke ▸ hko)).trans
        ((hparts p hp).least e he o hop hke.symm)
    · obtain ⟨hfull, hcost⟩ := hevict p hp o hop hin
      by_cases hkr : key r ∈ p.2.map key
      · obtain ⟨e, he, hke⟩ := List.mem_map.mp hkr
        exact (h.least r hr e (hent p hp e he) hke).trans (hcost e he)
      · obtain ⟨e, he, hke⟩ := exists_key_notMem hm (hparts p hp).nodup hfull h.length_le hr hkr
        exact (h.dominates r hr e (hent p hp e he) hke).trans (hcost e he)
  · exact h.length_le
  · intro hlt o ho
    obtain ⟨p, hp, hop⟩ := List.mem_flatMap.mp ho
    by_cases hin : key o ∈ p.2.map key
    · obtain ⟨e, he, hke⟩ := List.mem_map.mp hin
      exact hke ▸ h.complete hlt e (hent p hp e he)
    · -- a part that evicts is full, and a table with room would hold all of its `k ≥ m` keys
      obtain ⟨hfull, -⟩ := hevict p hp o hop hin
      have hsub : ∀ x ∈ p.2.map key, x ∈ table.map key := by
        intro x hx
        obtain ⟨e, he, rfl⟩ := List.mem_map.mp hx
        exact h.complete hlt e (hent p hp e he)
      have hle := (List.subperm_of_subset (hparts p hp).nodup hsub).length_le
      simp only [List.length_map] at hle
      omega

/-! ## The per-key minima -/

/-- The least cost offered for a key. -/
def leastCost (key : ρ → κ) (cost : ρ → γ) (offers : List ρ) (x : κ) : Option γ :=
  ((offers.filter fun o => decide (key o = x)).map cost).min?

/-- The least cost of each key that was offered. -/
def minima (key : ρ → κ) (cost : ρ → γ) (offers : List ρ) : List γ :=
  (offers.map key).dedup.filterMap (leastCost key cost offers)

lemma leastCost_eq_some_iff {x : κ} {c : γ} : leastCost key cost offers x = some c ↔
    (∃ o ∈ offers, key o = x ∧ cost o = c) ∧ ∀ o ∈ offers, key o = x → c ≤ cost o := by
  rw [leastCost, List.min?_eq_some_iff]
  simp only [List.mem_map, List.mem_filter, decide_eq_true_eq, forall_exists_index, and_imp]
  constructor
  · rintro ⟨⟨o, ⟨ho, hk⟩, hc⟩, hle⟩
    exact ⟨⟨o, ho, hk, hc⟩, fun o' ho' hk' => hle _ o' ho' hk' rfl⟩
  · rintro ⟨⟨o, ho, hk, hc⟩, hle⟩
    refine ⟨⟨o, ⟨ho, hk⟩, hc⟩, fun b o' ho' hk' hb => ?_⟩
    exact hb ▸ hle o' ho' hk'

lemma IsTable.leastCost_eq (h : IsTable key cost m offers table) {r : ρ} (hr : r ∈ table) :
    leastCost key cost offers (key r) = some (cost r) :=
  leastCost_eq_some_iff.mpr ⟨h.offered r hr, h.least r hr⟩

/-- **The costs of a table are the `m` smallest of the per-key minima.** -/
theorem IsTable.costs_eq (h : IsTable key cost m offers table) :
    table.map cost = ((minima key cost offers).mergeSort fun a b => decide (a ≤ b)).take m := by
  set rest := (offers.map key).dedup.filter fun x => decide (x ∉ table.map key) with hrest
  set others := rest.filterMap (leastCost key cost offers) with hothers
  have hkeys : (offers.map key).dedup.Perm (table.map key ++ rest) := by
    refine (List.perm_ext_iff_of_nodup (List.nodup_dedup _) ?_).mpr fun x => ?_
    · rw [List.nodup_append]
      refine ⟨h.nodup, (List.nodup_dedup _).filter _, fun a ha b hb hab => ?_⟩
      rw [hrest, List.mem_filter] at hb
      exact of_decide_eq_true hb.2 (hab ▸ ha)
    · rw [List.mem_append, hrest, List.mem_filter, List.mem_dedup]
      constructor
      · intro hx
        by_cases hxt : x ∈ table.map key
        · exact Or.inl hxt
        · exact Or.inr ⟨hx, decide_eq_true hxt⟩
      · rintro (hx | hx)
        · obtain ⟨r, hr, rfl⟩ := List.mem_map.mp hx
          obtain ⟨o, ho, hko, -⟩ := h.offered r hr
          exact hko ▸ List.mem_map_of_mem ho
        · exact hx.1
  have hcosts : (table.map key).filterMap (leastCost key cost offers) = table.map cost := by
    rw [List.filterMap_map, ← List.filterMap_eq_map]
    refine List.filterMap_congr fun r hr => ?_
    exact h.leastCost_eq hr
  have hperm : (minima key cost offers).Perm (table.map cost ++ others) := by
    rw [← hcosts, hothers, ← List.filterMap_append]
    exact hkeys.filterMap _
  -- what was left out costs at least as much as what is in the table
  have hle : ∀ a ∈ table.map cost, ∀ b ∈ others, a ≤ b := by
    intro a ha b hb
    obtain ⟨r, hr, rfl⟩ := List.mem_map.mp ha
    obtain ⟨x, hx, hxb⟩ := List.mem_filterMap.mp hb
    obtain ⟨⟨o, ho, hko, hco⟩, -⟩ := leastCost_eq_some_iff.mp hxb
    rw [hrest, List.mem_filter] at hx
    exact hco ▸ h.dominates r hr o ho (hko ▸ of_decide_eq_true hx.2)
  have hsort : (minima key cost offers).mergeSort (fun a b => decide (a ≤ b))
      = table.map cost ++ others.mergeSort fun a b => decide (a ≤ b) := by
    have htrans : ∀ a b c : γ, decide (a ≤ b) = true → decide (b ≤ c) = true →
        decide (a ≤ c) = true := fun a b c hab hbc => by
      simp only [decide_eq_true_eq] at *
      exact hab.trans hbc
    have htotal : ∀ a b : γ, (decide (a ≤ b) || decide (b ≤ a)) = true := fun a b => by
      simpa using le_total a b
    refine List.Perm.eq_of_pairwise (fun a b _ _ => le_antisymm) ?_ ?_
      ((List.mergeSort_perm _ _).trans (hperm.trans
        ((List.mergeSort_perm others _).symm.append_left _)))
    · simpa using List.pairwise_mergeSort htrans htotal (minima key cost offers)
    · rw [List.pairwise_append]
      refine ⟨List.pairwise_map.mpr h.sorted, ?_, fun a ha b hb => hle a ha b ?_⟩
      · simpa using List.pairwise_mergeSort htrans htotal others
      · exact (List.mergeSort_perm others _).mem_iff.mp hb
  rw [hsort]
  by_cases hfull : table.length = m
  · rw [List.take_append_of_le_length (by simp [hfull]), List.take_of_length_le (by simp [hfull])]
  · have hnone : rest = [] := by
      rw [hrest, List.filter_eq_nil_iff]
      intro x hx
      obtain ⟨o, ho, rfl⟩ := List.mem_map.mp (List.mem_dedup.mp hx)
      simpa using h.complete (lt_of_le_of_ne h.length_le hfull) o ho
    rw [hothers, hnone, List.filterMap_nil, List.mergeSort_nil, List.append_nil,
      List.take_of_length_le (by simpa using h.length_le)]

end LeastCost
