import FreeswitchContrib.SimpleLcr.LeastCostLookup
import Mathlib.Data.Finset.Card
import Mathlib.Order.Interval.Finset.Nat

/-!
# Arrays with a slot for every carrier

The arrays of a database are as large as there are carriers, and hold routes of one type, so there
is always a slot for another carrier.  `Addition` says what an addition does to the entries then.
Clean additions keep an array `Whole`: it shows every carrier that was added, at its least cost.  An
addition that is not clean hides the carrier it is for, and leaves the array `Broken` as long as no
carrier is added twice.
-/

namespace FreeswitchContrib.SimpleLcr

open LeastCost

variable {array : RouteArray} {live offers routes : List Route} {r : Route} {n : ℕ}
  {type : RouteType} {added : List RouteValue}

/-! ## One addition -/

/-- The entries after an addition to an array with slots `live` in use. -/
inductive Addition (array : RouteArray) (live : List Route) (r : Route) : List Route → Prop
  | dropped {e : Route} (he : e ∈ array.entries) (hk : e.key = r.key) (hlt : e.cost < r.cost)
      (hclean : AddsCleanly array r) : Addition array live r array.entries
  | replaced {i : ℕ} {e : Route} (he : array.entries[i]? = some e) (hk : e.key = r.key)
      (hle : r.cost ≤ e.cost) (hclean : AddsCleanly array r) :
      Addition array live r (place Route.cost r (array.entries.eraseIdx i))
  /-- the last entry, which costs the same -/
  | kept (hr : r ∈ array.entries) (hclean : AddsCleanly array r) :
      Addition array live r array.entries
  /-- the copy of the last entry is shown instead -/
  | lost {i : ℕ} {e last : Route} (he : array.entries[i]? = some e) (hk : e.key = r.key)
      (hlast : last ∈ array.entries.eraseIdx i) (hclean : ¬AddsCleanly array r) :
      Addition array live r (array.entries.eraseIdx i ++ [last])
  | placed (hk : r.key ∉ array.entries.map Route.key) (hclean : AddsCleanly array r) :
      Addition array live r (place Route.cost r array.entries)
  /-- a slot behind the entries is shown instead -/
  | hidden {slot : Route} (hk : r.key ∉ array.entries.map Route.key) (hslot : slot ∈ live)
      (hclean : ¬AddsCleanly array r) : Addition array live r (array.entries ++ [slot])

namespace Packed

/-- What an addition does, if there is a slot for a new pair. -/
theorem addition (h : Packed array live) (hr : r.value ≠ 0) (hmax : array.maxSize ≤ 255)
    (hroom : r.key ∉ array.entries.map Route.key → array.size < array.maxSize) :
    Addition array live r (routeArrayAdd array r).entries := by
  have hsizeLe := array.size_le
  by_cases hk : r.key ∈ array.entries.map Route.key
  · obtain ⟨i, e, hi, hlt, he, hke, -⟩ := findByValueAndType_of_mem hk
    have hcleanIff := addsCleanly_iff_of_found hi hlt he
    rw [routeArrayAdd_of_found hi hlt he]
    by_cases hcost : e.cost < r.cost
    · rw [if_pos hcost]
      exact .dropped (List.mem_of_getElem? he) hke hcost (hcleanIff.mpr (Or.inl hcost))
    rw [if_neg hcost]
    by_cases hidx : routeArrayFindByCost (routeArrayRemove array i) r.cost
        ≤ (routeArrayRemove array i).size
    · have hroom' : (routeArrayRemove array i).size < (routeArrayRemove array i).maxSize := by
        rw [size_remove hlt, maxSize_remove]
        omega
      have hmax' : (routeArrayRemove array i).maxSize ≤ 255 := by rwa [maxSize_remove]
      rw [(h.remove hlt).entries_room_of_le hr hroom' hmax' hidx, h.entries_remove hlt]
      exact .replaced he hke (not_lt.mp hcost) (hcleanIff.mpr (Or.inr (Or.inl hidx)))
    have hbe : array.size - 1 < array.entries.length := by
      rw [length_entries]
      omega
    rw [h.entries_replace_of_gt hr hmax hlt (List.getElem?_eq_getElem hbe) (not_le.mp hidx)]
    by_cases hend : i + 1 = array.size
    · -- only a route of the same cost is placed behind the copy
      have heq : e.cost = r.cost :=
        le_antisymm (Tracks.findByCost_remove_last h hend he (not_le.mp hidx)) (not_lt.mp hcost)
      obtain rfl : e = r := Route.ext_of_key hke heq
      have hlast : array.entries[array.size - 1] = e := by
        obtain ⟨_, hget⟩ := List.getElem?_eq_some_iff.mp he
        simp only [← hget, ← hend, Nat.add_sub_cancel]
      rw [hlast, eraseIdx_last_append hend he]
      exact .kept (List.mem_of_getElem? he) (hcleanIff.mpr (Or.inr (Or.inr ⟨hend, heq⟩)))
    · refine .lost he hke ?_ fun hclean => ?_
      · rw [List.mem_eraseIdx_iff_getElem]
        exact ⟨array.size - 1, hbe, by omega, rfl⟩
      · rcases hcleanIff.mp hclean with hlt' | hle | ⟨hend', -⟩
        · exact hcost hlt'
        · exact hidx hle
        · exact hend hend'
  · have hcleanIff := addsCleanly_iff_of_notMem hk
    rw [routeArrayAdd_of_notMem hk]
    by_cases hidx : routeArrayFindByCost array r.cost ≤ array.size
    · rw [h.entries_room_of_le hr (hroom hk) hmax hidx]
      exact .placed hk (hcleanIff.mpr hidx)
    · have hle : routeArrayFindByCost array r.cost ≤ live.length := by
        rw [h.findByCost_eq]
        exact (List.takeWhile_sublist _).length_le
      have hb : array.size < live.length := by omega
      have hshown : live.take (array.size + 1) = array.entries ++ [live[array.size]] := by
        rw [h.entries_eq, List.take_append_getElem]
      rw [h.entries_room_of_gt hr (hroom hk) hmax (not_le.mp hidx), hshown]
      exact .hidden hk (List.getElem_mem hb) fun hclean => hidx (hcleanIff.mp hclean)

end Packed

namespace Addition

variable {entries' : List Route}

/-- There is an entry more if the pair is not shown. -/
lemma length (h : Addition array live r entries') : entries'.length =
    if r.key ∈ array.entries.map Route.key then array.size else array.size + 1 := by
  have herase : ∀ {i : ℕ} {e : Route}, array.entries[i]? = some e →
      (array.entries.eraseIdx i).length + 1 = array.size := by
    intro i e he
    obtain ⟨hi, -⟩ := List.getElem?_eq_some_iff.mp he
    rw [List.length_eraseIdx_of_lt hi, length_entries]
    rw [length_entries] at hi
    omega
  cases h with
  | dropped he hk => rw [if_pos (hk ▸ List.mem_map_of_mem he), length_entries]
  | replaced he hk =>
    rw [if_pos (hk ▸ List.mem_map_of_mem (List.mem_of_getElem? he)), List.orderedInsert_length,
      herase he]
  | kept he => rw [if_pos (List.mem_map_of_mem he), length_entries]
  | lost he hk =>
    rw [if_pos (hk ▸ List.mem_map_of_mem (List.mem_of_getElem? he)), List.length_append,
      List.length_singleton, herase he]
  | placed hk => rw [if_neg hk, List.orderedInsert_length, length_entries]
  | hidden hk => rw [if_neg hk, List.length_append, List.length_singleton, length_entries]

/-- The entries of other pairs stay. -/
lemma mem_of_mem (h : Addition array live r entries') {e : Route} (he : e ∈ array.entries)
    (hk : e.key ≠ r.key) : e ∈ entries' := by
  have herase : ∀ {i : ℕ} {e' : Route}, array.entries[i]? = some e' → e'.key = r.key →
      e ∈ array.entries.eraseIdx i := by
    intro i e' he' hk'
    obtain ⟨j, hj, rfl⟩ := List.getElem_of_mem he
    rw [List.mem_eraseIdx_iff_getElem]
    refine ⟨j, hj, ?_, rfl⟩
    rintro rfl
    rw [List.getElem?_eq_getElem hj] at he'
    exact hk (Option.some.inj he' ▸ hk')
  cases h with
  | dropped => exact he
  | replaced he' hk' => exact (List.mem_orderedInsert _).mpr (Or.inr (herase he' hk'))
  | kept => exact he
  | lost he' hk' => exact List.mem_append_left _ (herase he' hk')
  | placed => exact (List.mem_orderedInsert _).mpr (Or.inr he)
  | hidden => exact List.mem_append_left _ he

/-- What a clean addition shows of the pair. -/
lemma shows_of_clean (h : Addition array live r entries') (hclean : AddsCleanly array r)
    (hnd : (array.entries.map Route.key).Nodup) : ∃ e ∈ entries', e.key = r.key ∧
      e.cost ≤ r.cost ∧ ∀ x ∈ array.entries, x.key = r.key → e.cost ≤ x.cost := by
  cases h with
  | @dropped e he hk hlt =>
    refine ⟨e, he, hk, hlt.le, fun x hx hkx => ?_⟩
    rw [eq_of_key_eq hnd he hx (hk.trans hkx.symm)]
  | @replaced i e he hk hle =>
    refine ⟨r, (List.mem_orderedInsert _).mpr (Or.inl rfl), rfl, le_rfl, fun x hx hkx => ?_⟩
    rwa [← eq_of_key_eq hnd (List.mem_of_getElem? he) hx (hk.trans hkx.symm)]
  | kept he =>
    refine ⟨r, he, rfl, le_rfl, fun x hx hkx => ?_⟩
    rw [eq_of_key_eq hnd he hx hkx.symm]
  | lost _ _ _ hunclean => exact absurd hclean hunclean
  | placed hk =>
    refine ⟨r, (List.mem_orderedInsert _).mpr (Or.inl rfl), rfl, le_rfl, fun x hx hkx => ?_⟩
    exact absurd (hkx ▸ List.mem_map_of_mem hx) hk
  | hidden _ _ hunclean => exact absurd hclean hunclean

/-- An addition shows no other pair, unless it hides its own. -/
lemma notMem_or_sub (h : Addition array live r entries')
    (hlive : r.key ∉ array.entries.map Route.key → ∀ x ∈ live, x.key ≠ r.key) :
    r.key ∉ entries'.map Route.key ∨
      ∀ x ∈ entries', x.key = r.key ∨ x.key ∈ array.entries.map Route.key := by
  have hplace : ∀ l : List Route, (∀ x ∈ l, x ∈ array.entries) → ∀ x ∈ place Route.cost r l,
      x.key = r.key ∨ x.key ∈ array.entries.map Route.key := by
    intro l hl x hx
    rcases (List.mem_orderedInsert _).mp hx with rfl | hx
    · exact Or.inl rfl
    · exact Or.inr (List.mem_map_of_mem (hl x hx))
  cases h with
  | dropped => exact Or.inr fun x hx => Or.inr (List.mem_map_of_mem hx)
  | replaced => exact Or.inr (hplace _ fun x hx => List.mem_of_mem_eraseIdx hx)
  | kept => exact Or.inr fun x hx => Or.inr (List.mem_map_of_mem hx)
  | lost _ _ hlast =>
    refine Or.inr fun x hx => Or.inr (List.mem_map_of_mem ?_)
    rcases List.mem_append.mp hx with hx | hx
    · exact List.mem_of_mem_eraseIdx hx
    · exact List.mem_singleton.mp hx ▸ List.mem_of_mem_eraseIdx hlast
  | placed => exact Or.inr (hplace _ fun x hx => hx)
  | hidden hk hslot =>
    left
    rw [List.map_append, List.mem_append, List.map_singleton, List.mem_singleton, not_or]
    exact ⟨hk, fun hkey => hlive hk _ hslot hkey.symm⟩

/-- A clean addition shows no pair twice. -/
lemma nodup_of_clean (h : Addition array live r entries') (hclean : AddsCleanly array r)
    (hnd : (array.entries.map Route.key).Nodup) : (entries'.map Route.key).Nodup := by
  have hplace : ∀ l : List Route, ((place Route.cost r l).map Route.key).Nodup ↔
      r.key ∉ l.map Route.key ∧ (l.map Route.key).Nodup := by
    intro l
    rw [((List.perm_orderedInsert (fun a b : Route => a.cost < b.cost) r l).map
      Route.key).nodup_iff, List.map_cons, List.nodup_cons]
  cases h with
  | dropped => exact hnd
  | @replaced i e he hk =>
    obtain ⟨hi, hget⟩ := List.getElem?_eq_some_iff.mp he
    have hperm := (List.getElem_cons_eraseIdx_perm hi).map Route.key
    rw [hget, List.map_cons, hk] at hperm
    exact (hplace _).mpr (List.nodup_cons.mp (hperm.nodup_iff.mpr hnd))
  | kept => exact hnd
  | lost _ _ _ hunclean => exact absurd hclean hunclean
  | placed hk => exact (hplace _).mpr ⟨hk, hnd⟩
  | hidden _ _ hunclean => exact absurd hclean hunclean

/-- An addition that is not clean hides its pair, if no pair was shown twice and none hidden. -/
lemma notMem_of_not_clean (h : Addition array live r entries') (hunclean : ¬AddsCleanly array r)
    (hnd : (array.entries.map Route.key).Nodup)
    (hlive : ∀ x ∈ live, x.key ∈ array.entries.map Route.key) :
    r.key ∉ entries'.map Route.key := by
  cases h with
  | dropped _ _ _ hclean => exact absurd hclean hunclean
  | replaced _ _ _ hclean => exact absurd hclean hunclean
  | kept _ hclean => exact absurd hclean hunclean
  | @lost i e last he hk hlast =>
    obtain ⟨hi, hget⟩ := List.getElem?_eq_some_iff.mp he
    have hperm := (List.getElem_cons_eraseIdx_perm hi).map Route.key
    rw [hget, List.map_cons, hk] at hperm
    have hnotMem := (List.nodup_cons.mp (hperm.nodup_iff.mpr hnd)).1
    rw [List.map_append, List.mem_append, not_or]
    refine ⟨hnotMem, fun hmem => hnotMem ?_⟩
    rw [List.map_singleton, List.mem_singleton] at hmem
    exact hmem ▸ List.mem_map_of_mem hlast
  | placed _ hclean => exact absurd hclean hunclean
  | @hidden slot hk hslot =>
    rw [List.map_append, List.mem_append, not_or]
    refine ⟨hk, fun hmem => hk ?_⟩
    rw [List.map_singleton, List.mem_singleton] at hmem
    exact hmem ▸ hlive slot hslot

end Addition

/-! ## All carriers -/

/-- A route of one of `n` carriers. -/
structure OfCarriers (n : ℕ) (type : RouteType) (r : Route) : Prop where
  type_eq : r.type = type
  ne_zero : r.value ≠ 0
  le : r.value.val ≤ n

lemma OfCarriers.key_eq_iff {a b : Route} (ha : OfCarriers n type a) (hb : OfCarriers n type b) :
    a.key = b.key ↔ a.value = b.value := by
  simp [Route.key, ha.type_eq, hb.type_eq]

lemma card_carriers_le {seen : Finset RouteValue} (h : ∀ v ∈ seen, v ≠ 0 ∧ v.val ≤ n) :
    seen.card ≤ n := by
  have hsub : seen.map Fin.valEmbedding ⊆ Finset.Icc 1 n := by
    intro m hm
    obtain ⟨v, hv, rfl⟩ := Finset.mem_map.mp hm
    obtain ⟨hne, hle⟩ := h v hv
    have hpos : v.val ≠ 0 := fun h0 => hne (Fin.ext h0)
    exact Finset.mem_Icc.mpr ⟨Nat.pos_of_ne_zero hpos, hle⟩
  have hcard := Finset.card_le_card hsub
  rw [Finset.card_map, Nat.card_Icc] at hcard
  omega

/-- The carriers of some routes. -/
def carriersOf (routes : List Route) : Finset RouteValue := (routes.map Route.value).toFinset

lemma mem_carriersOf {v : RouteValue} : v ∈ carriersOf routes ↔ ∃ r ∈ routes, r.value = v := by
  simp [carriersOf]

lemma carriersOf_snoc (routes : List Route) (r : Route) :
    carriersOf (routes ++ [r]) = insert r.value (carriersOf routes) := by
  ext v
  simp [carriersOf, eq_comm]

/-- An array with a slot for each of `n` carriers, to which `offers` have been added; it has as many
entries as these have carriers. -/
structure Counts (n : ℕ) (type : RouteType) (offers : List Route) (array : RouteArray)
    (live : List Route) : Prop extends Packed array live where
  maxSize : array.maxSize = n
  size : array.size = (carriersOf offers).card
  offered : ∀ r ∈ offers, OfCarriers n type r
  live_offered : ∀ r ∈ live, r ∈ offers

namespace Counts

lemma create (type : RouteType) (hn : n ≤ 255) : Counts n type [] (routeArrayCreate n) [] where
  toPacked := Packed.create n
  maxSize := Nat.mod_eq_of_lt (by omega)
  size := rfl
  offered := by simp
  live_offered := by simp

lemma entries_offered (h : Counts n type offers array live) {e : Route} (he : e ∈ array.entries) :
    e ∈ offers := by
  rw [h.entries_eq] at he
  exact h.live_offered e (List.mem_of_mem_take he)

/-- There is a slot for a carrier that has not been added. -/
lemma room (h : Counts n type offers array live) (hr : OfCarriers n type r)
    (hnew : r.value ∉ carriersOf offers) : array.size < array.maxSize := by
  have hcard : (carriersOf (offers ++ [r])).card ≤ n := by
    refine card_carriers_le fun v hv => ?_
    obtain ⟨o, ho, rfl⟩ := mem_carriersOf.mp hv
    rcases List.mem_append.mp ho with ho | ho
    · exact ⟨(h.offered o ho).ne_zero, (h.offered o ho).le⟩
    · obtain rfl := List.mem_singleton.mp ho
      exact ⟨hr.ne_zero, hr.le⟩
  rw [carriersOf_snoc, Finset.card_insert_of_notMem hnew] at hcard
  rw [h.size, h.maxSize]
  omega

/-- Where an array keeps what it has to: a carrier added before is shown when it is added again. -/
def ShownOrNew (offers : List Route) (array : RouteArray) (r : Route) : Prop :=
  r.key ∉ array.entries.map Route.key → r.value ∉ carriersOf offers

lemma addition (h : Counts n type offers array live) (hn : n ≤ 255) (hr : OfCarriers n type r)
    (hnew : ShownOrNew offers array r) :
    Addition array live r (routeArrayAdd array r).entries :=
  h.toPacked.addition hr.ne_zero (h.maxSize.trans_le hn) fun hk => h.room hr (hnew hk)

/-- The count after an addition. -/
lemma add (h : Counts n type offers array live) (hn : n ≤ 255) (hr : OfCarriers n type r)
    (hnew : ShownOrNew offers array r) :
    ∃ live', Counts n type (offers ++ [r]) (routeArrayAdd array r) live' := by
  obtain ⟨live', hpacked, hsub⟩ := h.toPacked.add hr.ne_zero
  refine ⟨live', hpacked, (maxSize_routeArrayAdd array r).trans h.maxSize, ?_, ?_, ?_⟩
  · rw [← length_entries, (h.addition hn hr hnew).length, carriersOf_snoc]
    split_ifs with hk
    · obtain ⟨e, he, hke⟩ := List.mem_map.mp hk
      have hmem : r.value ∈ carriersOf offers :=
        mem_carriersOf.mpr ⟨e, h.entries_offered he, (Prod.ext_iff.mp hke).1⟩
      rw [Finset.insert_eq_of_mem hmem, h.size]
    · rw [Finset.card_insert_of_notMem (hnew hk), h.size]
  · intro o ho
    rcases List.mem_append.mp ho with ho | ho
    · exact h.offered o ho
    · exact List.mem_singleton.mp ho ▸ hr
  · intro x hx
    rcases hsub x hx with rfl | hx
    · simp
    · exact List.mem_append_left _ (h.live_offered x hx)

end Counts

/-! ## Runs of additions -/

/-- Every pair that was added is shown once, at its least cost. -/
structure Whole (n : ℕ) (type : RouteType) (offers : List Route) (array : RouteArray)
    (live : List Route) : Prop extends Counts n type offers array live where
  nodup : (array.entries.map Route.key).Nodup
  shown : ∀ o ∈ offers, ∃ e ∈ array.entries, e.key = o.key ∧ e.cost ≤ o.cost

/-- Some carrier is hidden, but only carriers that were `added` since the array was whole. -/
structure Broken (n : ℕ) (type : RouteType) (added : List RouteValue) (offers : List Route)
    (array : RouteArray) (live : List Route) : Prop extends Counts n type offers array live where
  hidden : ∃ o ∈ offers, o.key ∉ array.entries.map Route.key
  shown : ∀ o ∈ offers, o.value ∉ added → o.key ∈ array.entries.map Route.key

namespace Whole

lemma create (type : RouteType) (hn : n ≤ 255) : Whole n type [] (routeArrayCreate n) [] where
  toCounts := Counts.create type hn
  nodup := by simp [RouteArray.entries, routeArrayCreate]
  shown := by simp

lemma shownOrNew (h : Whole n type offers array live) (hr : OfCarriers n type r) :
    Counts.ShownOrNew offers array r := by
  intro hk hmem
  obtain ⟨o, ho, hvalue⟩ := mem_carriersOf.mp hmem
  obtain ⟨e, he, hke, -⟩ := h.shown o ho
  refine hk (List.mem_map.mpr ⟨e, he, hke.trans ?_⟩)
  exact ((h.offered o ho).key_eq_iff hr).mpr hvalue

lemma add (h : Whole n type offers array live) (hn : n ≤ 255) (hr : OfCarriers n type r)
    (hclean : AddsCleanly array r) :
    ∃ live', Whole n type (offers ++ [r]) (routeArrayAdd array r) live' := by
  have hnew := h.shownOrNew hr
  have hadd := h.toCounts.addition hn hr hnew
  obtain ⟨live', hcounts⟩ := h.toCounts.add hn hr hnew
  obtain ⟨e, he, hke, hle, hleast⟩ := hadd.shows_of_clean hclean h.nodup
  refine ⟨live', hcounts, hadd.nodup_of_clean hclean h.nodup, fun o ho => ?_⟩
  rcases List.mem_append.mp ho with ho | ho
  · obtain ⟨e', he', hke', hle'⟩ := h.shown o ho
    by_cases hk : o.key = r.key
    · exact ⟨e, he, hke.trans hk.symm, (hleast e' he' (hke'.trans hk)).trans hle'⟩
    · exact ⟨e', hadd.mem_of_mem he' (hke' ▸ hk), hke', hle'⟩
  · obtain rfl := List.mem_singleton.mp ho
    exact ⟨e, he, hke, hle⟩

/-- After an addition that is not clean its carrier is hidden. -/
lemma broken (h : Whole n type offers array live) (hn : n ≤ 255) (hr : OfCarriers n type r)
    (hunclean : ¬AddsCleanly array r) :
    ∃ live', Broken n type [r.value] (offers ++ [r]) (routeArrayAdd array r) live' := by
  have hnew := h.shownOrNew hr
  have hadd := h.toCounts.addition hn hr hnew
  obtain ⟨live', hcounts⟩ := h.toCounts.add hn hr hnew
  have hkeys : ∀ o ∈ offers, o.key ∈ array.entries.map Route.key := by
    intro o ho
    obtain ⟨e, he, hk, -⟩ := h.shown o ho
    exact hk ▸ List.mem_map_of_mem he
  refine ⟨live', hcounts, ⟨r, by simp, ?_⟩, fun o ho hvalue => ?_⟩
  · exact hadd.notMem_of_not_clean hunclean h.nodup fun x hx => hkeys x (h.live_offered x hx)
  · rw [List.mem_singleton] at hvalue
    rcases List.mem_append.mp ho with ho | ho
    · obtain ⟨e, he, hk⟩ := List.mem_map.mp (hkeys o ho)
      refine List.mem_map.mpr ⟨e, hadd.mem_of_mem he ?_, hk⟩
      rw [hk]
      exact fun hkey => hvalue (Prod.ext_iff.mp hkey).1
    · exact absurd (List.mem_singleton.mp ho ▸ rfl) hvalue

end Whole

namespace Broken

lemma add (h : Broken n type added offers array live) (hn : n ≤ 255) (hr : OfCarriers n type r)
    (hfirst : r.value ∉ added) :
    ∃ live', Broken n type (r.value :: added) (offers ++ [r]) (routeArrayAdd array r) live' := by
  have hnew : Counts.ShownOrNew offers array r := by
    intro hk hmem
    obtain ⟨o, ho, hvalue⟩ := mem_carriersOf.mp hmem
    refine hk ?_
    rw [← ((h.offered o ho).key_eq_iff hr).mpr hvalue]
    exact h.shown o ho (hvalue ▸ hfirst)
  have hadd := h.toCounts.addition hn hr hnew
  obtain ⟨live', hcounts⟩ := h.toCounts.add hn hr hnew
  refine ⟨live', hcounts, ?_, fun o ho hvalue => ?_⟩
  · obtain ⟨o, ho, hhidden⟩ := h.hidden
    have hlive : r.key ∉ array.entries.map Route.key → ∀ x ∈ live, x.key ≠ r.key := by
      intro hk x hx hkey
      exact hnew hk (mem_carriersOf.mpr ⟨x, h.live_offered x hx, (Prod.ext_iff.mp hkey).1⟩)
    rcases hadd.notMem_or_sub hlive with hr' | hsub
    · exact ⟨r, by simp, hr'⟩
    · refine ⟨o, List.mem_append_left _ ho, fun hmem => ?_⟩
      obtain ⟨x, hx, hkx⟩ := List.mem_map.mp hmem
      rcases hsub x hx with hkr | hentry
      · have hvalue : o.value = r.value := (Prod.ext_iff.mp (hkx.symm.trans hkr)).1
        exact hhidden (h.shown o ho (hvalue ▸ hfirst))
      · exact hhidden (hkx ▸ hentry)
  · rw [List.mem_cons, not_or] at hvalue
    rcases List.mem_append.mp ho with ho | ho
    · obtain ⟨e, he, hk⟩ := List.mem_map.mp (h.shown o ho hvalue.2)
      refine List.mem_map.mpr ⟨e, hadd.mem_of_mem he ?_, hk⟩
      rw [hk]
      exact fun hkey => hvalue.1 (Prod.ext_iff.mp hkey).1
    · exact absurd (List.mem_singleton.mp ho ▸ rfl) hvalue.1

/-- What is hidden stays hidden while carriers are added for the first time. -/
lemma foldl_add (hn : n ≤ 255) : ∀ {routes : List Route} {added : List RouteValue}
    {offers : List Route} {array : RouteArray} {live : List Route},
    Broken n type added offers array live → (∀ r ∈ routes, OfCarriers n type r) →
    (∀ r ∈ routes, r.value ∉ added) → (routes.map Route.value).Nodup →
      ∃ added' live',
        Broken n type added' (offers ++ routes) (routes.foldl routeArrayAdd array) live'
  | [], added, offers, array, live, h, _, _, _ => ⟨added, live, by rwa [List.append_nil]⟩
  | r :: routes, added, offers, array, live, h, hroutes, hfirst, hnd => by
    obtain ⟨hr, hroutes⟩ := List.forall_mem_cons.mp hroutes
    obtain ⟨hfirst', hfirst⟩ := List.forall_mem_cons.mp hfirst
    obtain ⟨hnotMem, hnd⟩ := List.nodup_cons.mp hnd
    obtain ⟨live₁, h₁⟩ := h.add hn hr hfirst'
    have hrest : ∀ x ∈ routes, x.value ∉ r.value :: added := by
      intro x hx
      refine List.not_mem_cons_of_ne_of_not_mem ?_ (hfirst x hx)
      exact fun heq => hnotMem (heq ▸ List.mem_map_of_mem hx)
    obtain ⟨added', live', h'⟩ := foldl_add hn h₁ hroutes hrest hnd
    rw [List.append_assoc] at h'
    exact ⟨added', live', h'⟩

end Broken

namespace Whole

/-- Clean additions keep an array whole. -/
theorem foldl_add (hn : n ≤ 255) : ∀ {routes offers : List Route} {array : RouteArray}
    {live : List Route}, Whole n type offers array live → (∀ r ∈ routes, OfCarriers n type r) →
    AddsAllCleanly array routes →
      ∃ live', Whole n type (offers ++ routes) (routes.foldl routeArrayAdd array) live'
  | [], offers, array, live, h, _, _ => ⟨live, by rwa [List.append_nil]⟩
  | r :: routes, offers, array, live, h, hroutes, hclean => by
    obtain ⟨hr, hroutes⟩ := List.forall_mem_cons.mp hroutes
    obtain ⟨live₁, h₁⟩ := h.add hn hr hclean.1
    obtain ⟨live', h'⟩ := foldl_add hn h₁ hroutes hclean.2
    rw [List.append_assoc] at h'
    exact ⟨live', h'⟩

/-- Other additions break it, when no carrier is added twice. -/
theorem foldl_broken (hn : n ≤ 255) : ∀ {routes offers : List Route} {array : RouteArray}
    {live : List Route}, Whole n type offers array live → (∀ r ∈ routes, OfCarriers n type r) →
    (routes.map Route.value).Nodup → ¬AddsAllCleanly array routes →
      ∃ added live', Broken n type added (offers ++ routes) (routes.foldl routeArrayAdd array) live'
  | [], _, _, _, _, _, _, hunclean => absurd trivial hunclean
  | r :: routes, offers, array, live, h, hroutes, hnd, hunclean => by
    obtain ⟨hr, hroutes⟩ := List.forall_mem_cons.mp hroutes
    obtain ⟨hnotMem, hnd⟩ := List.nodup_cons.mp hnd
    by_cases hclean : AddsCleanly array r
    · obtain ⟨live₁, h₁⟩ := h.add hn hr hclean
      obtain ⟨added, live', h'⟩ :=
        foldl_broken hn h₁ hroutes hnd fun hrest => hunclean ⟨hclean, hrest⟩
      rw [List.append_assoc] at h'
      exact ⟨added, live', h'⟩
    · obtain ⟨live₁, h₁⟩ := h.broken hn hr hclean
      have hrest : ∀ x ∈ routes, x.value ∉ [r.value] := by
        intro x hx hmem
        exact hnotMem (List.mem_singleton.mp hmem ▸ List.mem_map_of_mem hx)
      obtain ⟨added, live', h'⟩ := h₁.foldl_add hn hroutes hrest hnd
      rw [List.append_assoc] at h'
      exact ⟨added, live', h'⟩

end Whole

/-! ## Rising costs -/

/-- A pair that is added again costs more. -/
def Rising (routes : List Route) : Prop :=
  routes.Pairwise fun a b => a.key = b.key → a.cost < b.cost

/-- The slots in use are those with a value. -/
lemma Packed.live_eq (h : Packed array live) :
    live = array.route.takeWhile fun x => decide (x.value ≠ 0) := by
  have hzeros : ∀ k : ℕ, ((List.replicate k Route.zero).takeWhile fun x => decide (x.value ≠ 0))
      = [] := by
    intro k
    cases k with
    | zero => rfl
    | succ k => rfl
  rw [h.slots, List.takeWhile_append_of_pos (fun x hx => decide_eq_true (h.nonzero x hx)), hzeros,
    List.append_nil]

/-- A dearer route of a pair that is shown is dropped. -/
lemma add_of_dearer (hk : r.key ∈ array.entries.map Route.key)
    (hlt : ∀ e ∈ array.entries, e.key = r.key → e.cost < r.cost) :
    AddsCleanly array r ∧ routeArrayAdd array r = array := by
  obtain ⟨i, e, hi, hisize, he, hke, -⟩ := findByValueAndType_of_mem hk
  have hcost := hlt e (List.mem_of_getElem? he) hke
  rw [addsCleanly_iff_of_found hi hisize he, routeArrayAdd_of_found hi hisize he, if_pos hcost]
  exact ⟨Or.inl hcost, rfl⟩

/-- A new pair is placed among the entries, if nothing is left behind them. -/
lemma add_of_notMem (h : Packed array live) (hlive : live.length = array.size)
    (hk : r.key ∉ array.entries.map Route.key) :
    AddsCleanly array r ∧ routeArrayAdd array r = insertByCost array r := by
  rw [addsCleanly_iff_of_notMem hk, h.findByCost_eq, ← hlive]
  exact ⟨(List.takeWhile_sublist _).length_le, routeArrayAdd_of_notMem hk⟩

/-- **Rising costs are added cleanly**: nothing is removed, so nothing is left behind. -/
theorem addsAllCleanly_of_rising (hn : n ≤ 255) : ∀ {routes offers : List Route}
    {array : RouteArray} {live : List Route}, Whole n type offers array live →
    live.length = array.size → (∀ r ∈ routes, OfCarriers n type r) →
    Rising (offers ++ routes) → AddsAllCleanly array routes
  | [], _, _, _, _, _, _, _ => trivial
  | r :: routes, offers, array, live, h, hlive, hroutes, hrising => by
    obtain ⟨hr, hroutes⟩ := List.forall_mem_cons.mp hroutes
    have hrising' : Rising ((offers ++ [r]) ++ routes) := by
      rwa [List.append_assoc, List.singleton_append]
    by_cases hk : r.key ∈ array.entries.map Route.key
    · have hdearer : ∀ e ∈ array.entries, e.key = r.key → e.cost < r.cost := fun e he hke =>
        (List.pairwise_append.mp hrising).2.2 e (h.entries_offered he) r List.mem_cons_self hke
      obtain ⟨hclean, hsame⟩ := add_of_dearer hk hdearer
      obtain ⟨live', h'⟩ := h.add hn hr hclean
      have hlive' : live' = live := by
        rw [h'.live_eq, hsame, ← h.live_eq]
      refine ⟨hclean, addsAllCleanly_of_rising hn h' ?_ hroutes hrising'⟩
      rw [hlive', hsame, hlive]
    · obtain ⟨hclean, hinsert⟩ := add_of_notMem h.toPacked hlive hk
      obtain ⟨live', h'⟩ := h.add hn hr hclean
      have hroom := h.room hr (h.shownOrNew hr hk)
      have hlive' : live' = (place Route.cost r live).take array.maxSize := by
        rw [h'.live_eq, hinsert, ← (h.toPacked.insertByCost hr.ne_zero).live_eq]
      refine ⟨hclean, addsAllCleanly_of_rising hn h' ?_ hroutes hrising'⟩
      have hcount := (h.addition hn hr (h.shownOrNew hr)).length
      rw [if_neg hk, length_entries] at hcount
      rw [hcount, hlive', List.length_take, List.orderedInsert_length]
      omega

end FreeswitchContrib.SimpleLcr
