import Mathlib.Data.List.TakeWhile
import FreeswitchContrib.SimpleLcr.RouteArray

/-!
# When an array of routes is a least-cost table

`route_array_remove` forgets the last entry by its index only: a copy of it stays in the slot
just beyond `size`.  `route_array_find_by_cost` searches all the slots, so a later route that
costs as much as the copy or more is placed behind it, and the copy becomes visible instead.

`AddsCleanly` is the test, on the array before the step and by the code's own searches, for a step
that does not do so.  `exact_run_iff` is its exactness: from an empty array, every array reached is
the least-cost table of the routes added so far if and only if every step passes the test.
-/

namespace FreeswitchContrib.SimpleLcr

open LeastCost

/-! ## Packed arrays -/

/-- `live` are the slots in use: visible entries first, then what removals left behind. -/
structure Packed (array : RouteArray) (live : List Route) : Prop where
  slots : array.route = live ++ List.replicate (array.maxSize - live.length) Route.zero
  nonzero : ∀ r ∈ live, r.value ≠ 0
  sorted : live.Pairwise fun a b => a.cost ≤ b.cost
  visible : array.size ≤ live.length

namespace Packed

variable {array : RouteArray} {live : List Route} {route : Route}

lemma length_le (h : Packed array live) : live.length ≤ array.maxSize := by
  have := array.length_route
  rw [h.slots, List.length_append, List.length_replicate] at this
  omega

lemma entries_eq (h : Packed array live) : array.entries = live.take array.size := by
  rw [RouteArray.entries, h.slots, List.take_append_of_le_length h.visible]

lemma entries_sorted (h : Packed array live) :
    array.entries.Pairwise fun a b => a.cost ≤ b.cost := by
  rw [h.entries_eq]
  exact h.sorted.sublist (List.take_sublist _ _)

/-- A fresh array has no slot in use. -/
lemma create (maxSize : ℕ) : Packed (routeArrayCreate maxSize) [] where
  slots := rfl
  nonzero := by simp
  sorted := List.Pairwise.nil
  visible := Nat.zero_le _

lemma findByCost_aux (cost : RouteCost) (n : ℕ) : ∀ {live : List Route},
    (∀ r ∈ live, r.value ≠ 0) →
      (match (live ++ List.replicate n Route.zero).findIdx?
          fun r => decide (r.value = 0 ∨ cost < r.cost) with
        | some i => i
        | none => live.length + n)
      = (live.takeWhile fun r => decide (r.cost ≤ cost)).length
  | [], _ => by
      cases n with
      | zero => rfl
      | succ n => simp [List.replicate_succ, List.findIdx?_cons, Route.zero]
  | r :: live, h => by
      have hr : r.value ≠ 0 := h r List.mem_cons_self
      have ih := findByCost_aux cost n fun x hx => h x (List.mem_cons_of_mem _ hx)
      by_cases hc : cost < r.cost
      · rw [List.cons_append, List.findIdx?_cons, decide_eq_true (Or.inr hc), if_pos rfl,
          List.takeWhile_cons_of_neg (by simpa using hc)]
        rfl
      · have hp : decide (r.value = 0 ∨ cost < r.cost) = false := by simp [hr, not_lt.mp hc]
        rw [List.takeWhile_cons_of_pos (by simpa using hc), List.length_cons, List.length_cons,
          ← ih, List.cons_append, List.findIdx?_cons, hp, if_neg Bool.false_ne_true]
        cases (live ++ List.replicate n Route.zero).findIdx?
          fun r => decide (r.value = 0 ∨ cost < r.cost) with
        | none => exact Nat.add_right_comm _ _ _
        | some i => rfl

/-- The search for a place stops behind every slot in use that costs no more. -/
lemma findByCost_eq (h : Packed array live) (cost : RouteCost) :
    routeArrayFindByCost array cost
      = (live.takeWhile fun r => decide (r.cost ≤ cost)).length := by
  have haux := findByCost_aux cost (array.maxSize - live.length) h.nonzero
  rw [show live.length + (array.maxSize - live.length) = array.maxSize by
    have := h.length_le; omega] at haux
  rw [routeArrayFindByCost, h.slots]
  exact haux

/-- Inserting by cost places the route among the slots in use and drops the last one when all of
them are. -/
lemma insertByCost (h : Packed array live) (hr : route.value ≠ 0) :
    Packed (insertByCost array route) ((place Route.cost route live).take array.maxSize) := by
  have hlen : (place Route.cost route live).length = live.length + 1 :=
    List.orderedInsert_length _ _ _
  have hle := h.length_le
  constructor
  · obtain ⟨pre, post, hpre, hpost⟩ : ∃ pre post,
        (live.takeWhile fun r => decide (r.cost ≤ route.cost)) = pre ∧
        (live.dropWhile fun r => decide (r.cost ≤ route.cost)) = post := ⟨_, _, rfl, rfl⟩
    have hlive : live = pre ++ post := by
      rw [← hpre, ← hpost, List.takeWhile_append_dropWhile]
    have hpost0 : ∀ x ∈ post, x.value ≠ 0 := fun x hx => h.nonzero x (by rw [hlive]; simp [hx])
    set n := array.maxSize - live.length with hn
    have hll : live.length = pre.length + post.length := by rw [hlive, List.length_append]
    have hroute : array.route = pre ++ (post ++ List.replicate n Route.zero) := by
      rw [h.slots, ← hn, ← List.append_assoc, ← hlive]
    calc (SimpleLcr.insertByCost array route).route
        = array.route.take pre.length ++ pushDown route (array.route.drop pre.length) := by
          rw [SimpleLcr.insertByCost]
          simp only
          rw [h.findByCost_eq, hpre]
      _ = pre ++ pushDown route (post ++ List.replicate n Route.zero) := by
          rw [hroute, List.take_left, List.drop_left]
      _ = pre ++ (route :: (post ++ List.replicate n Route.zero)).take (post.length + n) := by
          rw [pushDown_eq hr hpost0]
      _ = ((pre ++ route :: post) ++ List.replicate n Route.zero).take array.maxSize := by
          rw [List.append_assoc, List.cons_append, List.take_append,
            List.take_of_length_le (show pre.length ≤ array.maxSize by omega),
            show array.maxSize - pre.length = post.length + n by omega]
      _ = (place Route.cost route live).take array.maxSize ++ List.replicate
            (array.maxSize - ((place Route.cost route live).take array.maxSize).length)
            Route.zero := by
          rw [place_eq, hpre, hpost, List.take_append, List.take_replicate, List.length_take]
          congr 2
          simp only [List.length_append, List.length_cons]
          omega
  · intro r hr'
    rcases (List.mem_orderedInsert _).mp (List.mem_of_mem_take hr') with rfl | hr'
    · exact hr
    · exact h.nonzero r hr'
  · exact (place_sorted route h.sorted).sublist (List.take_sublist _ _)
  · rw [List.length_take, hlen]
    have hv := h.visible
    have hs := array.size_le
    have hmod : (array.size + 1) % 256 ≤ array.size + 1 := Nat.mod_le _ _
    rw [SimpleLcr.insertByCost]
    simp only
    split_ifs <;> omega

/-- What is in use after a removal: the entries without the removed one, then the slots from the
last entry's on. -/
lemma remove (h : Packed array live) {i : ℕ} (hi : i < array.size) :
    Packed (routeArrayRemove array i)
      (array.entries.eraseIdx i ++ live.drop (array.size - 1)) := by
  have hv := h.visible
  have hle := h.length_le
  have hentry : array.entries.length = array.size := length_entries array
  have hlen : (array.entries.eraseIdx i ++ live.drop (array.size - 1)).length = live.length := by
    rw [List.length_append, List.length_eraseIdx_of_lt (hentry.symm ▸ hi), hentry,
      List.length_drop]
    omega
  have hmem : ∀ x ∈ array.entries.eraseIdx i, x ∈ live.take array.size := fun x hx => by
    rw [← h.entries_eq]
    exact List.mem_of_mem_eraseIdx hx
  constructor
  · have hshift := shiftDown_eq array.route i (array.size - 1 - i) (by
      rw [array.length_route]
      have := array.size_le
      omega)
    rw [routeArrayRemove, if_pos ⟨hi, by omega⟩]
    simp only
    rw [hlen, hshift, show i + (array.size - 1 - i) = array.size - 1 by omega, h.slots,
      List.drop_append_of_le_length (show array.size - 1 ≤ live.length by omega), ← List.append_assoc]
    congr 2
    rw [h.entries_eq, List.eraseIdx_eq_take_drop_succ, List.take_take, min_eq_left hi.le,
      List.take_append_of_le_length (show i ≤ live.length by omega), List.drop_take,
      List.drop_append_of_le_length (show i + 1 ≤ live.length by omega),
      List.take_append_of_le_length (by rw [List.length_drop]; omega)]
    congr 2
    omega
  · intro r hr
    rcases List.mem_append.mp hr with hr | hr
    · exact h.nonzero r (List.mem_of_mem_take (hmem r hr))
    · exact h.nonzero r (List.mem_of_mem_drop hr)
  · rw [List.pairwise_append]
    refine ⟨h.entries_sorted.sublist (List.eraseIdx_sublist _ _),
      h.sorted.sublist (List.drop_sublist _ _), fun a ha b hb => ?_⟩
    obtain ⟨p, hp, rfl⟩ := List.getElem_of_mem (hmem a ha)
    obtain ⟨q, hq, rfl⟩ := List.getElem_of_mem hb
    rw [List.length_take] at hp
    rw [List.length_drop] at hq
    rw [List.getElem_take, List.getElem_drop]
    rcases Nat.lt_or_eq_of_le (show p ≤ array.size - 1 + q by omega) with hpq | hpq
    · exact List.pairwise_iff_getElem.mp h.sorted p _ (by omega) (by omega) hpq
    · simp only [hpq, le_refl]
  · rw [hlen, routeArrayRemove, if_pos ⟨hi, by omega⟩]
    simp only
    omega

/-- **One step, whatever it meets.**  Adding a route keeps an array packed, and puts nothing in it
but that route and what was there. -/
lemma add (h : Packed array live) (hr : route.value ≠ 0) :
    ∃ live', Packed (routeArrayAdd array route) live' ∧ ∀ x ∈ live', x = route ∨ x ∈ live := by
  have hplace : ∀ (l : List Route) (n : ℕ), ∀ x ∈ (place Route.cost route l).take n,
      x = route ∨ x ∈ l := fun l n x hx => (List.mem_orderedInsert _).mp (List.mem_of_mem_take hx)
  by_cases hk : route.key ∈ array.entries.map Route.key
  · obtain ⟨i, e, hi, hlt, he, -, -⟩ := findByValueAndType_of_mem hk
    rw [routeArrayAdd_of_found hi hlt he]
    split_ifs with hc
    · exact ⟨live, h, fun x hx => Or.inr hx⟩
    · refine ⟨_, (h.remove hlt).insertByCost hr, fun x hx => ?_⟩
      rcases hplace _ _ x hx with hx | hx
      · exact Or.inl hx
      · right
        rcases List.mem_append.mp hx with hx | hx
        · have hx := List.mem_of_mem_eraseIdx hx
          rw [h.entries_eq] at hx
          exact List.mem_of_mem_take hx
        · exact List.mem_of_mem_drop hx
  · rw [routeArrayAdd_of_notMem hk]
    exact ⟨_, h.insertByCost hr, hplace _ _⟩

/-- **The run.**  An array filled from a fresh one holds nothing but routes added to it. -/
theorem foldl_add : ∀ {routes : List Route} {array : RouteArray} {live : List Route},
    Packed array live → (∀ r ∈ routes, r.value ≠ 0) →
      ∃ live', Packed (routes.foldl routeArrayAdd array) live' ∧
        ∀ x ∈ live', x ∈ routes ∨ x ∈ live
  | [], _, live, h, _ => ⟨live, h, fun x hx => Or.inr hx⟩
  | r :: routes, _, _, h, hr => by
      obtain ⟨live₁, h₁, hsub₁⟩ := h.add (hr r List.mem_cons_self)
      obtain ⟨live₂, h₂, hsub₂⟩ := foldl_add h₁ fun x hx => hr x (List.mem_cons_of_mem _ hx)
      refine ⟨live₂, h₂, fun x hx => ?_⟩
      rcases hsub₂ x hx with hx | hx
      · exact Or.inl (List.mem_cons_of_mem _ hx)
      · rcases hsub₁ x hx with rfl | hx
        · exact Or.inl List.mem_cons_self
        · exact Or.inr hx

/-! ## Sizes and entries after the two halves of a step -/

lemma size_insertByCost (hmax : array.maxSize ≤ 254) (route : Route) :
    (SimpleLcr.insertByCost array route).size = min (array.size + 1) array.maxSize := by
  have hs := array.size_le
  rw [size_insertByCost_eq, Nat.mod_eq_of_lt (by omega), Nat.min_comm]

lemma entries_insertByCost (h : Packed array live) (hmax : array.maxSize ≤ 254)
    (hr : route.value ≠ 0) : (SimpleLcr.insertByCost array route).entries
      = ((place Route.cost route live).take (array.size + 1)).take array.maxSize := by
  rw [(h.insertByCost hr).entries_eq, size_insertByCost hmax, List.take_take, List.take_take]
  congr 1
  omega

/-- The route lands among the entries: they become what an offer makes of them. -/
lemma entries_insertByCost_of_le (h : Packed array live) (hmax : array.maxSize ≤ 254)
    (hr : route.value ≠ 0) (hidx : routeArrayFindByCost array route.cost ≤ array.size) :
    (SimpleLcr.insertByCost array route).entries
      = (place Route.cost route array.entries).take array.maxSize := by
  rw [h.findByCost_eq] at hidx
  rw [h.entries_insertByCost hmax hr, take_succ_place route live array.size hidx, h.entries_eq]

/-- The route lands behind them: the slot just beyond them becomes visible instead. -/
lemma entries_insertByCost_of_gt (h : Packed array live) (hmax : array.maxSize ≤ 254)
    (hr : route.value ≠ 0) (hidx : array.size < routeArrayFindByCost array route.cost) :
    (SimpleLcr.insertByCost array route).entries = live.take (array.size + 1) := by
  have hle : (live.takeWhile fun r => decide (r.cost ≤ route.cost)).length ≤ live.length :=
    (List.takeWhile_sublist _).length_le
  have hlen := h.length_le
  rw [h.findByCost_eq] at hidx
  rw [h.entries_insertByCost hmax hr, take_place_of_le route live _ hidx, List.take_take,
    min_eq_right (by omega)]

/-- With a slot left, one entry more is shown of what is in use then. -/
lemma entries_insertByCost_of_room (h : Packed array live) (hr : route.value ≠ 0)
    (hroom : array.size < array.maxSize) (hmax : array.maxSize ≤ 255) :
    (SimpleLcr.insertByCost array route).entries
      = (place Route.cost route live).take (array.size + 1) := by
  have hsize : (SimpleLcr.insertByCost array route).size = array.size + 1 := by
    rw [SimpleLcr.insertByCost]
    simp only
    rw [Nat.mod_eq_of_lt (by omega), if_neg (by omega)]
  rw [(h.insertByCost hr).entries_eq, hsize, List.take_take, min_eq_left (by omega)]

lemma entries_room_of_le (h : Packed array live) (hr : route.value ≠ 0)
    (hroom : array.size < array.maxSize) (hmax : array.maxSize ≤ 255)
    (hidx : routeArrayFindByCost array route.cost ≤ array.size) :
    (SimpleLcr.insertByCost array route).entries = place Route.cost route array.entries := by
  rw [h.findByCost_eq] at hidx
  rw [h.entries_insertByCost_of_room hr hroom hmax, take_succ_place route live array.size hidx,
    h.entries_eq]

lemma entries_room_of_gt (h : Packed array live) (hr : route.value ≠ 0)
    (hroom : array.size < array.maxSize) (hmax : array.maxSize ≤ 255)
    (hidx : array.size < routeArrayFindByCost array route.cost) :
    (SimpleLcr.insertByCost array route).entries = live.take (array.size + 1) := by
  rw [h.findByCost_eq] at hidx
  rw [h.entries_insertByCost_of_room hr hroom hmax, take_place_of_le route live _ hidx]

lemma size_remove {i : ℕ} (hi : i < array.size) :
    (routeArrayRemove array i).size = array.size - 1 := by
  rw [routeArrayRemove, if_pos ⟨hi, by omega⟩]

lemma maxSize_remove (i : ℕ) : (routeArrayRemove array i).maxSize = array.maxSize := by
  rw [routeArrayRemove]
  split_ifs <;> rfl

lemma entries_remove (h : Packed array live) {i : ℕ} (hi : i < array.size) :
    (routeArrayRemove array i).entries = array.entries.eraseIdx i := by
  have hlen : (array.entries.eraseIdx i).length = array.size - 1 := by
    rw [List.length_eraseIdx_of_lt (by simpa using hi), length_entries]
  rw [(h.remove hi).entries_eq, size_remove hi, ← hlen, List.take_left]

/-- A route that replaces an entry and lands behind the others: they end in the copy of the last. -/
lemma entries_replace_of_gt (h : Packed array live) (hr : route.value ≠ 0)
    (hmax : array.maxSize ≤ 255) {i : ℕ} {last : Route} (hi : i < array.size)
    (hlast : array.entries[array.size - 1]? = some last)
    (hidx : (routeArrayRemove array i).size
      < routeArrayFindByCost (routeArrayRemove array i) route.cost) :
    (SimpleLcr.insertByCost (routeArrayRemove array i) route).entries
      = array.entries.eraseIdx i ++ [last] := by
  have hsize := array.size_le
  have hv := h.visible
  have hb : array.size - 1 < live.length := by omega
  have hlen : (array.entries.eraseIdx i).length = array.size - 1 := by
    rw [List.length_eraseIdx_of_lt (by simpa using hi), length_entries]
  have hcopy : live[array.size - 1] = last := by
    rw [h.entries_eq, List.getElem?_take, if_pos (by omega), List.getElem?_eq_getElem hb] at hlast
    exact Option.some.inj hlast
  have hroom : (routeArrayRemove array i).size < (routeArrayRemove array i).maxSize := by
    rw [size_remove hi, maxSize_remove]
    omega
  rw [(h.remove hi).entries_room_of_gt hr hroom (by rwa [maxSize_remove]) hidx, size_remove hi,
    List.take_append, List.take_of_length_le (by omega), hlen,
    show array.size - 1 + 1 - (array.size - 1) = 1 by omega, List.drop_eq_getElem_cons hb, ← hcopy]
  rfl

end Packed

/-! ## Clean steps -/

/-- **The clean step.**  A dearer copy of a pair the array holds is dropped; a new pair must be
placed no further than just behind the entries; and a replaced entry must leave room for that too,
unless it was the last one and cost the same. -/
def AddsCleanly (array : RouteArray) (route : Route) : Prop :=
  let i := routeArrayFindByValueAndType array route.value route.type
  if i ≠ array.maxSize then
    (array.route.getD i Route.zero).cost < route.cost ∨
      routeArrayFindByCost (routeArrayRemove array i) route.cost
        ≤ routeArrayGetSize (routeArrayRemove array i) ∨
      (i + 1 = array.size ∧ (array.route.getD i Route.zero).cost = route.cost)
  else routeArrayFindByCost array route.cost ≤ routeArrayGetSize array

instance (array : RouteArray) (route : Route) : Decidable (AddsCleanly array route) := by
  unfold AddsCleanly
  infer_instance

/-- The clean step for a pair that is found at `i`. -/
lemma addsCleanly_iff_of_found {array : RouteArray} {route : Route} {i : ℕ} {e : Route}
    (hi : routeArrayFindByValueAndType array route.value route.type = i) (hlt : i < array.size)
    (he : array.entries[i]? = some e) : AddsCleanly array route ↔ e.cost < route.cost ∨
      routeArrayFindByCost (routeArrayRemove array i) route.cost ≤ (routeArrayRemove array i).size ∨
      (i + 1 = array.size ∧ e.cost = route.cost) := by
  have hne : i ≠ array.maxSize := by
    have := array.size_le
    omega
  rw [AddsCleanly]
  simp only [hi, ne_eq, if_pos hne, getD_of_entry hlt he, routeArrayGetSize]

lemma addsCleanly_iff_of_notMem {array : RouteArray} {route : Route}
    (hk : route.key ∉ array.entries.map Route.key) :
    AddsCleanly array route ↔ routeArrayFindByCost array route.cost ≤ array.size := by
  rw [AddsCleanly]
  simp only [findByValueAndType_of_notMem hk, ne_eq, not_true_eq_false, if_false,
    routeArrayGetSize]

/-- Every step of a run of additions is clean. -/
def AddsAllCleanly : RouteArray → List Route → Prop
  | _, [] => True
  | array, r :: routes => AddsCleanly array r ∧ AddsAllCleanly (routeArrayAdd array r) routes

instance decidableAddsAllCleanly :
    ∀ (array : RouteArray) (routes : List Route), Decidable (AddsAllCleanly array routes)
  | _, [] => isTrue trivial
  | array, r :: routes =>
      have := decidableAddsAllCleanly (routeArrayAdd array r) routes
      inferInstanceAs (Decidable (AddsCleanly array r ∧ _))

/-- What a clean run keeps: while there is room, every slot in use holds a pair that is visible. -/
structure Tracks (array : RouteArray) (live : List Route) : Prop extends Packed array live where
  bound : array.maxSize ≤ 254
  nodup : (array.entries.map Route.key).Nodup
  shadowed : array.size < array.maxSize → ∀ r ∈ live, r.key ∈ array.entries.map Route.key

namespace Tracks

variable {array : RouteArray} {live : List Route} {route : Route}

lemma create {maxSize : ℕ} (h : maxSize ≤ 254) : Tracks (routeArrayCreate maxSize) [] where
  toPacked := Packed.create maxSize
  bound := (Nat.mod_le _ _).trans h
  nodup := by simp [RouteArray.entries, routeArrayCreate]
  shadowed := by simp

/-- The new pair of a clean step. -/
lemma insert (h : Tracks array live) (hr : route.value ≠ 0)
    (hk : route.key ∉ array.entries.map Route.key)
    (hidx : routeArrayFindByCost array route.cost ≤ array.size) :
    ∃ live', Tracks (insertByCost array route) live' ∧ (insertByCost array route).entries
      = offer Route.key Route.cost array.maxSize array.entries route := by
  have hent := h.entries_insertByCost_of_le h.bound hr hidx
  have hnd : ((place Route.cost route array.entries).map Route.key).Nodup := by
    rw [((List.perm_orderedInsert (fun a b => a.cost < b.cost) route array.entries).map
      Route.key).nodup_iff, List.map_cons, List.nodup_cons]
    exact ⟨hk, h.nodup⟩
  refine ⟨_, ⟨h.toPacked.insertByCost hr, h.bound, ?_, fun hlt r hmem => ?_⟩,
    hent.trans (offer_of_notMem hk).symm⟩
  · rw [hent]
    exact hnd.sublist ((List.take_sublist _ _).map _)
  · have hsize := Packed.size_insertByCost h.bound route
    have hroom : array.size + 1 ≤ array.maxSize := by
      rw [hsize] at hlt
      change min (array.size + 1) array.maxSize < array.maxSize at hlt
      omega
    rw [hent, List.take_of_length_le (by rw [List.orderedInsert_length, length_entries]; omega)]
    rcases (List.mem_orderedInsert _).mp (List.mem_of_mem_take hmem) with rfl | hmem
    · exact List.mem_map_of_mem ((List.mem_orderedInsert _).mpr (Or.inl rfl))
    · obtain ⟨e, he, hke⟩ := List.mem_map.mp (h.shadowed (by omega) r hmem)
      exact hke ▸ List.mem_map_of_mem ((List.mem_orderedInsert _).mpr (Or.inr he))

/-- A replacement whose route lands among the remaining entries. -/
lemma replace (h : Tracks array live) (hr : route.value ≠ 0) {i : ℕ} {e : Route}
    (hi : i < array.size) (he : array.entries[i]? = some e) (hk : e.key = route.key)
    (hle : route.cost ≤ e.cost)
    (herase : array.entries.eraseP (fun e => decide (e.key = route.key))
      = array.entries.eraseIdx i)
    (hidx : routeArrayFindByCost (routeArrayRemove array i) route.cost
      ≤ (routeArrayRemove array i).size) :
    ∃ live', Tracks (insertByCost (routeArrayRemove array i) route) live' ∧
      (insertByCost (routeArrayRemove array i) route).entries
        = offer Route.key Route.cost array.maxSize array.entries route := by
  have hmem : e ∈ array.entries := List.mem_of_getElem? he
  have hrem := h.toPacked.remove hi
  have hbound : (routeArrayRemove array i).maxSize ≤ 254 := by
    rw [Packed.maxSize_remove]
    exact h.bound
  have hsize := Packed.size_insertByCost hbound route
  rw [Packed.size_remove hi, Packed.maxSize_remove] at hsize
  have hent := hrem.entries_insertByCost_of_le hbound hr hidx
  rw [h.entries_remove hi, Packed.maxSize_remove, ← herase, List.take_of_length_le (by
    rw [List.orderedInsert_length, herase, List.length_eraseIdx_of_lt (by simpa using hi),
      length_entries]
    have := array.size_le
    omega)] at hent
  have hkeys : ((place Route.cost route (array.entries.eraseP fun e =>
      decide (e.key = route.key))).map Route.key).Perm (array.entries.map Route.key) :=
    keys_place_eraseP h.nodup hmem hk
  refine ⟨_, ⟨hrem.insertByCost hr, hbound, ?_, fun hlt r hr' => ?_⟩,
    hent.trans (offer_of_mem_le h.nodup hmem hk hle).symm⟩
  · rw [hent]
    exact hkeys.nodup_iff.mpr h.nodup
  · change (insertByCost (routeArrayRemove array i) route).size
      < (routeArrayRemove array i).maxSize at hlt
    rw [Packed.maxSize_remove, hsize] at hlt
    have hroom : array.size < array.maxSize := by omega
    rw [hent, hkeys.mem_iff]
    rcases (List.mem_orderedInsert _).mp (List.mem_of_mem_take hr') with rfl | hr'
    · exact hk ▸ List.mem_map_of_mem hmem
    · rcases List.mem_append.mp hr' with hr' | hr'
      · exact List.mem_map_of_mem (List.mem_of_mem_eraseIdx hr')
      · exact h.shadowed hroom r (List.mem_of_mem_drop hr')

/-- After the last entry is removed its copy makes the slots in use what they were. -/
lemma live_remove_last (h : Packed array live) {i : ℕ} (hi : i + 1 = array.size) :
    array.entries.eraseIdx i ++ live.drop (array.size - 1) = live := by
  have hlast : array.entries.eraseIdx i = live.take (array.size - 1) := by
    rw [h.entries_eq, List.eraseIdx_eq_take_drop_succ, List.take_take,
      List.drop_of_length_le (by rw [List.length_take]; omega), List.append_nil]
    congr 1
    omega
  rw [hlast, List.take_append_drop]

/-- A route that takes the place of the last entry lands before its copy, unless it costs more. -/
lemma findByCost_remove_last (h : Packed array live) {i : ℕ} {e : Route} (hi : i + 1 = array.size)
    (he : array.entries[i]? = some e) (hidx : (routeArrayRemove array i).size
      < routeArrayFindByCost (routeArrayRemove array i) route.cost) : e.cost ≤ route.cost := by
  have hlt : i < array.size := by omega
  have hv := h.visible
  rw [(h.remove hlt).findByCost_eq, live_remove_last h hi, Packed.size_remove hlt] at hidx
  have hlive : live[i]? = some e := by
    rw [← he, h.entries_eq, List.getElem?_take, if_pos hlt]
  have hpre := List.takeWhile_prefix (l := live) (p := fun r => decide (r.cost ≤ route.cost))
  have hin : e ∈ live.takeWhile fun r => decide (r.cost ≤ route.cost) := by
    rw [List.prefix_iff_eq_take.mp hpre, List.mem_take_iff_getElem]
    obtain ⟨hil, hie⟩ := List.getElem?_eq_some_iff.mp hlive
    exact ⟨i, by omega, hie⟩
  have hle := List.mem_takeWhile_imp hin
  exact of_decide_eq_true hle

/-- Replacing the last entry by the same route: the entries are as before, whether the route lands
among them or behind the copy. -/
lemma replace_last (h : Tracks array live) (hr : route.value ≠ 0) {i : ℕ}
    (hi : i + 1 = array.size) (he : array.entries[i]? = some route)
    (herase : array.entries.eraseP (fun e => decide (e.key = route.key))
      = array.entries.eraseIdx i)
    (hidx : (routeArrayRemove array i).size
      < routeArrayFindByCost (routeArrayRemove array i) route.cost) :
    ∃ live', Tracks (insertByCost (routeArrayRemove array i) route) live' ∧
      (insertByCost (routeArrayRemove array i) route).entries
        = offer Route.key Route.cost array.maxSize array.entries route := by
  have hlt : i < array.size := by omega
  have hmem : route ∈ array.entries := List.mem_of_getElem? he
  have hrem := h.toPacked.remove hlt
  have hbound : (routeArrayRemove array i).maxSize ≤ 254 := by
    rw [Packed.maxSize_remove]
    exact h.bound
  have hsame : (insertByCost (routeArrayRemove array i) route).entries = array.entries := by
    rw [hrem.entries_insertByCost_of_gt hbound hr hidx, live_remove_last h.toPacked hi,
      Packed.size_remove hlt, h.entries_eq]
    congr 1
    omega
  -- the offer takes the last entry out and puts it back at the end
  have hoffer : offer Route.key Route.cost array.maxSize array.entries route = array.entries := by
    have hsplit : array.entries = array.entries.eraseIdx i ++ [route] :=
      (eraseIdx_last_append hi he).symm
    have hle : ∀ x ∈ array.entries.eraseIdx i, x.cost ≤ route.cost := fun x hx => by
      have hs := h.entries_sorted
      rw [hsplit, List.pairwise_append] at hs
      exact hs.2.2 x hx route (by simp)
    rw [offer_of_mem_le h.nodup hmem rfl le_rfl, herase, place_eq,
      List.takeWhile_eq_self_iff.mpr fun x hx => decide_eq_true (hle x hx),
      List.dropWhile_eq_nil_iff.mpr fun x hx => decide_eq_true (hle x hx)]
    exact hsplit.symm
  refine ⟨_, ⟨hrem.insertByCost hr, hbound, ?_, fun hroom r hr' => ?_⟩, hsame.trans hoffer.symm⟩
  · rw [hsame]
    exact h.nodup
  · have hsize := Packed.size_insertByCost hbound route
    change (insertByCost (routeArrayRemove array i) route).size
      < (routeArrayRemove array i).maxSize at hroom
    rw [hsize, Packed.size_remove hlt, Packed.maxSize_remove] at hroom
    rw [hsame]
    rcases (List.mem_orderedInsert _).mp (List.mem_of_mem_take hr') with rfl | hr'
    · exact List.mem_map_of_mem hmem
    · rw [live_remove_last h.toPacked hi] at hr'
      exact h.shadowed (by omega) r hr'

/-- **A clean step makes of the entries what an offer makes of a table.** -/
theorem add (h : Tracks array live) (hr : route.value ≠ 0) (hc : AddsCleanly array route) :
    ∃ live', Tracks (routeArrayAdd array route) live' ∧ (routeArrayAdd array route).entries
      = offer Route.key Route.cost array.maxSize array.entries route := by
  by_cases hk : route.key ∈ array.entries.map Route.key
  · obtain ⟨i, e, hi, hlt, he, hke, herase⟩ := findByValueAndType_of_mem hk
    have hmem : e ∈ array.entries := List.mem_of_getElem? he
    rw [addsCleanly_iff_of_found hi hlt he] at hc
    rw [routeArrayAdd_of_found hi hlt he]
    by_cases hcost : e.cost < route.cost
    · rw [if_pos hcost]
      exact ⟨live, h, (offer_of_mem_lt h.nodup hmem hke hcost).symm⟩
    · rw [if_neg hcost]
      by_cases hidx : routeArrayFindByCost (routeArrayRemove array i) route.cost
          ≤ (routeArrayRemove array i).size
      · exact h.replace hr hlt he hke (not_lt.mp hcost) herase hidx
      · obtain ⟨hlast, heq⟩ := (hc.resolve_left hcost).resolve_left hidx
        obtain rfl : e = route := Route.ext_of_key hke heq
        exact h.replace_last hr hlast he herase (not_le.mp hidx)
  · rw [addsCleanly_iff_of_notMem hk] at hc
    rw [routeArrayAdd_of_notMem hk]
    exact h.insert hr hk hc

/-- **A step that is not clean makes some pair visible twice.** -/
theorem not_nodup_add (h : Tracks array live) (hr : route.value ≠ 0)
    (hc : ¬AddsCleanly array route) :
    ¬((routeArrayAdd array route).entries.map Route.key).Nodup := by
  by_cases hk : route.key ∈ array.entries.map Route.key
  · obtain ⟨i, e, hi, hlt, he, hke, -⟩ := findByValueAndType_of_mem hk
    rw [addsCleanly_iff_of_found hi hlt he, not_or, not_or, not_le, not_and] at hc
    rw [routeArrayAdd_of_found hi hlt he]
    obtain ⟨hcost, hidx, hlast⟩ := hc
    rw [if_neg hcost]
    have hbe : array.size - 1 < array.entries.length := by
      rw [length_entries]
      omega
    have hent := h.toPacked.entries_replace_of_gt hr (h.bound.trans (by decide)) hlt
      (List.getElem?_eq_getElem hbe) hidx
    rcases Nat.lt_or_ge (i + 1) array.size with hi1 | hi1
    · -- the last entry is still there, and so is its copy
      have hin : array.entries[array.size - 1] ∈ array.entries.eraseIdx i := by
        rw [List.mem_eraseIdx_iff_getElem]
        exact ⟨array.size - 1, hbe, by omega, rfl⟩
      rw [hent, List.map_append, List.nodup_append]
      intro hnd
      exact hnd.2.2 _ (List.mem_map_of_mem hin) _ (List.mem_map_of_mem (by simp)) rfl
    · -- the last entry was replaced by a cheaper route, which lands before its copy
      have hieq : i + 1 = array.size := by omega
      have hle := findByCost_remove_last h.toPacked hieq he hidx
      exact absurd (le_antisymm hle (not_lt.mp hcost)) (hlast hieq)
  · rw [addsCleanly_iff_of_notMem hk, not_le] at hc
    rw [routeArrayAdd_of_notMem hk]
    have hidx := hc
    rw [h.findByCost_eq] at hidx
    have hle : (live.takeWhile fun r => decide (r.cost ≤ route.cost)).length ≤ live.length :=
      (List.takeWhile_sublist _).length_le
    have hlen := h.length_le
    have hb : array.size < live.length := by omega
    have hent : (insertByCost array route).entries
        = array.entries ++ [live[array.size]] := by
      rw [h.entries_insertByCost_of_gt h.bound hr hc, h.entries_eq, List.take_append_getElem]
    have hin := h.shadowed (by omega) _ (List.getElem_mem hb)
    rw [hent, List.map_append, List.nodup_append]
    intro hnd
    exact hnd.2.2 _ hin _ (List.mem_map_of_mem (by simp)) rfl

end Tracks

/-! ## Runs -/

lemma maxSize_routeArrayAdd (array : RouteArray) (route : Route) :
    (routeArrayAdd array route).maxSize = array.maxSize := by
  unfold routeArrayAdd
  simp only
  split_ifs
  · rfl
  · exact Packed.maxSize_remove _
  · rfl

lemma maxSize_foldl_routeArrayAdd (array : RouteArray) (routes : List Route) :
    (routes.foldl routeArrayAdd array).maxSize = array.maxSize := by
  induction routes generalizing array with
  | nil => rfl
  | cons r routes ih => rw [List.foldl_cons, ih, maxSize_routeArrayAdd]

/-- The run from an array that is the table of what it was offered so far. -/
lemma exact_run_iff_aux {offers : List Route} :
    ∀ {routes : List Route} {array : RouteArray} {live : List Route}, Tracks array live →
      (∀ r ∈ routes, r.value ≠ 0) →
      IsTable Route.key Route.cost array.maxSize offers array.entries →
      ((∀ pre, pre <+: routes → IsTable Route.key Route.cost array.maxSize (offers ++ pre)
          (pre.foldl routeArrayAdd array).entries) ↔ AddsAllCleanly array routes)
  | [], _, _, _, _, ht => by
      simp only [List.prefix_nil, AddsAllCleanly, iff_true]
      rintro pre rfl
      simpa using ht
  | r :: routes, array, live, h, hr, ht => by
      have hr0 := hr r List.mem_cons_self
      have hrs : ∀ x ∈ routes, x.value ≠ 0 := fun x hx => hr x (List.mem_cons_of_mem _ hx)
      constructor
      · intro hall
        have hc : AddsCleanly array r := by
          by_contra hc
          have h1 := hall [r] (by simp)
          exact h.not_nodup_add hr0 hc h1.nodup
        obtain ⟨live', h', hent⟩ := h.add hr0 hc
        have ht' := ht.offer r
        rw [← hent, ← maxSize_routeArrayAdd array r] at ht'
        refine ⟨hc, (exact_run_iff_aux h' hrs ht').mp fun pre hpre => ?_⟩
        have h2 := hall (r :: pre) (by simpa using hpre)
        rw [List.append_assoc, maxSize_routeArrayAdd]
        exact h2
      · rintro ⟨hc, hcs⟩ pre hpre
        obtain ⟨live', h', hent⟩ := h.add hr0 hc
        have ht' := ht.offer r
        rw [← hent, ← maxSize_routeArrayAdd array r] at ht'
        cases pre with
        | nil => simpa using ht
        | cons x pre =>
            obtain ⟨rfl, hpre'⟩ : x = r ∧ pre <+: routes := List.cons_prefix_cons.mp hpre
            have h2 := (exact_run_iff_aux h' hrs ht').mpr hcs pre hpre'
            rw [List.append_assoc, maxSize_routeArrayAdd] at h2
            exact h2

/-- **Exactness of one array.**  From a fresh array, all the arrays reached are the least-cost
tables of the routes added so far if and only if all the steps are clean. -/
theorem exact_run_iff {m : ℕ} (hm : m ≤ 254) {routes : List Route}
    (hr : ∀ r ∈ routes, r.value ≠ 0) :
    (∀ pre, pre <+: routes → IsTable Route.key Route.cost m pre
        (pre.foldl routeArrayAdd (routeArrayCreate m)).entries)
      ↔ AddsAllCleanly (routeArrayCreate m) routes := by
  have hmax : (routeArrayCreate m).maxSize = m := Nat.mod_eq_of_lt (by omega)
  have hnil : IsTable Route.key Route.cost (routeArrayCreate m).maxSize []
      (routeArrayCreate m).entries := by
    rw [show (routeArrayCreate m).entries = [] from by simp [RouteArray.entries, routeArrayCreate]]
    exact IsTable.nil
  have h := exact_run_iff_aux (Tracks.create hm) hr hnil
  rw [hmax] at h
  simpa using h

end FreeswitchContrib.SimpleLcr
