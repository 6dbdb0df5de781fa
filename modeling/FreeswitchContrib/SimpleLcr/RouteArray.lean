import Mathlib.Algebra.GroupWithZero.Nat
import Mathlib.Data.List.Sort
import Mathlib.Data.List.TakeDrop
import FreeswitchContrib.Library.LeastCost

/-!
# Arrays of routes

The bounded array of `route_trie.c`, slot by slot.  A `RouteArray` keeps every slot it was
allocated with, also the ones at and beyond its `size`: `routeArrayFindByCost` and the insertion
loop of `routeArrayAdd` read them, and `routeArrayRemove` leaves a copy of the last entry behind
in one of them.

`Packed` is the invariant of an array that started out zeroed: the slots in use, visible or not,
come first and are sorted by cost, and the rest is still zero.
-/

namespace FreeswitchContrib.SimpleLcr

/-- `route_cost_t` -/
abbrev RouteCost := Fin 65536
/-- `route_value_t` -/
abbrev RouteValue := Fin 65536
/-- `route_type_t` -/
abbrev RouteType := Fin 256

scoped instance neZeroCost : NeZero 65536 := ⟨by decide⟩

scoped instance neZeroType : NeZero 256 := ⟨by decide⟩

/-- A route in the database. -/
structure Route where
  cost : RouteCost
  value : RouteValue
  type : RouteType
  deriving DecidableEq, Repr

/-- A slot as `calloc` leaves it. -/
def Route.zero : Route := ⟨0, 0, 0⟩

/-- What makes two routes the same: the value and the type, whatever they cost. -/
def Route.key (r : Route) : RouteValue × RouteType := (r.value, r.type)

lemma Route.ext_of_key {a b : Route} (hk : a.key = b.key) (hc : a.cost = b.cost) : a = b := by
  cases a
  cases b
  simp only [Route.key, Prod.mk.injEq] at hk hc
  simp [hc, hk]

/-- An array of routes.  `route` is all the allocated slots, of which `size` are visible. -/
@[ext] structure RouteArray where
  maxSize : ℕ
  size : ℕ
  route : List Route
  length_route : route.length = maxSize
  size_le : size ≤ maxSize
  deriving Repr

/-- The visible entries: those `route_array_get_route` returns. -/
def RouteArray.entries (array : RouteArray) : List Route := array.route.take array.size

/-! ## The operations -/

/-- `route_size_t` has eight bits. -/
def routeArrayCreate (maxSize : ℕ) : RouteArray where
  maxSize := maxSize % 256
  size := 0
  route := List.replicate (maxSize % 256) Route.zero
  length_route := List.length_replicate
  size_le := Nat.zero_le _

def routeArrayGetSize (array : RouteArray) : ℕ := array.size

def routeArrayGetRoute (array : RouteArray) (index : ℕ) : Option Route :=
  if index < array.size then array.route[index]? else none

def routeArrayReset (array : RouteArray) : RouteArray :=
  { array with size := 0, size_le := Nat.zero_le _ }

def routeArrayContains (array : RouteArray) (value : RouteValue) : Bool :=
  array.entries.any fun r => r.value == value

/-- The first visible index with this value and type, `maxSize` when there is none. -/
def routeArrayFindByValueAndType (array : RouteArray) (value : RouteValue) (type : RouteType) : ℕ :=
  match array.entries.findIdx? fun r => decide (r.value = value ∧ r.type = type) with
  | some i => i
  | none => array.maxSize

/-- The first index where a route of this cost can be placed, `maxSize` when there is no room.
The loop runs over all the slots, visible or not. -/
def routeArrayFindByCost (array : RouteArray) (cost : RouteCost) : ℕ :=
  match array.route.findIdx? fun r => decide (r.value = 0 ∨ cost < r.cost) with
  | some i => i
  | none => array.maxSize

/-- `n` turns of the loop of `route_array_remove`: each copies the slot after `index` onto it. -/
def shiftDown (route : List Route) (index : ℕ) : ℕ → List Route
  | 0 => route
  | n + 1 => shiftDown (route.set index (route.getD (index + 1) Route.zero)) (index + 1) n

lemma length_shiftDown (route : List Route) (index n : ℕ) :
    (shiftDown route index n).length = route.length := by
  induction n generalizing route index with
  | zero => rfl
  | succ n ih => rw [shiftDown, ih, List.length_set]

/-- The slot of the last entry keeps its content, only `size` forgets it. -/
def routeArrayRemove (array : RouteArray) (index : ℕ) : RouteArray :=
  if index < array.size ∧ 0 < array.size then
    { array with
      route := shiftDown array.route index (array.size - 1 - index)
      size := array.size - 1
      length_route := (length_shiftDown _ _ _).trans array.length_route
      size_le := (Nat.sub_le _ _).trans array.size_le }
  else array

/-- The swap loop of `route_array_add`: `cur` takes the slot and what was there moves on, until
there is nothing to move or no slot left. -/
def pushDown (cur : Route) : List Route → List Route
  | [] => []
  | slot :: rest => if cur.value = 0 then slot :: rest else cur :: pushDown slot rest

lemma length_pushDown (cur : Route) (slots : List Route) :
    (pushDown cur slots).length = slots.length := by
  induction slots generalizing cur with
  | nil => rfl
  | cons slot rest ih =>
      rw [pushDown]
      split_ifs
      · rfl
      · rw [List.length_cons, ih, List.length_cons]

/-- The second half of `route_array_add`: insert by cost, count the entry, and clamp the count. -/
def insertByCost (array : RouteArray) (route : Route) : RouteArray :=
  let i := routeArrayFindByCost array route.cost
  let size := (array.size + 1) % 256
  { maxSize := array.maxSize
    size := if array.maxSize < size then array.maxSize else size
    route := array.route.take i ++ pushDown route (array.route.drop i)
    length_route := by
      rw [List.length_append, length_pushDown, ← List.length_append, List.take_append_drop]
      exact array.length_route
    size_le := by split_ifs <;> omega }

/-- `route_array_add` -/
def routeArrayAdd (array : RouteArray) (route : Route) : RouteArray :=
  let i := routeArrayFindByValueAndType array route.value route.type
  if i ≠ array.maxSize then
    if (array.route.getD i Route.zero).cost < route.cost then array
    else insertByCost (routeArrayRemove array i) route
  else insertByCost array route

/-- The size wraps around before it is limited to the capacity. -/
lemma size_insertByCost_eq (array : RouteArray) (route : Route) :
    (insertByCost array route).size = min array.maxSize ((array.size + 1) % 256) := by
  rw [insertByCost]
  simp only
  split_ifs <;> omega

/-! ## What the searches return -/

@[simp] lemma length_entries (array : RouteArray) : array.entries.length = array.size := by
  rw [RouteArray.entries, List.length_take, array.length_route]
  exact min_eq_left array.size_le

lemma entries_getElem? (array : RouteArray) {i : ℕ} (hi : i < array.size) :
    array.entries[i]? = array.route[i]? := by
  rw [RouteArray.entries, List.getElem?_take, if_pos hi]

/-- The last entry back in its place. -/
lemma eraseIdx_last_append {array : RouteArray} {i : ℕ} {e : Route} (hi : i + 1 = array.size)
    (he : array.entries[i]? = some e) : array.entries.eraseIdx i ++ [e] = array.entries := by
  obtain ⟨hlen, hget⟩ := List.getElem?_eq_some_iff.mp he
  rw [List.eraseIdx_eq_take_drop_succ,
    List.drop_of_length_le (by rw [length_entries]; omega), List.append_nil, ← hget,
    List.take_append_getElem, List.take_of_length_le (by rw [length_entries]; omega)]

lemma findByValueAndType_of_notMem {array : RouteArray} {route : Route}
    (h : route.key ∉ array.entries.map Route.key) :
    routeArrayFindByValueAndType array route.value route.type = array.maxSize := by
  have hn : array.entries.findIdx? (fun r => decide (r.value = route.value ∧ r.type = route.type))
      = none := by
    rw [List.findIdx?_eq_none_iff]
    intro e he
    refine decide_eq_false fun hke => h (List.mem_map.mpr ⟨e, he, ?_⟩)
    exact Prod.ext hke.1 hke.2
  rw [routeArrayFindByValueAndType, hn]

/-- When the pair is present the search returns the index of an entry that has it, and the
entries without that one are the entries with the first of its key erased. -/
lemma findByValueAndType_of_mem {array : RouteArray} {route : Route}
    (h : route.key ∈ array.entries.map Route.key) :
    ∃ i e, routeArrayFindByValueAndType array route.value route.type = i ∧ i < array.size ∧
      array.entries[i]? = some e ∧ e.key = route.key ∧
      array.entries.eraseP (fun e => decide (e.key = route.key)) = array.entries.eraseIdx i := by
  have hp : (fun r : Route => decide (r.value = route.value ∧ r.type = route.type))
      = fun e => decide (e.key = route.key) := by
    funext r
    simp [Route.key, Prod.ext_iff]
  obtain ⟨e₀, he₀, hk₀⟩ := List.mem_map.mp h
  cases hf : array.entries.findIdx? fun e => decide (e.key = route.key) with
  | none =>
      rw [List.findIdx?_eq_none_iff] at hf
      exact absurd hk₀ (of_decide_eq_false (hf e₀ he₀))
  | some i =>
      obtain ⟨hi, hki, -⟩ := List.findIdx?_eq_some_iff_getElem.mp hf
      refine ⟨i, array.entries[i], ?_, by simpa using hi, List.getElem?_eq_getElem hi,
        of_decide_eq_true hki, ?_⟩
      · rw [routeArrayFindByValueAndType, hp, hf]
      · rw [List.eraseP_eq_eraseIdx, hf]

lemma getD_of_entry {array : RouteArray} {i : ℕ} {e : Route} (hlt : i < array.size)
    (he : array.entries[i]? = some e) : array.route.getD i Route.zero = e := by
  rw [entries_getElem? array hlt] at he
  rw [List.getD_eq_getElem?_getD, he]
  rfl

/-- What is added for a pair that is found at `i`. -/
lemma routeArrayAdd_of_found {array : RouteArray} {route : Route} {i : ℕ} {e : Route}
    (hi : routeArrayFindByValueAndType array route.value route.type = i) (hlt : i < array.size)
    (he : array.entries[i]? = some e) : routeArrayAdd array route =
      if e.cost < route.cost then array else insertByCost (routeArrayRemove array i) route := by
  have hne : i ≠ array.maxSize := by
    have := array.size_le
    omega
  rw [routeArrayAdd]
  simp only [hi, ne_eq, if_pos hne, getD_of_entry hlt he]

lemma routeArrayAdd_of_notMem {array : RouteArray} {route : Route}
    (hk : route.key ∉ array.entries.map Route.key) :
    routeArrayAdd array route = insertByCost array route := by
  rw [routeArrayAdd]
  simp only [findByValueAndType_of_notMem hk, ne_eq, not_true_eq_false, if_false]

/-! ## The loops in closed form -/

lemma getElem?_shiftDown (route : List Route) (index n j : ℕ) (h : index + n < route.length) :
    (shiftDown route index n)[j]?
      = if index ≤ j ∧ j < index + n then route[j + 1]? else route[j]? := by
  induction n generalizing route index with
  | zero => simp [shiftDown]
  | succ n ih =>
      have hb : index + 1 < route.length := by omega
      have hget : route.getD (index + 1) Route.zero = route[index + 1] := by
        rw [List.getD_eq_getElem?_getD, List.getElem?_eq_getElem hb]
        rfl
      rw [shiftDown, ih _ _ (by rw [List.length_set]; omega), hget]
      simp only [List.getElem?_set]
      split_ifs <;> grind

lemma shiftDown_eq (route : List Route) (index n : ℕ) (h : index + n < route.length) :
    shiftDown route index n
      = route.take index ++ (route.drop (index + 1)).take n ++ route.drop (index + n) := by
  apply List.ext_getElem?
  intro j
  rw [getElem?_shiftDown route index n j h]
  simp only [List.getElem?_append, List.length_append, List.length_take, List.length_drop,
    List.getElem?_take, List.getElem?_drop]
  split_ifs <;> grind

lemma pushDown_zeros {cur : Route} (hcur : cur.value ≠ 0) (n : ℕ) :
    pushDown cur (List.replicate n Route.zero)
      = (cur :: List.replicate n Route.zero).take n := by
  cases n with
  | zero => rfl
  | succ n =>
      have hz : pushDown Route.zero (List.replicate n Route.zero) = List.replicate n Route.zero := by
        cases n with
        | zero => rfl
        | succ n => simp [List.replicate_succ, pushDown, Route.zero]
      rw [List.replicate_succ, pushDown, if_neg hcur, hz, List.take_succ_cons,
        ← List.replicate_succ, List.take_replicate]
      simp

lemma pushDown_eq {cur : Route} (hcur : cur.value ≠ 0) {live : List Route}
    (hlive : ∀ r ∈ live, r.value ≠ 0) (n : ℕ) :
    pushDown cur (live ++ List.replicate n Route.zero)
      = (cur :: (live ++ List.replicate n Route.zero)).take (live.length + n) := by
  induction live generalizing cur with
  | nil => simpa using pushDown_zeros hcur n
  | cons r live ih =>
      rw [List.cons_append, pushDown, if_neg hcur, List.length_cons,
        ih (hlive r List.mem_cons_self) fun x hx => hlive x (List.mem_cons_of_mem _ hx),
        show live.length + 1 + n = live.length + n + 1 by omega, List.take_succ_cons]

end FreeswitchContrib.SimpleLcr
