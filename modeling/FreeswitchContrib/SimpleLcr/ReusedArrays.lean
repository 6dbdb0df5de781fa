import FreeswitchContrib.SimpleLcr.RouteArrayExact
import FreeswitchContrib.SimpleLcr.RouteTrie

/-!
# Arrays of results used again

`route_array_reset` forgets the entries by their number only; the slots keep the routes of the
earlier queries.  `route_array_find_by_cost` searches all the slots, so a route that costs as much
as the old ones is placed behind them, and an old route comes up at the end of the entries instead.

`nextVisible` is the route that comes up when one is placed, read off the array before.
`AddsAlike` compares it along a query, for the array in use and a new one:

* `sameEntries_iff_addsAlike`: the two show the same entries after every route of the query if and
  only if the same route comes up in both each time;
* `routeTrieFind_reused`: the answers of all the queries of a run for which this is so.
-/

namespace FreeswitchContrib.SimpleLcr

variable {array reused fresh : RouteArray} {route : Route} {routes slots : List Route}

/-! ## Slots in use come first -/

/-- The slots in use, then the ones that are as `calloc` left them. -/
structure UsedFirst (slots : List Route) : Prop where
  zero : ∀ r ∈ slots, r.value = 0 → r = Route.zero
  order : slots.Pairwise fun a b => a.value = 0 → b.value = 0

namespace UsedFirst

lemma create (maxSize : ℕ) : UsedFirst (routeArrayCreate maxSize).route where
  zero := fun r hr _ => List.eq_of_mem_replicate hr
  order := by
    refine List.pairwise_replicate.mpr (Or.inr ?_)
    intro h
    exact h

lemma sublist {slots' : List Route} (h : UsedFirst slots) (hsub : slots'.Sublist slots) :
    UsedFirst slots' where
  zero := fun r hr => h.zero r (hsub.subset hr)
  order := h.order.sublist hsub

/-- A zeroed slot in front: all of them are zeroed. -/
lemma eq_replicate {cur : Route} (h : UsedFirst (cur :: slots)) (hcur : cur.value = 0) :
    cur :: slots = List.replicate (slots.length + 1) Route.zero := by
  rw [List.eq_replicate_iff]
  refine ⟨rfl, fun r hr => ?_⟩
  rcases List.mem_cons.mp hr with rfl | hr'
  · exact h.zero _ hr hcur
  · exact h.zero r hr ((List.pairwise_cons.mp h.order).1 r hr' hcur)

/-- The swap loop moves every slot one down. -/
lemma pushDown_eq_take : ∀ {slots : List Route} {cur : Route}, UsedFirst (cur :: slots) →
    pushDown cur slots = (cur :: slots).take slots.length
  | [], _, _ => rfl
  | slot :: rest, cur, h => by
      by_cases hcur : cur.value = 0
      · have hall := h.eq_replicate hcur
        have hrest : slot :: rest = List.replicate (rest.length + 1) Route.zero := by
          rw [List.length_cons, List.replicate_succ] at hall
          exact (List.cons.inj hall).2
        rw [pushDown, if_pos hcur, hall, List.take_replicate, hrest]
        simp
      · rw [pushDown, if_neg hcur, pushDown_eq_take (h.sublist (List.sublist_cons_self _ _)),
          List.length_cons, List.take_succ_cons]

/-- The slots of an array after a removal. -/
lemma remove (h : UsedFirst array.route) (i : ℕ) : UsedFirst (routeArrayRemove array i).route := by
  by_cases hi : i < array.size ∧ 0 < array.size
  · have hsize := array.size_le
    have hlen := array.length_route
    have hslot : ∀ j, (routeArrayRemove array i).route[j]?
        = if i ≤ j ∧ j < i + (array.size - 1 - i) then array.route[j + 1]? else array.route[j]? :=
      fun j => by
        rw [routeArrayRemove, if_pos hi]
        exact getElem?_shiftDown array.route i (array.size - 1 - i) j (by omega)
    constructor
    · intro r hr
      obtain ⟨j, hj⟩ := List.mem_iff_getElem?.mp hr
      rw [hslot] at hj
      split_ifs at hj <;> exact h.zero r (List.mem_of_getElem? hj)
    · rw [List.pairwise_iff_getElem]
      intro j k hj hk hjk
      have hj' := hslot j
      have hk' := hslot k
      rw [List.getElem?_eq_getElem hj] at hj'
      rw [List.getElem?_eq_getElem hk] at hk'
      have horder := List.pairwise_iff_getElem.mp h.order
      grind
  · rw [routeArrayRemove, if_neg hi]
    exact h

end UsedFirst

/-! ## Placing a route -/

/-- The test of `route_array_find_by_cost`. -/
abbrev placeable (cost : RouteCost) (r : Route) : Bool := decide (r.value = 0 ∨ cost < r.cost)

lemma findByCost_of_entry {i : ℕ} {cost : RouteCost}
    (h : array.entries.findIdx? (placeable cost) = some i) :
    routeArrayFindByCost array cost = i := by
  have hsplit : array.route = array.entries ++ array.route.drop array.size :=
    (List.take_append_drop _ _).symm
  rw [routeArrayFindByCost, hsplit, List.findIdx?_append, h]
  rfl

lemma size_le_findByCost {cost : RouteCost}
    (h : array.entries.findIdx? (placeable cost) = none) :
    array.size ≤ routeArrayFindByCost array cost := by
  have hsplit : array.route = array.entries ++ array.route.drop array.size :=
    (List.take_append_drop _ _).symm
  have hle := array.size_le
  rw [routeArrayFindByCost, hsplit, List.findIdx?_append, h, length_entries]
  cases (array.route.drop array.size).findIdx?
      fun r => decide (r.value = 0 ∨ cost < r.cost) with
  | none => exact hle
  | some j => exact Nat.le_add_left _ _

lemma findByCost_le (array : RouteArray) (cost : RouteCost) :
    routeArrayFindByCost array cost ≤ array.maxSize := by
  rw [routeArrayFindByCost]
  cases h : array.route.findIdx? fun r => decide (r.value = 0 ∨ cost < r.cost) with
  | none => exact le_rfl
  | some i =>
      obtain ⟨hi, -⟩ := List.findIdx?_eq_some_iff_getElem.mp h
      rw [array.length_route] at hi
      exact hi.le

/-- Before the place there are routes that cost no more. -/
lemma nonzero_of_lt_findByCost {cost : RouteCost} {r : Route}
    (hr : r ∈ array.route.take (routeArrayFindByCost array cost)) : r.value ≠ 0 := by
  obtain ⟨j, hj, rfl⟩ := List.mem_take_iff_getElem.mp hr
  obtain ⟨hplace, hlen⟩ := lt_min_iff.mp hj
  rw [routeArrayFindByCost] at hplace
  cases h : array.route.findIdx? fun r => decide (r.value = 0 ∨ cost < r.cost) with
  | none =>
      have hfalse := List.findIdx?_eq_none_iff.mp h _ (List.getElem_mem hlen)
      exact fun h0 => of_decide_eq_false hfalse (Or.inl h0)
  | some i =>
      rw [h] at hplace
      obtain ⟨hi, -, hbefore⟩ := List.findIdx?_eq_some_iff_getElem.mp h
      have hfalse := hbefore j hplace
      exact fun h0 => hfalse (decide_eq_true (Or.inl h0))

/-- A route of value 0 takes no slot. -/
lemma route_insertByCost_zero (hr : route.value = 0) :
    (insertByCost array route).route = array.route := by
  simp only [insertByCost]
  have hstop : ∀ l : List Route, pushDown route l = l := fun l => by
    cases l with
    | nil => rfl
    | cons slot rest => rw [pushDown, if_pos hr]
  rw [hstop, List.take_append_drop]

/-- Any other one takes its place, and the slots from there on move down. -/
lemma route_insertByCost (h : UsedFirst array.route) (hr : route.value ≠ 0) :
    (insertByCost array route).route
      = (array.route.take (routeArrayFindByCost array route.cost)
          ++ route :: array.route.drop (routeArrayFindByCost array route.cost)).take
        array.maxSize := by
  have hle := findByCost_le array route.cost
  have hlen := array.length_route
  have hcur : UsedFirst (route :: array.route.drop (routeArrayFindByCost array route.cost)) := by
    have hrest := h.sublist (List.drop_sublist (routeArrayFindByCost array route.cost) _)
    constructor
    · intro r hr'
      rcases List.mem_cons.mp hr' with rfl | hr'
      · exact fun h0 => absurd h0 hr
      · exact hrest.zero r hr'
    · exact List.pairwise_cons.mpr ⟨fun b _ h0 => absurd h0 hr, hrest.order⟩
  simp only [insertByCost]
  rw [hcur.pushDown_eq_take, List.take_append, List.length_take, List.length_drop, List.take_take,
    hlen, min_eq_left hle, min_eq_right hle]

lemma UsedFirst.insertByCost (h : UsedFirst array.route) (route : Route) :
    UsedFirst (SimpleLcr.insertByCost array route).route := by
  by_cases hr : route.value = 0
  · rw [route_insertByCost_zero hr]
    exact h
  · rw [route_insertByCost h hr]
    refine UsedFirst.sublist ?_ (List.take_sublist _ _)
    constructor
    · intro r hr' h0
      rcases List.mem_append.mp hr' with hr' | hr'
      · exact h.zero r (List.mem_of_mem_take hr') h0
      · rcases List.mem_cons.mp hr' with rfl | hr'
        · exact absurd h0 hr
        · exact h.zero r (List.mem_of_mem_drop hr') h0
    · rw [List.pairwise_append, List.pairwise_cons]
      refine ⟨h.order.sublist (List.take_sublist _ _), ⟨fun b _ h0 => absurd h0 hr,
        h.order.sublist (List.drop_sublist _ _)⟩, fun a ha b _ h0 => ?_⟩
      exact absurd h0 (nonzero_of_lt_findByCost ha)

lemma UsedFirst.add (h : UsedFirst array.route) (route : Route) :
    UsedFirst (routeArrayAdd array route).route := by
  unfold routeArrayAdd
  simp only
  split_ifs
  · exact h
  · exact (h.remove _).insertByCost route
  · exact h.insertByCost route

/-! ## The route that comes up -/

/-- What the slot past the entries shows after a route is placed and no entry gives way to it. -/
def nextVisible (array : RouteArray) (route : Route) : Route :=
  if route.value ≠ 0 ∧ routeArrayFindByCost array route.cost ≤ array.size then route
  else array.route.getD array.size Route.zero

/-- The first entry that gives way to a route. -/
def givesWay (entries : List Route) (route : Route) : Option ℕ :=
  if route.value = 0 then none else entries.findIdx? (placeable route.cost)

/-- The entries with a route before the one that gives way, or with what comes up at their end. -/
def placedEntries (entries : List Route) (route next : Route) : List Route :=
  match givesWay entries route with
  | some i => entries.take i ++ route :: entries.drop i
  | none => entries ++ [next]

lemma entries_snoc (hroom : array.size < array.maxSize) :
    array.route.take (array.size + 1)
      = array.entries ++ [array.route.getD array.size Route.zero] := by
  have hlt : array.size < array.route.length := by
    rw [array.length_route]
    exact hroom
  rw [← List.take_append_getElem hlt, List.getD_eq_getElem?_getD, List.getElem?_eq_getElem hlt]
  rfl

lemma size_insertByCost_of_room (hroom : array.size < array.maxSize) (hmax : array.maxSize < 256)
    (route : Route) : (insertByCost array route).size = array.size + 1 := by
  rw [size_insertByCost_eq, Nat.mod_eq_of_lt (by omega)]
  omega

/-- **Placing a route in an array that is not full.** -/
theorem entries_insertByCost_eq (h : UsedFirst array.route) (hroom : array.size < array.maxSize)
    (hmax : array.maxSize < 256) (route : Route) : (insertByCost array route).entries
      = placedEntries array.entries route (nextVisible array route) := by
  have hsize := size_insertByCost_of_room hroom hmax route
  rw [RouteArray.entries, hsize, placedEntries, givesWay, nextVisible]
  by_cases hr : route.value = 0
  · rw [route_insertByCost_zero hr, if_pos hr, if_neg (fun hh => hh.1 hr), entries_snoc hroom]
  · rw [route_insertByCost h hr, if_neg hr, List.take_take, min_eq_left (show
      array.size + 1 ≤ array.maxSize from hroom)]
    cases hfind : array.entries.findIdx? (placeable route.cost) with
    | some i =>
        obtain ⟨hi, -⟩ := List.findIdx?_eq_some_iff_getElem.mp hfind
        rw [length_entries] at hi
        have hlen : (array.route.take i).length = i := by
          rw [List.length_take, array.length_route]
          omega
        have htake : array.entries.take i = array.route.take i := by
          rw [RouteArray.entries, List.take_take, min_eq_left hi.le]
        have hdrop : array.entries.drop i = (array.route.drop i).take (array.size - i) :=
          List.drop_take
        simp only [findByCost_of_entry hfind]
        rw [List.take_append, hlen, List.take_of_length_le (by rw [hlen]; omega), htake, hdrop,
          show array.size + 1 - i = array.size - i + 1 by omega, List.take_succ_cons]
    | none =>
        have hle := size_le_findByCost hfind
        rcases hle.eq_or_lt with heq | hlt
        · rw [← heq, if_pos ⟨hr, le_rfl⟩]
          have hlen : (array.route.take array.size).length = array.size := length_entries array
          rw [List.take_append, hlen, List.take_of_length_le (by rw [hlen]; omega),
            Nat.add_sub_cancel_left]
          rfl
        · rw [if_neg (fun hh => absurd hh.2 (by omega)), List.take_append_of_le_length (by
            have := findByCost_le array route.cost
            rw [List.length_take, array.length_route]
            omega), List.take_take, min_eq_left hlt, entries_snoc hroom]

/-! ## Two arrays with the same entries -/

/-- What the callers can tell apart: neither the capacity nor an entry. -/
structure SameEntries (a b : RouteArray) : Prop where
  maxSize : a.maxSize = b.maxSize
  entries : a.entries = b.entries

lemma SameEntries.size (h : SameEntries reused fresh) : reused.size = fresh.size := by
  rw [← length_entries reused, h.entries, length_entries]

/-- Full arrays have nothing but their entries. -/
lemma SameEntries.eq_of_full (h : SameEntries reused fresh) (hfull : reused.size = reused.maxSize) :
    reused = fresh := by
  have hall : ∀ array : RouteArray, array.size = array.maxSize → array.entries = array.route :=
    fun array heq => List.take_of_length_le (by rw [array.length_route, heq])
  have hroute : reused.route = fresh.route := by
    rw [← hall reused hfull, ← hall fresh (by rw [← h.size, hfull, h.maxSize])]
    exact h.entries
  exact RouteArray.ext h.maxSize h.size hroute

/-- **One route.**  The entries stay the same if and only if the same route comes up. -/
theorem insertByCost_sameEntries_iff (h : SameEntries reused fresh) (hr : UsedFirst reused.route)
    (hf : UsedFirst fresh.route) (hmax : reused.maxSize < 256) (route : Route) :
    SameEntries (insertByCost reused route) (insertByCost fresh route)
      ↔ nextVisible reused route = nextVisible fresh route := by
  rcases reused.size_le.eq_or_lt with hfull | hroom
  · rw [h.eq_of_full hfull]
    exact ⟨fun _ => rfl, fun _ => ⟨rfl, rfl⟩⟩
  · have hreused := entries_insertByCost_eq hr hroom hmax route
    have hfresh := entries_insertByCost_eq hf (by rw [← h.size, ← h.maxSize]; exact hroom)
      (by rw [← h.maxSize]; exact hmax) route
    constructor
    · intro hsame
      have heq := hsame.entries
      rw [hreused, hfresh, h.entries, placedEntries, placedEntries] at heq
      cases hway : givesWay fresh.entries route with
      | none =>
          rw [hway] at heq
          exact (List.cons.inj (List.append_cancel_left heq)).1
      | some i =>
          -- the entry that gives way is before the slot past the entries, in both
          have hnext : ∀ array : RouteArray, givesWay array.entries route = some i →
              nextVisible array route = route := fun array hway => by
            rw [givesWay] at hway
            split_ifs at hway with hzero
            obtain ⟨hi, -⟩ := List.findIdx?_eq_some_iff_getElem.mp hway
            rw [length_entries] at hi
            rw [nextVisible, findByCost_of_entry hway, if_pos ⟨hzero, hi.le⟩]
          rw [hnext fresh hway, hnext reused (by rw [h.entries]; exact hway)]
    · intro hnext
      exact ⟨h.maxSize, by rw [hreused, hfresh, h.entries, hnext]⟩

/-! ## Adding a route -/

/-- The array a route is placed in: without the entry that has its value and type, unless that
one is cheaper and the route is not placed. -/
def placedIn (array : RouteArray) (route : Route) : Option RouteArray :=
  let i := routeArrayFindByValueAndType array route.value route.type
  if i ≠ array.maxSize then
    if (array.route.getD i Route.zero).cost < route.cost then none
    else some (routeArrayRemove array i)
  else some array

lemma routeArrayAdd_eq (array : RouteArray) (route : Route) : routeArrayAdd array route =
    match placedIn array route with
    | some placed => insertByCost placed route
    | none => array := by
  unfold routeArrayAdd placedIn
  simp only
  split_ifs <;> rfl

lemma entries_routeArrayRemove {i : ℕ} (hi : i < array.size) :
    (routeArrayRemove array i).entries = array.entries.eraseIdx i := by
  have hsize := array.size_le
  have hlen := array.length_route
  have hshift := shiftDown_eq array.route i (array.size - 1 - i) (by omega)
  have hfst : (array.route.take i ++ (array.route.drop (i + 1)).take (array.size - 1 - i)).length
      = array.size - 1 := by
    simp only [List.length_append, List.length_take, List.length_drop]
    omega
  rw [RouteArray.entries, routeArrayRemove, if_pos ⟨hi, by omega⟩]
  simp only
  rw [hshift, List.take_left' hfst, List.eraseIdx_eq_take_drop_succ, RouteArray.entries,
    List.take_take, min_eq_left hi.le, List.drop_take]
  congr 2
  omega

lemma SameEntries.placedIn (h : SameEntries reused fresh) (route : Route) :
    (placedIn reused route = none ∧ placedIn fresh route = none) ∨
      ∃ a b, placedIn reused route = some a ∧ placedIn fresh route = some b ∧ SameEntries a b := by
  have hfind : routeArrayFindByValueAndType reused route.value route.type
      = routeArrayFindByValueAndType fresh route.value route.type := by
    rw [routeArrayFindByValueAndType, routeArrayFindByValueAndType, h.entries, h.maxSize]
  by_cases hk : route.key ∈ fresh.entries.map Route.key
  · obtain ⟨i, e, hi, hlt, he, -, -⟩ := findByValueAndType_of_mem hk
    have hlt' : i < reused.size := h.size ▸ hlt
    have hne : i ≠ fresh.maxSize := by
      have := fresh.size_le
      omega
    have hcost : reused.route.getD i Route.zero = fresh.route.getD i Route.zero := by
      rw [getD_of_entry hlt he, getD_of_entry hlt' (by rw [h.entries]; exact he)]
    simp only [SimpleLcr.placedIn, hfind, hi, h.maxSize, hcost, ne_eq, hne, not_false_eq_true,
      if_true]
    split_ifs
    · exact Or.inl ⟨rfl, rfl⟩
    · refine Or.inr ⟨_, _, rfl, rfl, ?_, ?_⟩
      · rw [Packed.maxSize_remove, Packed.maxSize_remove, h.maxSize]
      · rw [entries_routeArrayRemove hlt', entries_routeArrayRemove hlt, h.entries]
  · have hi := findByValueAndType_of_notMem hk
    refine Or.inr ⟨reused, fresh, ?_, ?_, h⟩
    · simp [SimpleLcr.placedIn, hfind, hi, h.maxSize]
    · simp [SimpleLcr.placedIn, hi]

lemma UsedFirst.placedIn {placed : RouteArray} (h : UsedFirst array.route)
    (hplaced : placedIn array route = some placed) :
    UsedFirst placed.route ∧ placed.maxSize = array.maxSize := by
  simp only [SimpleLcr.placedIn] at hplaced
  split_ifs at hplaced <;> obtain rfl := Option.some.inj hplaced
  · exact ⟨h.remove _, Packed.maxSize_remove _⟩
  · exact ⟨h, rfl⟩

/-- The route that comes up when one is added, if it is placed at all. -/
def comesUp (array : RouteArray) (route : Route) : Option Route :=
  (placedIn array route).map fun placed => nextVisible placed route

/-- The same route comes up in both arrays, each time a route is added. -/
def AddsAlike : RouteArray → RouteArray → List Route → Prop
  | _, _, [] => True
  | reused, fresh, route :: routes => comesUp reused route = comesUp fresh route ∧
      AddsAlike (routeArrayAdd reused route) (routeArrayAdd fresh route) routes

instance decidableAddsAlike : ∀ (reused fresh : RouteArray) (routes : List Route),
    Decidable (AddsAlike reused fresh routes)
  | _, _, [] => isTrue trivial
  | reused, fresh, route :: routes =>
      have := decidableAddsAlike (routeArrayAdd reused route) (routeArrayAdd fresh route) routes
      inferInstanceAs (Decidable (_ ∧ _))

/-- **One step.**  Adding a route to both keeps the entries the same if and only if the same route
comes up. -/
theorem routeArrayAdd_sameEntries_iff (h : SameEntries reused fresh) (hr : UsedFirst reused.route)
    (hf : UsedFirst fresh.route) (hmax : reused.maxSize < 256) (route : Route) :
    SameEntries (routeArrayAdd reused route) (routeArrayAdd fresh route)
      ↔ comesUp reused route = comesUp fresh route := by
  rw [routeArrayAdd_eq, routeArrayAdd_eq, comesUp, comesUp]
  rcases h.placedIn route with ⟨hreused, hfresh⟩ | ⟨a, b, hreused, hfresh, hsame⟩
  · rw [hreused, hfresh]
    exact ⟨fun _ => rfl, fun _ => h⟩
  · obtain ⟨ha, hamax⟩ := hr.placedIn hreused
    obtain ⟨hb, -⟩ := hf.placedIn hfresh
    have hstep := insertByCost_sameEntries_iff hsame ha hb (by omega) route
    rw [hreused, hfresh]
    simpa using hstep

/-- **One query.**  The entries are the same after each of its routes if and only if the same route
comes up each time. -/
theorem sameEntries_iff_addsAlike : ∀ {routes : List Route} {reused fresh : RouteArray},
    SameEntries reused fresh → UsedFirst reused.route → UsedFirst fresh.route →
    reused.maxSize < 256 →
    ((∀ added, added <+: routes →
        SameEntries (added.foldl routeArrayAdd reused) (added.foldl routeArrayAdd fresh))
      ↔ AddsAlike reused fresh routes)
  | [], reused, fresh, h, _, _, _ => by
      simp only [List.prefix_nil, AddsAlike, iff_true]
      rintro added rfl
      exact h
  | route :: routes, reused, fresh, h, hr, hf, hmax => by
      have hmax' : (routeArrayAdd reused route).maxSize < 256 := by
        rw [maxSize_routeArrayAdd]
        exact hmax
      have hstep := routeArrayAdd_sameEntries_iff h hr hf hmax route
      have ih := fun h' => @sameEntries_iff_addsAlike routes _ _ h' (hr.add route)
        (hf.add route) hmax'
      constructor
      · intro hall
        have hone := hall [route] (by simp)
        exact ⟨hstep.mp hone, (ih hone).mp fun added hadded =>
          hall (route :: added) (by simpa using hadded)⟩
      · rintro ⟨hup, halike⟩ added hadded
        cases added with
        | nil => exact h
        | cons x added =>
            obtain ⟨rfl, hrest⟩ := List.cons_prefix_cons.mp hadded
            exact (ih (hstep.mpr hup)).mpr halike added hrest

/-! ## Queries -/

/-- What is done with an array of results. -/
inductive Use where
  | find (key : List Char)
  | reset

def Use.apply (trie : RouteTrie) (array : RouteArray) : Use → RouteArray
  | .find key => (routeTrieFind trie key array).1
  | .reset => routeArrayReset array

/-- An array created for the results and used since. -/
def usedArray (trie : RouteTrie) (maxSize : ℕ) (history : List Use) : RouteArray :=
  history.foldl (Use.apply trie) (routeArrayCreate maxSize)

/-- The same return value and the same visible entries. -/
def FindsAlike (trie : RouteTrie) (key : List Char) (reused fresh : RouteArray) : Prop :=
  (routeTrieFind trie key reused).2 = (routeTrieFind trie key fresh).2 ∧
    ∀ index, routeArrayGetRoute (routeTrieFind trie key reused).1 index
      = routeArrayGetRoute (routeTrieFind trie key fresh).1 index

lemma UsedFirst.foldl_add : ∀ {routes : List Route} {array : RouteArray},
    UsedFirst array.route → UsedFirst (routes.foldl routeArrayAdd array).route
  | [], _, h => h
  | route :: routes, array, h => by
      rw [List.foldl_cons]
      exact foldl_add (h.add route)

/-- **Every array in use** has the capacity it was created with, and its used slots first. -/
theorem usedFirst_usedArray (trie : RouteTrie) (maxSize : ℕ) (history : List Use) :
    UsedFirst (usedArray trie maxSize history).route ∧
      (usedArray trie maxSize history).maxSize = maxSize % 256 := by
  induction history using List.reverseRecOn with
  | nil => exact ⟨UsedFirst.create maxSize, rfl⟩
  | append_singleton history use ih =>
      rw [usedArray, List.foldl_append]
      change UsedFirst (Use.apply trie (usedArray trie maxSize history) use).route ∧
        (Use.apply trie (usedArray trie maxSize history) use).maxSize = maxSize % 256
      cases use with
      | find key =>
          rw [Use.apply, routeTrieFind, routeTrieNodeFind_eq]
          exact ⟨ih.1.foldl_add, by rw [maxSize_foldl_routeArrayAdd]; exact ih.2⟩
      | reset => exact ih

lemma SameEntries.getRoute (h : SameEntries reused fresh) (index : ℕ) :
    routeArrayGetRoute reused index = routeArrayGetRoute fresh index := by
  have hslot : ∀ array : RouteArray, routeArrayGetRoute array index = array.entries[index]? :=
    fun array => by
      rw [routeArrayGetRoute, RouteArray.entries, List.getElem?_take]
  rw [hslot, hslot, h.entries]

lemma SameEntries.findsAlike {trie : RouteTrie} {key : List Char}
    (h : SameEntries ((pathEntries trie.root key).foldl routeArrayAdd reused)
      ((pathEntries trie.root key).foldl routeArrayAdd fresh)) :
    FindsAlike trie key reused fresh := by
  rw [← routeTrieNodeFind_eq, ← routeTrieNodeFind_eq] at h
  refine ⟨?_, h.getRoute⟩
  rw [routeTrieFind, routeTrieFind, routeTrieNodeFind_snd, routeTrieNodeFind_snd, h.size]

/-- **Reused arrays.**  After any use and a reset, a query shows after each of its routes what it
shows in a new array if and only if the same route comes up each time, and then it answers what it
answers for a new one. -/
theorem routeTrieFind_reused (trie : RouteTrie) (maxSize : ℕ) (history : List Use)
    (key : List Char) :
    ((∀ added, added <+: pathEntries trie.root key →
        SameEntries (added.foldl routeArrayAdd (routeArrayReset (usedArray trie maxSize history)))
          (added.foldl routeArrayAdd (routeArrayCreate maxSize)))
      ↔ AddsAlike (routeArrayReset (usedArray trie maxSize history)) (routeArrayCreate maxSize)
          (pathEntries trie.root key)) ∧
    (AddsAlike (routeArrayReset (usedArray trie maxSize history)) (routeArrayCreate maxSize)
        (pathEntries trie.root key) →
      FindsAlike trie key (routeArrayReset (usedArray trie maxSize history))
        (routeArrayCreate maxSize)) := by
  obtain ⟨hused, hmax⟩ := usedFirst_usedArray trie maxSize history
  have hstart : SameEntries (routeArrayReset (usedArray trie maxSize history))
      (routeArrayCreate maxSize) := ⟨hmax, rfl⟩
  have hquery := @sameEntries_iff_addsAlike (pathEntries trie.root key) _ _ hstart hused
    (UsedFirst.create maxSize) (by
      change (usedArray trie maxSize history).maxSize < 256
      omega)
  exact ⟨hquery, fun halike => (hquery.mpr halike _ (List.prefix_refl _)).findsAlike⟩

/-- A cheap route for the digit 1 and a dear one for the digit 2. -/
def twoPrices : RouteTrie := loadRoutes 3 [⟨['1'], 5, 1, 0⟩, ⟨['2'], 7, 2, 0⟩]

/-- The cheap route, after the dear one. -/
theorem routeTrieFind_reused_cheaper : FindsAlike twoPrices ['1']
    (routeArrayReset (usedArray twoPrices 3 [.find ['2']])) (routeArrayCreate 3) :=
  (routeTrieFind_reused twoPrices 3 [.find ['2']] ['1']).2 (by decide)

/-- The dear route, after the cheap one: the cheap one comes up. -/
theorem not_routeTrieFind_reused : ¬∀ (trie : RouteTrie) (maxSize : ℕ) (history : List Use)
    (key : List Char), FindsAlike trie key (routeArrayReset (usedArray trie maxSize history))
      (routeArrayCreate maxSize) := by
  intro h
  have hfirst := (h twoPrices 3 [.find ['1'], .reset] ['2']).2 0
  exact absurd hfirst (by decide)

end FreeswitchContrib.SimpleLcr
