import Mathlib.Data.Finset.Card
import FreeswitchContrib.SimpleLcr.LcrDatabase
import FreeswitchContrib.SimpleLcr.RouteArrayExact

/-!
# How many routes an array says it holds

`route_size_t` has eight bits, and `load_config` accepts 256 carriers: their tries have room for no
route at all.  In an array with room for 255 the count wraps to 0 when one more route is discarded.
And a pair whose cheaper copy leaves the old one behind makes room for a route that stays invisible
and is counted again when it is added again.

* `size_routeArrayAdd`: one addition, by what the search finds;
* `sizes_iff`: the sizes of a run count its pairs if and only if every addition of the run does;
* `capacity_iff`: which numbers of carriers are stored as they are.
-/

namespace FreeswitchContrib.SimpleLcr

variable {array : RouteArray} {live : List Route} {route : Route} {added routes : List Route}
  {c n : ℕ}

/-- The number of different pairs of a value and a type among these routes. -/
def distinctPairs (routes : List Route) : ℕ := (routes.map Route.key).toFinset.card

/-- What must hold when a route is added after these: its pair is found, or there is no room and
the count does not wrap, or there is room and the pair is a new one. -/
def CountsOnce (array : RouteArray) (added : List Route) (route : Route) : Prop :=
  if routeArrayFindByValueAndType array route.value route.type ≠ array.maxSize then True
  else if array.size = array.maxSize then array.maxSize ≠ 255
  else route.key ∉ added.map Route.key

instance (array : RouteArray) (added : List Route) (route : Route) :
    Decidable (CountsOnce array added route) := by
  unfold CountsOnce
  infer_instance

/-- Every addition of a run counts its pair once. -/
def AllCountOnce : RouteArray → List Route → List Route → Prop
  | _, _, [] => True
  | array, added, route :: routes =>
    CountsOnce array added route ∧
      AllCountOnce (routeArrayAdd array route) (added ++ [route]) routes

instance decidableAllCountOnce : ∀ (array : RouteArray) (added routes : List Route),
    Decidable (AllCountOnce array added routes)
  | _, _, [] => isTrue trivial
  | array, added, route :: routes =>
    have := decidableAllCountOnce (routeArrayAdd array route) (added ++ [route]) routes
    inferInstanceAs (Decidable (CountsOnce array added route ∧ _))

/-! ## Counting pairs -/

lemma distinctPairs_snoc (added : List Route) (route : Route) :
    distinctPairs (added ++ [route])
      = if route.key ∈ added.map Route.key then distinctPairs added
        else distinctPairs added + 1 := by
  have hset : ((added ++ [route]).map Route.key).toFinset
      = insert route.key (added.map Route.key).toFinset := by
    ext pair
    simp
  rw [distinctPairs, hset]
  split_ifs with hk
  · rw [Finset.insert_eq_self.mpr (List.mem_toFinset.mpr hk)]
    rfl
  · rw [Finset.card_insert_of_notMem (fun h => hk (List.mem_toFinset.mp h))]
    rfl

/-! ## One addition -/

lemma findByValueAndType_eq_maxSize_iff :
    routeArrayFindByValueAndType array route.value route.type = array.maxSize ↔
      route.key ∉ array.entries.map Route.key := by
  refine ⟨fun hmax hk => ?_, findByValueAndType_of_notMem⟩
  obtain ⟨i, e, hi, hlt, -⟩ := findByValueAndType_of_mem hk
  have := array.size_le
  omega

/-- **One addition.**  A pair that is found leaves the size as it is.  Any other one is counted,
also when it is discarded. -/
theorem size_routeArrayAdd (hmax : array.maxSize ≤ 255) (route : Route) :
    (routeArrayAdd array route).size =
      if routeArrayFindByValueAndType array route.value route.type ≠ array.maxSize then array.size
      else if array.size = array.maxSize then if array.maxSize = 255 then 0 else array.maxSize
      else array.size + 1 := by
  have hsize := array.size_le
  by_cases hk : route.key ∈ array.entries.map Route.key
  · rw [if_pos (fun h => findByValueAndType_eq_maxSize_iff.mp h hk)]
    obtain ⟨i, e, hi, hlt, he, -, -⟩ := findByValueAndType_of_mem hk
    rw [routeArrayAdd_of_found hi hlt he]
    split_ifs with hcost
    · rfl
    · rw [size_insertByCost_eq, Packed.maxSize_remove, Packed.size_remove hlt]
      omega
  · rw [if_neg (not_not.mpr (findByValueAndType_eq_maxSize_iff.mpr hk)), routeArrayAdd_of_notMem hk,
      size_insertByCost_eq]
    split_ifs <;> omega

/-- The size after an addition counts the pairs exactly when the addition counts its pair once, if
the size did so before and the array holds nothing but what was added. -/
lemma size_routeArrayAdd_iff (hmax : array.maxSize ≤ 255)
    (hsub : ∀ r ∈ array.entries, r ∈ added)
    (hsize : array.size = min array.maxSize (distinctPairs added)) :
    (routeArrayAdd array route).size = min array.maxSize (distinctPairs (added ++ [route])) ↔
      CountsOnce array added route := by
  rw [size_routeArrayAdd hmax, distinctPairs_snoc, CountsOnce]
  by_cases hfound : routeArrayFindByValueAndType array route.value route.type ≠ array.maxSize
  · have hk : route.key ∈ array.entries.map Route.key := by
      by_contra hk
      exact hfound (findByValueAndType_eq_maxSize_iff.mpr hk)
    have hadded : route.key ∈ added.map Route.key := by
      obtain ⟨r, hr, hkey⟩ := List.mem_map.mp hk
      exact List.mem_map.mpr ⟨r, hsub r hr, hkey⟩
    rw [if_pos hfound, if_pos hfound, if_pos hadded]
    exact iff_of_true hsize trivial
  · rw [if_neg hfound, if_neg hfound]
    by_cases hfull : array.size = array.maxSize
    · rw [if_pos hfull, if_pos hfull]
      split_ifs <;> omega
    · rw [if_neg hfull, if_neg hfull]
      split_ifs with hadded
      · exact iff_of_false (by omega) (not_not.mpr hadded)
      · exact iff_of_true (by omega) hadded

/-! ## Runs -/

lemma sizes_iff_aux : ∀ {routes : List Route} {array : RouteArray} {live added : List Route},
    Packed array live → (∀ r ∈ live, r ∈ added) → array.maxSize ≤ 255 →
    array.size = min array.maxSize (distinctPairs added) → (∀ r ∈ routes, r.value ≠ 0) →
    ((∀ pre, pre <+: routes → (pre.foldl routeArrayAdd array).size
        = min array.maxSize (distinctPairs (added ++ pre))) ↔ AllCountOnce array added routes)
  | [], array, live, added, _, _, _, hsize, _ => by
    simp only [List.prefix_nil, AllCountOnce, iff_true]
    rintro pre rfl
    rw [List.append_nil]
    exact hsize
  | route :: routes, array, live, added, hpacked, hlive, hmax, hsize, hvalue => by
    have hsub : ∀ r ∈ array.entries, r ∈ added := by
      intro r hr
      rw [hpacked.entries_eq] at hr
      exact hlive r (List.mem_of_mem_take hr)
    have hstep : _ ↔ CountsOnce array added route := size_routeArrayAdd_iff hmax hsub hsize
    obtain ⟨live', hpacked', hnew⟩ := hpacked.add (hvalue route List.mem_cons_self)
    have hlive' : ∀ r ∈ live', r ∈ added ++ [route] := by
      intro r hr
      rcases hnew r hr with rfl | hr
      · simp
      · exact List.mem_append_left _ (hlive r hr)
    have hvalue' : ∀ r ∈ routes, r.value ≠ 0 := fun r hr => hvalue r (List.mem_cons_of_mem _ hr)
    have hmax' : (routeArrayAdd array route).maxSize = array.maxSize := maxSize_routeArrayAdd _ _
    have hrest : (routeArrayAdd array route).size
          = min array.maxSize (distinctPairs (added ++ [route])) →
        ((∀ pre, pre <+: routes → (pre.foldl routeArrayAdd (routeArrayAdd array route)).size
            = min array.maxSize (distinctPairs (added ++ [route] ++ pre))) ↔
          AllCountOnce (routeArrayAdd array route) (added ++ [route]) routes) := by
      intro hsize'
      have ih := sizes_iff_aux hpacked' hlive' (hmax'.symm ▸ hmax) (hmax'.symm ▸ hsize') hvalue'
      rwa [hmax'] at ih
    constructor
    · intro hall
      have hsize' := hall [route] (List.prefix_append [route] routes)
      refine ⟨hstep.mp hsize', (hrest hsize').mp fun pre hpre => ?_⟩
      have h := hall (route :: pre) (List.cons_prefix_cons.mpr ⟨rfl, hpre⟩)
      rwa [List.append_assoc]
    · rintro ⟨honce, honces⟩ pre hpre
      cases pre with
      | nil =>
        rw [List.append_nil]
        exact hsize
      | cons r pre =>
        obtain ⟨rfl, hpre'⟩ := List.cons_prefix_cons.mp hpre
        have h := (hrest (hstep.mpr honce)).mpr honces pre hpre'
        rwa [List.append_assoc] at h

/-- **The sizes of a run.**  From an empty array, all sizes reached are the number of pairs added,
up to the capacity, if and only if every addition counts its pair once. -/
theorem sizes_iff (hc : c ≤ 255) (hvalue : ∀ r ∈ routes, r.value ≠ 0) :
    (∀ pre, pre <+: routes → routeArrayGetSize (pre.foldl routeArrayAdd (routeArrayCreate c))
        = min c (distinctPairs pre)) ↔ AllCountOnce (routeArrayCreate c) [] routes := by
  have hmax : (routeArrayCreate c).maxSize = c := Nat.mod_eq_of_lt (by omega)
  have hrun : _ ↔ AllCountOnce (routeArrayCreate c) [] routes :=
    sizes_iff_aux (Packed.create c) (by simp) (by omega) (Nat.min_zero _).symm hvalue
  rw [hmax] at hrun
  exact hrun

/-! ## Carriers -/

/-- The tries for the routes of the carriers have room for this many. -/
structure HasRoom (n : ℕ) (lcr : Lcr) : Prop where
  interTrie : lcr.interTrie.maxRoutes = n
  intraTrie : lcr.intraTrie.maxRoutes = n
  interAreas : lcr.interAreas.maxRoutes = n

/-- **Capacities.**  Of the numbers of carriers that are accepted only 256 is not stored. -/
theorem capacity_iff (hn : n ≤ maxCarriers) : HasRoom n (lcrCreate n) ↔ n ≠ 256 := by
  have hle : n ≤ 256 := hn
  constructor
  · rintro ⟨hinter, -, -⟩ rfl
    exact Nat.zero_ne_add_one 255 hinter
  · intro hne
    have hmod : n % 256 = n := Nat.mod_eq_of_lt (by omega)
    exact ⟨hmod, hmod, hmod⟩

/-- **Sizes and capacities.**  The tries for n accepted carriers have room for n of them unless n
is 256, and the sizes an array goes through count the pairs added to it exactly when each addition
does: the pair is found, or the array is full and has not 255 slots, or it has a slot left and the
pair is new. -/
theorem sizes_and_capacities {n : ℕ} (hn : n ≤ maxCarriers) (hc : c ≤ 255)
    (hvalue : ∀ r ∈ routes, r.value ≠ 0) :
    (HasRoom n (lcrCreate n) ↔ n ≠ 256) ∧
      ((∀ pre, pre <+: routes → routeArrayGetSize (pre.foldl routeArrayAdd (routeArrayCreate c))
          = min c (distinctPairs pre)) ↔ AllCountOnce (routeArrayCreate c) [] routes) :=
  ⟨capacity_iff hn, sizes_iff hc hvalue⟩

/-- Ten carriers, and three routes for two of them into an array with two slots. -/
theorem sizes_and_capacities_two : HasRoom 10 (lcrCreate 10) ∧
    routeArrayGetSize ([⟨5, 1, 0⟩, ⟨7, 2, 0⟩, ⟨6, 1, 0⟩].foldl routeArrayAdd (routeArrayCreate 2))
      = 2 := by
  have hvalue : ∀ r ∈ ([⟨5, 1, 0⟩, ⟨7, 2, 0⟩, ⟨6, 1, 0⟩] : List Route), r.value ≠ 0 := by decide
  have htwo : (2 : ℕ) ≤ 255 := by decide
  have hten : 10 ≤ maxCarriers := by decide
  obtain ⟨hroom, hsizes⟩ := sizes_and_capacities hten htwo hvalue
  exact ⟨hroom.mpr (by decide), hsizes.mpr (by decide) _ List.prefix_rfl⟩

/-- The cheaper route of carrier 1 leaves a copy of the dearer one, behind which carrier 2 is not
seen and counted twice; and 256 carriers have no room. -/
theorem not_sizes_and_capacities : ¬(∀ n ≤ maxCarriers, HasRoom n (lcrCreate n)) ∧
    ¬∀ c ≤ 255, ∀ routes : List Route, (∀ r ∈ routes, r.value ≠ 0) →
      routeArrayGetSize (routes.foldl routeArrayAdd (routeArrayCreate c))
        = min c (distinctPairs routes) := by
  constructor
  · intro h
    exact absurd (h 256 (by decide)).interTrie (by decide)
  · intro h
    exact absurd (h 3 (by decide) [⟨5, 1, 0⟩, ⟨4, 1, 0⟩, ⟨6, 2, 0⟩, ⟨6, 2, 0⟩] (by decide))
      (by decide)

end FreeswitchContrib.SimpleLcr
