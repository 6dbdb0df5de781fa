import FreeswitchContrib.SimpleLcr.CarrierRouting

/-!
# Plain inter areas

The count of entries is the number of carriers that match when each of them is met once: no two of
its `interAreas` are prefixes of the caller ID.  Then the arrays of the trie, and the one of the
carriers collected, are filled without a removal.
-/

namespace FreeswitchContrib.SimpleLcr

/-- Caller ID and `interAreas` for which the count is right: digits only, no list of a single
prefix, and no carrier with two prefixes of the caller ID. -/
structure PlainAreas (core : Core) (attrs : List (List Char)) (callerId : List Char) : Prop where
  digits : (stripPlus callerId).all Char.isDigit = true
  several : ∀ attr ∈ attrs, (interAreasOf core attr).length ≠ 1
  once : ∀ attr ∈ attrs,
    ((interAreasOf core attr).filter fun p => decide (p <+: stripPlus callerId)).length ≤ 1

/-- An array that was filled from a fresh one, without a removal. -/
structure Filled (array : RouteArray) (routes : List Route) : Prop where
  slots : array.route = routes ++ List.replicate (array.maxSize - routes.length) Route.zero
  size : array.size = routes.length
  nonzero : ∀ r ∈ routes, r.value ≠ 0
  cost : ∀ r ∈ routes, r.cost = 0

variable {core : Core} {attrs : List (List Char)} {callerId key : List Char} {array : RouteArray}
  {routes : List Route} {r : Route} {n m : ℕ} {id : RouteValue} {calls : List RouteCall}
  {call : RouteCall}

namespace Filled

lemma create (m : ℕ) : Filled (routeArrayCreate m) [] :=
  ⟨by simp [routeArrayCreate], rfl, by simp, by simp⟩

lemma entries (h : Filled array routes) : array.entries = routes := by
  rw [RouteArray.entries, h.slots, h.size, List.take_left]

lemma findByCost (h : Filled array routes) (hlt : routes.length < array.maxSize) :
    routeArrayFindByCost array 0 = routes.length := by
  obtain ⟨k, hk⟩ : ∃ k, array.maxSize - routes.length = k + 1 :=
    ⟨array.maxSize - routes.length - 1, by omega⟩
  have hnone : routes.findIdx? (fun r => decide (r.value = 0 ∨ (0 : RouteCost) < r.cost))
      = none := by
    rw [List.findIdx?_eq_none_iff]
    intro r hr
    simp [h.nonzero r hr, h.cost r hr]
  rw [routeArrayFindByCost, h.slots, List.findIdx?_append, hnone, hk, List.replicate_succ]
  simp [List.findIdx?_cons, Route.zero]

/-- A route with a new key goes behind the others. -/
lemma add (h : Filled array routes) (hr : r.value ≠ 0 ∧ r.cost = 0)
    (hnew : r.key ∉ routes.map Route.key) (hlt : routes.length < array.maxSize)
    (hmax : array.maxSize ≤ 255) : Filled (routeArrayAdd array r) (routes ++ [r]) := by
  have hadd : routeArrayAdd array r = insertByCost array r :=
    routeArrayAdd_of_notMem (by rwa [h.entries])
  obtain ⟨k, hk⟩ : ∃ k, array.maxSize - routes.length = k + 1 :=
    ⟨array.maxSize - routes.length - 1, by omega⟩
  have hmaxSize : (insertByCost array r).maxSize = array.maxSize := rfl
  have hcost : routeArrayFindByCost array r.cost = routes.length := by
    rw [hr.2]
    exact h.findByCost hlt
  rw [hadd]
  refine ⟨?_, ?_, ?_, ?_⟩
  · have hslots : (insertByCost array r).route
        = array.route.take routes.length ++ pushDown r (array.route.drop routes.length) := by
      simp only [insertByCost, hcost]
    have hrest : array.maxSize - (routes ++ [r]).length = k := by
      rw [List.length_append, List.length_singleton]
      omega
    rw [hslots, hmaxSize, hrest, h.slots, List.take_left, List.drop_left, hk, List.replicate_succ,
      pushDown, if_neg hr.1]
    cases k with
    | zero => simp [pushDown]
    | succ k => simp [List.replicate_succ, pushDown, Route.zero]
  · have hsize : (array.size + 1) % 256 = routes.length + 1 := by
      rw [h.size]
      exact Nat.mod_eq_of_lt (by omega)
    have hle : ¬ array.maxSize < routes.length + 1 := by omega
    simp only [insertByCost, hsize, if_neg hle, List.length_append, List.length_singleton]
  · intro x hx
    rcases List.mem_append.mp hx with hx | hx
    · exact h.nonzero x hx
    · exact (List.mem_singleton.mp hx) ▸ hr.1
  · intro x hx
    rcases List.mem_append.mp hx with hx | hx
    · exact h.cost x hx
    · exact (List.mem_singleton.mp hx) ▸ hr.2

/-- **Routes with different keys fill an array in their order.** -/
theorem foldl_add : ∀ {more : List Route} {routes : List Route} {array : RouteArray},
    Filled array routes → (∀ r ∈ more, r.value ≠ 0 ∧ r.cost = 0) →
    ((routes ++ more).map Route.key).Nodup → (routes ++ more).length ≤ array.maxSize →
    array.maxSize ≤ 255 → Filled (more.foldl routeArrayAdd array) (routes ++ more)
  | [], routes, array, h, _, _, _, _ => by
    rw [List.append_nil]
    exact h
  | r :: more, routes, array, h, hmore, hnodup, hlen, hmax => by
    have hsplit : routes ++ r :: more = (routes ++ [r]) ++ more := by simp
    have hnew : r.key ∉ routes.map Route.key := by
      rw [List.map_append, List.map_cons, List.nodup_append] at hnodup
      exact fun hmem => hnodup.2.2 _ hmem _ List.mem_cons_self rfl
    have hstep := h.add (hmore r List.mem_cons_self) hnew (by
      rw [List.length_append, List.length_cons] at hlen
      omega) hmax
    rw [hsplit] at hnodup hlen ⊢
    exact foldl_add hstep (fun x hx => hmore x (List.mem_cons_of_mem r hx)) hnodup
      (by rwa [maxSize_routeArrayAdd]) (by rwa [maxSize_routeArrayAdd])

end Filled

/-! ## The calls of the carriers -/

/-- The calls for the carriers behind the one with this ID, from what each is loaded with. -/
def callsOfAll {α : Type} (callsOf : RouteValue → α → List RouteCall) :
    RouteValue → List α → List RouteCall
  | _, [] => []
  | id, x :: xs => callsOf (id + 1) x ++ callsOfAll callsOf (id + 1) xs

/-- A call is one of the carrier with its value. -/
lemma mem_callsOfAll {α : Type} {callsOf : RouteValue → α → List RouteCall} (hn : n ≤ 256)
    (hvalue : ∀ id x, ∀ call ∈ callsOf id x, call.value = id) : ∀ (xs : List α) (id : RouteValue),
    id.val + xs.length ≤ n →
    (call ∈ callsOfAll callsOf id xs ↔ ∃ j x, xs[j]? = some x ∧
      call.value.val = id.val + 1 + j ∧ call ∈ callsOf call.value x)
  | [], id, _ => by simp [callsOfAll]
  | x :: xs, id, hlen => by
    rw [List.length_cons] at hlen
    have hid : (id + 1).val = id.val + 1 := val_succ hlen hn
    rw [callsOfAll, List.mem_append, mem_callsOfAll hn hvalue xs (id + 1) (by omega)]
    constructor
    · rintro (hcall | ⟨j, x', hget, hj, hcall⟩)
      · have hself : call.value = id + 1 := hvalue _ _ _ hcall
        exact ⟨0, x, rfl, by rw [hself, hid], hself ▸ hcall⟩
      · exact ⟨j + 1, x', hget, by omega, hcall⟩
    · rintro ⟨j, x', hget, hj, hcall⟩
      cases j with
      | zero =>
        obtain rfl : x = x' := Option.some.inj hget
        have hself : call.value = id + 1 := Fin.ext (by omega)
        exact Or.inl (hself ▸ hcall)
      | succ j => exact Or.inr ⟨j, x', hget, by omega, hcall⟩

lemma allAreaCalls_eq (core : Core) : ∀ (id : RouteValue) (attrs : List (List Char)),
    allAreaCalls core id attrs = callsOfAll (areaCalls core) id attrs
  | _, [] => rfl
  | id, attr :: attrs => congrArg (areaCalls core (id + 1) attr ++ ·) (allAreaCalls_eq core _ attrs)

lemma value_of_mem_areaCalls {attr : List Char} (h : call ∈ areaCalls core id attr) :
    call.value = id ∧ call.route = ⟨0, id, 0⟩ ∧ call.digits ∈ interAreasOf core attr := by
  rw [areaCalls] at h
  split_ifs at h
  · obtain ⟨p, hp, rfl⟩ := List.mem_map.mp h
    exact ⟨rfl, rfl, hp⟩
  · simp at h

lemma mem_allAreaCalls (hn : n ≤ 256) (attrs : List (List Char)) (id : RouteValue)
    (hlen : id.val + attrs.length ≤ n) :
    call ∈ allAreaCalls core id attrs ↔ ∃ j attr, attrs[j]? = some attr ∧
      call.value.val = id.val + 1 + j ∧ call ∈ areaCalls core call.value attr := by
  rw [allAreaCalls_eq]
  exact mem_callsOfAll hn (fun _ _ _ hcall => (value_of_mem_areaCalls hcall).1) attrs id hlen

/-- The calls for prefixes of the caller ID. -/
def matchingCalls (key : List Char) (calls : List RouteCall) : List RouteCall :=
  calls.filter fun call => decide (call.digits <+: key)

/-- A carrier with one prefix of the caller ID at most has one such call at most. -/
lemma length_matchingCalls_areaCalls {attr : List Char}
    (h : ((interAreasOf core attr).filter fun p => decide (p <+: key)).length ≤ 1) :
    (matchingCalls key (areaCalls core id attr)).length ≤ 1 := by
  rw [matchingCalls, areaCalls]
  split_ifs
  · rw [List.filter_map, List.length_map]
    exact h
  · simp

lemma nodup_of_length_le_one {α : Type} : ∀ {l : List α}, l.length ≤ 1 → l.Nodup
  | [], _ => List.nodup_nil
  | [x], _ => List.nodup_singleton x
  | x :: y :: l, h => by simp at h

lemma nodup_matchingCalls (hn : n ≤ 256) : ∀ (attrs : List (List Char)) (id : RouteValue),
    id.val + attrs.length ≤ n →
    (∀ attr ∈ attrs, ((interAreasOf core attr).filter fun p => decide (p <+: key)).length ≤ 1) →
    ((matchingCalls key (allAreaCalls core id attrs)).map RouteCall.value).Nodup
  | [], id, _, _ => by simp [allAreaCalls, matchingCalls]
  | attr :: attrs, id, hlen, honce => by
    rw [List.length_cons] at hlen
    have hid : (id + 1).val = id.val + 1 := val_succ hlen hn
    have hrest := nodup_matchingCalls hn attrs (id + 1) (by omega)
      fun attr' hattr => honce attr' (List.mem_cons_of_mem attr hattr)
    have hfirst : (matchingCalls key (areaCalls core (id + 1) attr)).length ≤ 1 :=
      length_matchingCalls_areaCalls (honce attr List.mem_cons_self)
    rw [allAreaCalls, matchingCalls, List.filter_append, List.map_append]
    refine List.nodup_append.mpr ⟨nodup_of_length_le_one ?_, hrest, ?_⟩
    · rw [List.length_map]
      exact hfirst
    · -- the carriers behind have greater IDs
      rintro value hvalue value' hvalue' rfl
      obtain ⟨call, hcall, rfl⟩ := List.mem_map.mp hvalue
      obtain ⟨call', hcall', heq⟩ := List.mem_map.mp hvalue'
      obtain ⟨hfst, -⟩ := value_of_mem_areaCalls (List.mem_filter.mp hcall).1
      obtain ⟨j, -, -, hsnd, -⟩ :=
        (mem_allAreaCalls hn attrs (id + 1) (by omega)).mp (List.mem_filter.mp hcall').1
      rw [heq, hfst] at hsnd
      omega

/-! ## Walking along the caller ID -/

lemma nodup_inits {α : Type} : ∀ l : List α, l.inits.Nodup
  | [] => by simp
  | x :: l => by
    rw [List.inits_cons, List.nodup_cons]
    refine ⟨by simp, ?_⟩
    exact (nodup_inits l).map (List.cons_injective)

/-- Taking the elements out key by key is taking them out at once. -/
lemma flatMap_filter_perm {α β : Type} [DecidableEq β] (f : α → β) (l : List α) :
    ∀ {keys : List β}, keys.Nodup →
      (keys.flatMap fun k => l.filter fun x => decide (f x = k)).Perm
        (l.filter fun x => decide (f x ∈ keys))
  | [], _ => by simp
  | k :: keys, hnodup => by
    obtain ⟨hk, hkeys⟩ := List.nodup_cons.mp hnodup
    have ih := flatMap_filter_perm f l hkeys
    have hsplit := List.filter_append_perm (fun x => decide (f x = k))
      (l.filter fun x => decide (f x ∈ k :: keys))
    rw [List.filter_filter, List.filter_filter] at hsplit
    have hfst : (l.filter fun x => decide (f x = k) && decide (f x ∈ k :: keys))
        = l.filter fun x => decide (f x = k) :=
      List.filter_congr fun x _ => by
        by_cases h : f x = k <;> simp [h]
    have hsnd : (l.filter fun x => (!decide (f x = k)) && decide (f x ∈ k :: keys))
        = l.filter fun x => decide (f x ∈ keys) :=
      List.filter_congr fun x _ => by
        by_cases h : f x = k
        · simp [h, hk]
        · simp [h]
    rw [hfst, hsnd] at hsplit
    rw [List.flatMap_cons]
    exact (ih.append_left _).trans hsplit

lemma routeTrieNodeFindCount_of_digits : ∀ {key : List Char} (node : RouteTrieNode) (count : ℕ),
    key.all Char.isDigit = true →
      routeTrieNodeFindCount node key count = count + (pathEntries node key).length
  | key, .null, count, _ => by
    rw [pathEntries_null]
    cases key <;> rfl
  | [], .node child array, count, _ => by
    rw [pathEntries_node_nil]
    rfl
  | c :: rest, .node child array, count, hkey => by
    rw [List.all_cons, Bool.and_eq_true] at hkey
    obtain ⟨i, hi⟩ := Option.isSome_iff_exists.mp ((digit?_isSome_iff c).mpr hkey.1)
    have ih := routeTrieNodeFindCount_of_digits (child i) (count + (nodeEntries array).length)
      hkey.2
    rw [pathEntries_node_cons_of_some child array hi, List.length_append, ← Nat.add_assoc]
    simpa only [routeTrieNodeFindCount, hi] using ih

lemma takeWhile_digits (h : key.all Char.isDigit = true) : key.takeWhile Char.isDigit = key := by
  rw [List.takeWhile_eq_self_iff]
  exact List.all_eq_true.mp h

namespace PlainAreas

variable (h : PlainAreas core attrs callerId) (hlen : attrs.length ≤ 255)
include hlen

lemma mem_calls : call ∈ allAreaCalls core 0 attrs ↔ ∃ j attr, attrs[j]? = some attr ∧
    call.value.val = 1 + j ∧ call ∈ areaCalls core call.value attr := by
  rw [mem_allAreaCalls le_rfl attrs 0 (by rw [Fin.val_zero]; omega), Fin.val_zero, Nat.zero_add]

lemma route_of_mem (hcall : call ∈ allAreaCalls core 0 attrs) :
    call.route.value ≠ 0 ∧ call.route.cost = 0 ∧ call.route.key = (call.value, 0) := by
  obtain ⟨j, attr, hget, hj, hcall⟩ := (mem_calls hlen).mp hcall
  obtain ⟨-, hroute, -⟩ := value_of_mem_areaCalls hcall
  refine ⟨?_, by rw [hroute], by rw [hroute]; rfl⟩
  intro h0
  have : call.value.val = 0 := congrArg Fin.val h0
  omega

/-- Calls with different carriers fill an array. -/
lemma filled_foldl {picked : List RouteCall}
    (hmem : ∀ call ∈ picked, call ∈ allAreaCalls core 0 attrs)
    (hnodup : (picked.map RouteCall.value).Nodup) (hm : m ≤ 255) (hroom : picked.length ≤ m) :
    Filled ((picked.map RouteCall.route).foldl routeArrayAdd (routeArrayCreate m))
      (picked.map RouteCall.route) := by
  have hkeys : ((picked.map RouteCall.route).map Route.key).Nodup := by
    have hfst : ((picked.map RouteCall.route).map Route.key).map Prod.fst
        = picked.map RouteCall.value := by
      simp only [List.map_map]
      rfl
    exact List.Nodup.of_map Prod.fst (hfst ▸ hnodup)
  have hmax : (routeArrayCreate m).maxSize = m := Nat.mod_eq_of_lt (by omega)
  refine (Filled.create m).foldl_add ?_ hkeys ?_ (by omega)
  · intro r hr
    obtain ⟨call, hcall, rfl⟩ := List.mem_map.mp hr
    obtain ⟨hvalue, hcost, -⟩ := route_of_mem hlen (hmem call hcall)
    exact ⟨hvalue, hcost⟩
  · rw [List.nil_append, List.length_map, hmax]
    exact hroom

include h

/-- The matching calls are those of the carriers that match. -/
lemma mem_matchingCalls (hpos : 0 < id.val) (hle : id.val ≤ attrs.length) :
    id ∈ (matchingCalls (stripPlus callerId) (allAreaCalls core 0 attrs)).map RouteCall.value ↔
      CarrierMatches core attrs callerId id := by
  have hmem := fun call : RouteCall => @mem_calls core _ call hlen
  constructor
  · rintro hid
    obtain ⟨call, hcall, rfl⟩ := List.mem_map.mp hid
    obtain ⟨hcall, hleads⟩ := List.mem_filter.mp hcall
    obtain ⟨j, attr, hget, hvalue, hcall⟩ := (hmem call).mp hcall
    refine ⟨attr, by rwa [show call.value.val - 1 = j by omega], call.digits, ?_,
      of_decide_eq_true hleads⟩
    exact (value_of_mem_areaCalls hcall).2.2
  · rintro ⟨attr, hget, p, hp, hleads⟩
    have hseveral : 1 < (interAreasOf core attr).length := by
      have := h.several attr (List.mem_of_getElem? hget)
      have := List.length_pos_of_mem hp
      omega
    refine List.mem_map.mpr ⟨⟨p, 0, id, 0⟩, List.mem_filter.mpr ⟨?_, decide_eq_true hleads⟩, rfl⟩
    refine (hmem _).mpr ⟨id.val - 1, attr, hget, ?_, ?_⟩
    · simp only
      omega
    · rw [areaCalls, if_pos hseveral]
      exact List.mem_map.mpr ⟨p, hp, rfl⟩

lemma nodup_values :
    ((matchingCalls (stripPlus callerId) (allAreaCalls core 0 attrs)).map RouteCall.value).Nodup :=
  nodup_matchingCalls le_rfl attrs 0 (by rw [Fin.val_zero]; omega) h.once

/-- The IDs of the matching calls are among `1, …, attrs.length`. -/
lemma values_subperm :
    ((matchingCalls (stripPlus callerId) (allAreaCalls core 0 attrs)).map
      fun call => call.value.val).Subperm (List.range' 1 attrs.length) := by
  refine List.subperm_of_subset ?_ ?_
  · have := (h.nodup_values hlen).map Fin.val_injective
    rwa [List.map_map] at this
  · intro value hvalue
    obtain ⟨call, hcall, rfl⟩ := List.mem_map.mp hvalue
    obtain ⟨j, attr, hget, hj, -⟩ := (mem_calls hlen).mp (List.mem_filter.mp hcall).1
    have hlt := (List.getElem?_eq_some_iff.mp hget).1
    rw [List.mem_range'_1]
    omega

lemma length_matchingCalls_le :
    (matchingCalls (stripPlus callerId) (allAreaCalls core 0 attrs)).length ≤ attrs.length := by
  have := (h.values_subperm hlen).length_le
  rwa [List.length_map, List.length_range'] at this

lemma entries_arrayOf {p : List Char} (hp : p <+: stripPlus callerId) :
    (arrayOf attrs.length (allAreaCalls core 0 attrs) p).entries
      = routesAt (allAreaCalls core 0 attrs) p := by
  have hsub : ((allAreaCalls core 0 attrs).filter fun call => decide (call.digits = p)).Sublist
      (matchingCalls (stripPlus callerId) (allAreaCalls core 0 attrs)) := by
    refine List.monotone_filter_right _ fun call hcall => ?_
    exact decide_eq_true (of_decide_eq_true hcall ▸ hp)
  have hroom := hsub.length_le.trans (h.length_matchingCalls_le hlen)
  have hfilled := filled_foldl hlen (fun call hcall => (List.mem_filter.mp hcall).1)
    ((hsub.map RouteCall.value).nodup (h.nodup_values hlen)) hlen hroom
  exact hfilled.entries

/-- What is met on the walk is what was added for prefixes of the caller ID. -/
lemma pathEntries_perm : (pathEntries (interAreasTrie core attrs).root (stripPlus callerId)).Perm
    ((matchingCalls (stripPlus callerId) (allAreaCalls core 0 attrs)).map RouteCall.route) := by
  rw [interAreasTrie, pathEntries_loadRoutes, entriesAlong, takeWhile_digits h.digits]
  have hentries : ((stripPlus callerId).inits.flatMap fun p =>
        (arrayOf attrs.length (allAreaCalls core 0 attrs) p).entries)
      = ((stripPlus callerId).inits.flatMap fun p =>
          (allAreaCalls core 0 attrs).filter fun call => decide (call.digits = p)).map
            RouteCall.route := by
    rw [List.map_flatMap]
    exact List.flatMap_congr fun p hp => h.entries_arrayOf hlen ((List.mem_inits _ _).mp hp)
  have hperm := flatMap_filter_perm RouteCall.digits (allAreaCalls core 0 attrs)
    (nodup_inits (stripPlus callerId))
  simp only [List.mem_inits] at hperm
  rw [hentries]
  exact hperm.map RouteCall.route

/-- **With plain inter areas the count decides the rule.** -/
theorem decided : Decided core attrs callerId := by
  have hperm := h.pathEntries_perm hlen
  set key := stripPlus callerId with hkey
  set matching := matchingCalls key (allAreaCalls core 0 attrs) with hmatching
  have hcount : routeTrieFindCount (interAreasTrie core attrs) key = matching.length := by
    rw [routeTrieFindCount, routeTrieNodeFindCount_of_digits _ _ h.digits, Nat.zero_add,
      hperm.length_eq, List.length_map]
  have hroom := h.length_matchingCalls_le hlen
  have hmem : ∀ id : RouteValue, 0 < id.val → id.val ≤ attrs.length →
      (id ∈ matching.map RouteCall.value ↔ CarrierMatches core attrs callerId id) :=
    fun id hpos hle => h.mem_matchingCalls hlen hpos hle
  have hcarrier : ∀ (t : ℕ) (ht : t < attrs.length), ∃ id : RouteValue, id.val = t + 1 ∧
      attrs[id.val - 1]? = some (attrs[t]) := by
    intro t ht
    have hval : (Fin.ofNat 65536 (t + 1)).val = t + 1 := Nat.mod_eq_of_lt (by omega)
    exact ⟨Fin.ofNat 65536 (t + 1), hval, by
      rw [hval, Nat.add_sub_cancel, List.getElem?_eq_getElem ht]⟩
  rw [Decided]
  simp only [← hkey, hcount]
  split_ifs with hall hnone
  · -- as many as there are carriers, all different
    intro attr hattr
    obtain ⟨t, ht, rfl⟩ := List.mem_iff_getElem.mp hattr
    obtain ⟨id, hid, hget⟩ := hcarrier t ht
    have hfull := (h.values_subperm hlen).perm_of_length_le (by
      rw [List.length_map, List.length_range']
      exact hall)
    have hval : id.val ∈ matching.map fun call => call.value.val :=
      hfull.mem_iff.mpr (by rw [List.mem_range'_1]; omega)
    obtain ⟨call, hcall, heq⟩ := List.mem_map.mp hval
    obtain ⟨attr', hget', hmatch⟩ := (hmem id (by omega) (by omega)).mp
      (List.mem_map.mpr ⟨call, hcall, Fin.ext heq⟩)
    rw [hget] at hget'
    exact Option.some.inj hget' ▸ hmatch
  · intro attr hattr hmatch
    obtain ⟨t, ht, rfl⟩ := List.mem_iff_getElem.mp hattr
    obtain ⟨id, hid, hget⟩ := hcarrier t ht
    have hin := (hmem id (by omega) (by omega)).mpr ⟨_, hget, hmatch⟩
    rw [List.length_eq_zero_iff.mp hnone] at hin
    simp at hin
  · intro id hpos hle
    rw [← hmem id hpos hle]
    have hkeys : ((pathEntries (interAreasTrie core attrs).root key).map Route.key).Nodup := by
      refine (hperm.map Route.key).nodup_iff.mpr ?_
      refine List.Nodup.of_map Prod.fst ?_
      rw [List.map_map, List.map_map]
      exact h.nodup_values hlen
    have hmax : (routeArrayCreate matching.length).maxSize = matching.length :=
      Nat.mod_eq_of_lt (by omega)
    have hroutes : ∀ r ∈ pathEntries (interAreasTrie core attrs).root key,
        r.value ≠ 0 ∧ r.cost = 0 := by
      intro r hr
      obtain ⟨call, hcall, rfl⟩ := List.mem_map.mp (hperm.mem_iff.mp hr)
      obtain ⟨hvalue, hcost, -⟩ := route_of_mem hlen (List.mem_filter.mp hcall).1
      exact ⟨hvalue, hcost⟩
    have hfilled := (Filled.create matching.length).foldl_add hroutes hkeys (by
      rw [List.nil_append, hperm.length_eq, List.length_map, hmax]) (by omega)
    rw [routeTrieFind, routeTrieNodeFind_eq, routeArrayContains, hfilled.entries, List.nil_append,
      List.any_eq_true]
    constructor
    · rintro ⟨r, hr, hvalue⟩
      obtain ⟨call, hcall, rfl⟩ := List.mem_map.mp (hperm.mem_iff.mp hr)
      exact List.mem_map.mpr ⟨call, hcall, of_decide_eq_true hvalue⟩
    · intro hin
      obtain ⟨call, hcall, rfl⟩ := List.mem_map.mp hin
      exact ⟨call.route, hperm.mem_iff.mpr (List.mem_map.mpr ⟨call, hcall, rfl⟩),
        beq_self_eq_true _⟩

end PlainAreas

end FreeswitchContrib.SimpleLcr
