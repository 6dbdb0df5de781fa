import FreeswitchContrib.Library.Numeral
import FreeswitchContrib.SimpleLcr.RouteArrayExact
import FreeswitchContrib.SimpleLcr.RouteTrie

/-!
# Least-cost lookup

A lookup composes two levels of bounded insertion: each node keeps the routes added for its digit
string, at load time, and the lookup merges the nodes of the key's prefixes.  `LookupExact` is what
the result is meant to be, in terms of the calls alone; `CleanLookup` says that no addition, at
either level, brings back the copy a removal left behind.
-/

namespace FreeswitchContrib.SimpleLcr

open LeastCost

/-- The routes added for a prefix of the key. -/
def matching (calls : List RouteCall) (key : List Char) : List Route :=
  (calls.filter fun call => decide (call.digits <+: key)).map RouteCall.route

/-- **The least-cost answer**: no pair twice, ascending, each entry at the least cost of its pair
over the routes of the key's prefixes, and the costs the `m` smallest of those. -/
structure LookupExact (m : ℕ) (calls : List RouteCall) (key : List Char) (result : List Route) :
    Prop where
  nodup : (result.map Route.key).Nodup
  sorted : result.Pairwise fun a b => a.cost ≤ b.cost
  least : ∀ r ∈ result, leastCost Route.key Route.cost (matching calls key) r.key = some r.cost
  costs : result.map Route.cost
    = ((minima Route.key Route.cost (matching calls key)).mergeSort fun a b => decide (a ≤ b)).take m

/-- Every addition on the way to the answer is clean: those that filled the arrays of the key's
prefixes, and those of the lookup itself. -/
def CleanLookup (k m : ℕ) (calls : List RouteCall) (key : List Char) : Prop :=
  (∀ p ∈ key.inits, AddsAllCleanly (routeArrayCreate k) (routesAt calls p)) ∧
    AddsAllCleanly (routeArrayCreate m) (entriesAlong k calls key)

instance (k m : ℕ) (calls : List RouteCall) (key : List Char) :
    Decidable (CleanLookup k m calls key) := by
  unfold CleanLookup
  infer_instance

/-- Every array reached on the way is the least-cost table of what was added to it so far. -/
def ReachesTables (k m : ℕ) (calls : List RouteCall) (key : List Char) : Prop :=
  (∀ p ∈ key.inits, ∀ pre, pre <+: routesAt calls p → IsTable Route.key Route.cost k pre
      (pre.foldl routeArrayAdd (routeArrayCreate k)).entries) ∧
    ∀ pre, pre <+: entriesAlong k calls key → IsTable Route.key Route.cost m pre
      (pre.foldl routeArrayAdd (routeArrayCreate m)).entries

variable {k m : ℕ} {calls : List RouteCall} {key : List Char}

lemma routesAt_value (hv : ∀ call ∈ calls, call.value ≠ 0) (p : List Char) :
    ∀ r ∈ routesAt calls p, r.value ≠ 0 := by
  intro r hr
  obtain ⟨call, hcall, rfl⟩ := List.mem_map.mp hr
  exact hv call (List.mem_filter.mp hcall).1

/-- The entries of an array were routes added for its string. -/
lemma mem_entries_arrayOf (hv : ∀ call ∈ calls, call.value ≠ 0) {p : List Char} {r : Route}
    (hr : r ∈ (arrayOf k calls p).entries) : r ∈ routesAt calls p := by
  obtain ⟨live, hlive, hsub⟩ := Packed.foldl_add (Packed.create k) (routesAt_value hv p)
  rw [arrayOf, hlive.entries_eq] at hr
  exact (hsub r (List.mem_of_mem_take hr)).resolve_right (by simp)

lemma entriesAlong_value (hv : ∀ call ∈ calls, call.value ≠ 0) :
    ∀ r ∈ entriesAlong k calls key, r.value ≠ 0 := by
  intro r hr
  obtain ⟨p, -, hp⟩ := List.mem_flatMap.mp hr
  exact routesAt_value hv p r (mem_entries_arrayOf hv hp)

/-- The routes of the key's prefixes, node by node instead of call by call. -/
lemma mem_flatMap_routesAt (r : Route) :
    r ∈ (key.inits.flatMap fun p => routesAt calls p) ↔ r ∈ matching calls key := by
  simp only [List.mem_flatMap, List.mem_inits, routesAt, matching, List.mem_map, List.mem_filter,
    decide_eq_true_eq]
  constructor
  · rintro ⟨p, hp, call, ⟨hcall, rfl⟩, rfl⟩
    exact ⟨call, ⟨hcall, hp⟩, rfl⟩
  · rintro ⟨call, ⟨hcall, hp⟩, rfl⟩
    exact ⟨call.digits, hp, call, ⟨hcall, rfl⟩, rfl⟩

/-- **The clean steps are exactly those that keep every array a table.** -/
theorem reachesTables_iff_cleanLookup (hk : k ≤ 254) (hm : m ≤ 254)
    (hv : ∀ call ∈ calls, call.value ≠ 0) :
    ReachesTables k m calls key ↔ CleanLookup k m calls key := by
  have hload : ∀ p, (∀ pre, pre <+: routesAt calls p → IsTable Route.key Route.cost k pre
      (pre.foldl routeArrayAdd (routeArrayCreate k)).entries)
      ↔ AddsAllCleanly (routeArrayCreate k) (routesAt calls p) := fun p =>
    exact_run_iff hk (routesAt_value hv p)
  simp only [ReachesTables, CleanLookup, hload, exact_run_iff hm (entriesAlong_value hv)]

/-- When every array reached is a table, the result is the table of the routes that match. -/
lemma isTable_result (hkm : m ≤ k) (hkey : key.all Char.isDigit = true)
    (h : ReachesTables k m calls key) : IsTable Route.key Route.cost m (matching calls key)
      (routeTrieFind (loadRoutes k calls) key (routeArrayCreate m)).1.entries := by
  obtain ⟨hload, hfind⟩ := h
  have htake : key.takeWhile Char.isDigit = key :=
    List.takeWhile_eq_self_iff.mpr (List.all_eq_true.mp hkey)
  have hres := hfind _ List.prefix_rfl
  set parts := key.inits.map fun p => (routesAt calls p, (arrayOf k calls p).entries) with hdef
  have hnode : ∀ part ∈ parts, IsTable Route.key Route.cost k part.1 part.2 := by
    intro part hpart
    obtain ⟨p, hp, rfl⟩ := List.mem_map.mp hpart
    exact hload p hp _ List.prefix_rfl
  have hparts := IsTable.flatten hkm hnode (by
    rw [hdef, List.flatMap_map]
    simpa [entriesAlong, htake] using hres)
  rw [hdef, List.flatMap_map] at hparts
  rw [routeTrieFind, routeTrieNodeFind_eq, pathEntries_loadRoutes, entriesAlong, htake]
  simpa [entriesAlong, htake] using hparts.congr mem_flatMap_routesAt

/-- **Least-cost lookup is exact in every run whose additions are clean**, and those are exactly
the runs in which every array reached is the least-cost table of what was added to it. -/
theorem routeTrieFind_exact_of_clean (hk : k ≤ 254) (hmk : m ≤ k)
    (hv : ∀ call ∈ calls, call.value ≠ 0) (hkey : key.all Char.isDigit = true) :
    (CleanLookup k m calls key → LookupExact m calls key
        (routeTrieFind (loadRoutes k calls) key (routeArrayCreate m)).1.entries) ∧
      (CleanLookup k m calls key ↔ ReachesTables k m calls key) := by
  have hiff : ReachesTables k m calls key ↔ CleanLookup k m calls key :=
    reachesTables_iff_cleanLookup hk (hmk.trans hk) hv
  refine ⟨fun hclean => ?_, hiff.symm⟩
  have h := isTable_result hmk hkey (hiff.mpr hclean)
  exact ⟨h.nodup, h.sorted, fun r hr => h.leastCost_eq hr, h.costs_eq⟩

/-- Three nodes on the path of "123": the pair of "1" is cheaper at "12", and the route of "123"
brings the dearer copy back. -/
def staleCalls : List RouteCall :=
  [⟨['1'], 10, 1, 0⟩, ⟨['1', '2'], 5, 1, 0⟩, ⟨['1', '2', '3'], 20, 2, 0⟩]

theorem not_lookupExact : ¬∀ (k m : ℕ) (calls : List RouteCall) (key : List Char),
    1 ≤ k → k ≤ 254 → (∀ call ∈ calls, call.digits.all Char.isDigit = true ∧ call.value ≠ 0) →
    key.all Char.isDigit = true → 1 ≤ m → m ≤ k → LookupExact m calls key
      (routeTrieFind (loadRoutes k calls) key (routeArrayCreate m)).1.entries := by
  intro h
  have h2 := h 2 2 staleCalls ['1', '2', '3'] (by decide) (by decide) (by decide) (by decide)
    (by decide) (by decide)
  exact absurd h2.nodup (by decide)

/-- Two nodes on the path of "23", the longer one the dearer for the pair they share. -/
def cleanCalls : List RouteCall :=
  [⟨['2'], 5, 7, 1⟩, ⟨['2', '3'], 20, 7, 1⟩, ⟨['2', '3'], 9, 2, 0⟩]

theorem cleanCalls_exact : LookupExact 2 cleanCalls ['2', '3']
    (routeTrieFind (loadRoutes 3 cleanCalls) ['2', '3'] (routeArrayCreate 2)).1.entries :=
  (routeTrieFind_exact_of_clean (by decide) (by decide) (by decide) (by decide)).1 (by decide)

end FreeswitchContrib.SimpleLcr
