import FreeswitchContrib.SimpleLcr.CarrierArrays
import FreeswitchContrib.SimpleLcr.CarrierRoutingExact

/-!
# What a configuration says is found

`Complete` is the promise of a configuration: a lookup with room for all carriers reports each
carrier with an `interAreas` prefix of the caller ID, and each carrier with a row for a prefix of
the number, at no more than the row's cost.

It is kept when no list of `interAreas` has a single prefix, which is not added, and every addition
is clean: those of the loading (`LoadsCleanly`) and those of the lookups (`FindsCleanly`).  Without
the first it is broken, and without the last it is too if the loading is clean.
-/

namespace FreeswitchContrib.SimpleLcr

open LeastCost

variable {calls : List RouteCall} {call : RouteCall} {key : List Char} {r : Route} {n m : ℕ}
  {type : RouteType} {array : RouteArray} {routes routes' : List Route}

/-! ## One trie -/

/-- The additions to the arrays of the nodes are clean. -/
def FilledCleanly (n : ℕ) (calls : List RouteCall) : Prop :=
  ∀ p, AddsAllCleanly (routeArrayCreate n) (routesAt calls p)

/-- The additions of the lookups with room for all carriers are clean. -/
def FoundCleanly (n : ℕ) (calls : List RouteCall) : Prop :=
  ∀ key, key.all Char.isDigit = true →
    AddsAllCleanly (routeArrayCreate n) (entriesAlong n calls key)

/-- The calls are for carriers, and for routes of one type. -/
def CallsOfCarriers (n : ℕ) (type : RouteType) (calls : List RouteCall) : Prop :=
  ∀ call ∈ calls, OfCarriers n type call.route

lemma addsAllCleanly_append : ∀ {routes : List Route} {array : RouteArray},
    AddsAllCleanly array (routes ++ routes') ↔
      AddsAllCleanly array routes ∧ AddsAllCleanly (routes.foldl routeArrayAdd array) routes'
  | [], array => by simp [AddsAllCleanly]
  | r :: routes, array => by
    rw [List.cons_append, AddsAllCleanly, AddsAllCleanly, addsAllCleanly_append, and_assoc]
    rfl

lemma find_entries (n m : ℕ) (calls : List RouteCall) (key : List Char) :
    (routeTrieFind (loadRoutes n calls) key (routeArrayCreate m)).1
      = (entriesAlong n calls key).foldl routeArrayAdd (routeArrayCreate m) := by
  rw [routeTrieFind, routeTrieNodeFind_eq, pathEntries_loadRoutes]

/-- An entry on the way of a number was added for one of its prefixes. -/
lemma exists_call_of_mem_entriesAlong (hv : ∀ call ∈ calls, call.value ≠ 0)
    (hr : r ∈ entriesAlong n calls key) : ∃ call ∈ calls, call.route = r ∧ call.digits <+: key := by
  obtain ⟨p, hp, hr⟩ := List.mem_flatMap.mp hr
  obtain ⟨call, hcall, hroute⟩ := List.mem_map.mp (mem_entries_arrayOf hv hr)
  obtain ⟨hcall, hdigits⟩ := List.mem_filter.mp hcall
  refine ⟨call, hcall, hroute, ?_⟩
  rw [of_decide_eq_true hdigits]
  exact ((List.mem_inits _ _).mp hp).trans (List.takeWhile_prefix _)

lemma exists_call_of_mem_find (hv : ∀ call ∈ calls, call.value ≠ 0)
    (hr : r ∈ (routeTrieFind (loadRoutes n calls) key (routeArrayCreate m)).1.entries) :
    ∃ call ∈ calls, call.route = r := by
  rw [find_entries] at hr
  have hmem := mem_foldl_add (fun r hr => by
    obtain ⟨call, hcall, rfl, -⟩ := exists_call_of_mem_entriesAlong hv hr
    exact hv call hcall) hr
  obtain ⟨call, hcall, hroute, -⟩ := exists_call_of_mem_entriesAlong hv hmem
  exact ⟨call, hcall, hroute⟩

lemma entriesAlong_nil (n : ℕ) (calls : List RouteCall) :
    entriesAlong n calls [] = (arrayOf n calls []).entries := by
  simp [entriesAlong]

/-- The node of the number itself is the last on its way. -/
lemma entriesAlong_snoc (n : ℕ) (calls : List RouteCall) {c : Char}
    (h : (key ++ [c]).all Char.isDigit = true) : entriesAlong n calls (key ++ [c]) =
      entriesAlong n calls key ++ (arrayOf n calls (key ++ [c])).entries := by
  have hdigits := List.all_eq_true.mp h
  have htake : (key ++ [c]).takeWhile Char.isDigit = key ++ [c] :=
    List.takeWhile_eq_self_iff.mpr hdigits
  have htake' : key.takeWhile Char.isDigit = key :=
    List.takeWhile_eq_self_iff.mpr fun d hd => hdigits d (List.mem_append_left _ hd)
  rw [entriesAlong, htake, List.inits_append, List.flatMap_append, entriesAlong, htake']
  simp

section

variable (hn : n ≤ 255) (hcalls : CallsOfCarriers n type calls)
include hcalls

lemma value_ne_zero : ∀ call ∈ calls, call.value ≠ 0 :=
  fun call hcall => (hcalls call hcall).ne_zero

lemma ofCarriers_entriesAlong (key : List Char) :
    ∀ r ∈ entriesAlong n calls key, OfCarriers n type r := by
  intro r hr
  obtain ⟨call, hcall, rfl, -⟩ := exists_call_of_mem_entriesAlong (value_ne_zero hcalls) hr
  exact hcalls call hcall

include hn

/-- Clean additions keep the array of a node whole. -/
lemma whole_arrayOf (hfilled : FilledCleanly n calls) (p : List Char) :
    ∃ live, Whole n type (routesAt calls p) (arrayOf n calls p) live := by
  refine (Whole.create type hn).foldl_add hn (fun r hr => ?_) (hfilled p)
  obtain ⟨call, hcall, rfl⟩ := List.mem_map.mp hr
  exact hcalls call (List.mem_filter.mp hcall).1

lemma nodup_values (hfilled : FilledCleanly n calls) (p : List Char) :
    ((arrayOf n calls p).entries.map Route.value).Nodup := by
  obtain ⟨live, h⟩ := whole_arrayOf hn hcalls hfilled p
  have hpairs := List.pairwise_map.mp h.nodup
  refine List.pairwise_map.mpr (hpairs.imp_of_mem fun ha hb hne hvalue => hne ?_)
  have hoffered := fun {e : Route} (he : e ∈ (arrayOf n calls p).entries) =>
    h.offered e (h.entries_offered he)
  exact ((hoffered ha).key_eq_iff (hoffered hb)).mpr hvalue

/-- **Clean additions lose no route.** -/
theorem reported_of_clean (hfilled : FilledCleanly n calls) (hfound : FoundCleanly n calls)
    (hcall : call ∈ calls) (hkey : key.all Char.isDigit = true) (hleads : call.digits <+: key) :
    ∃ r ∈ (routeTrieFind (loadRoutes n calls) key (routeArrayCreate n)).1.entries,
      r.value = call.value ∧ r.cost ≤ call.cost := by
  have htake : key.takeWhile Char.isDigit = key :=
    List.takeWhile_eq_self_iff.mpr (List.all_eq_true.mp hkey)
  -- the node has it
  obtain ⟨live, hnode⟩ := whole_arrayOf hn hcalls hfilled call.digits
  obtain ⟨e, he, hke, hle⟩ := hnode.shown call.route
    (List.mem_map_of_mem (List.mem_filter.mpr ⟨hcall, by simp⟩))
  have halong : e ∈ entriesAlong n calls key := by
    rw [entriesAlong, htake]
    exact List.mem_flatMap.mpr ⟨call.digits, (List.mem_inits _ _).mpr hleads, he⟩
  -- and the lookup has what the node has
  obtain ⟨live', hresult⟩ := (Whole.create type hn).foldl_add hn
    (ofCarriers_entriesAlong hcalls _) (hfound key hkey)
  obtain ⟨r, hr, hkr, hle'⟩ := hresult.shown e halong
  rw [find_entries]
  exact ⟨r, hr, (Prod.ext_iff.mp (hkr.trans hke)).1, hle'.trans hle⟩

/-- A lookup that is not clean hides a carrier of one of the prefixes. -/
theorem foundCleanly_of_reported (hfilled : FilledCleanly n calls)
    (hreported : ∀ call ∈ calls, ∀ key, key.all Char.isDigit = true → call.digits <+: key →
      ∃ r ∈ (routeTrieFind (loadRoutes n calls) key (routeArrayCreate n)).1.entries,
        r.value = call.value) : FoundCleanly n calls := by
  -- the lookup of a number whose array is broken at the end contradicts
  have hwhole : ∀ key, key.all Char.isDigit = true → ∀ added live,
      ¬Broken n type added (entriesAlong n calls key)
        ((entriesAlong n calls key).foldl routeArrayAdd (routeArrayCreate n)) live := by
    intro key hkey added live hbroken
    obtain ⟨o, ho, hhidden⟩ := hbroken.hidden
    obtain ⟨call, hcall, rfl, hleads⟩ :=
      exists_call_of_mem_entriesAlong (value_ne_zero hcalls) ho
    obtain ⟨r, hr, hvalue⟩ := hreported call hcall key hkey hleads
    rw [find_entries] at hr
    refine hhidden (List.mem_map.mpr ⟨r, hr, ?_⟩)
    have hr' := hbroken.offered r (hbroken.entries_offered hr)
    exact (hr'.key_eq_iff (hcalls call hcall)).mpr hvalue
  intro key
  induction key using List.reverseRecOn with
  | nil =>
    intro hkey
    by_contra hunclean
    rw [entriesAlong_nil] at hunclean
    obtain ⟨added, live, hbroken⟩ := (Whole.create type hn).foldl_broken hn
      (entriesAlong_nil n calls ▸ ofCarriers_entriesAlong hcalls [])
      (nodup_values hn hcalls hfilled []) hunclean
    rw [List.nil_append, ← entriesAlong_nil] at hbroken
    exact hwhole [] hkey _ _ hbroken
  | append_singleton key c ih =>
    intro hkey
    have hdigits : key.all Char.isDigit = true := by
      rw [List.all_append, Bool.and_eq_true] at hkey
      exact hkey.1
    have hsnoc := entriesAlong_snoc n calls hkey
    have hcarriers : ∀ r ∈ (arrayOf n calls (key ++ [c])).entries, OfCarriers n type r :=
      fun r hr => ofCarriers_entriesAlong hcalls (key ++ [c]) r
        (hsnoc ▸ List.mem_append_right _ hr)
    obtain ⟨live, hbefore⟩ := (Whole.create type hn).foldl_add hn
      (ofCarriers_entriesAlong hcalls _) (ih hdigits)
    rw [hsnoc, addsAllCleanly_append]
    refine ⟨ih hdigits, ?_⟩
    by_contra hunclean
    obtain ⟨added, live', hbroken⟩ := hbefore.foldl_broken hn hcarriers
      (nodup_values hn hcalls hfilled (key ++ [c])) hunclean
    rw [List.nil_append, ← List.foldl_append, ← hsnoc] at hbroken
    exact hwhole (key ++ [c]) hkey _ _ hbroken

end

/-! ## Rising rates -/

/-- The rates of a carrier rise with the prefix: one that is repeated costs more, and so does one
that is longer. -/
structure RisingCalls (calls : List RouteCall) : Prop where
  repeated : calls.Pairwise fun a b => a.digits = b.digits → a.value = b.value → a.cost < b.cost
  longer : ∀ a ∈ calls, ∀ b ∈ calls, a.digits <+: b.digits → a.digits ≠ b.digits →
    a.value = b.value → a.cost < b.cost

lemma pairwise_inits {α : Type} : ∀ l : List α, l.inits.Pairwise fun p q => p <+: q ∧ p ≠ q
  | [] => by simp
  | x :: l => by
    rw [List.inits_cons, List.pairwise_cons, List.pairwise_map]
    refine ⟨fun q hq => ?_, (pairwise_inits l).imp fun {p q} h => ?_⟩
    · obtain ⟨q, -, rfl⟩ := List.mem_map.mp hq
      exact ⟨List.nil_prefix, by simp⟩
    · exact ⟨List.cons_prefix_cons.mpr ⟨rfl, h.1⟩, by simpa using h.2⟩

section

variable (hn : n ≤ 255) (hcalls : CallsOfCarriers n type calls) (h : RisingCalls calls)
include hn hcalls h

lemma RisingCalls.filledCleanly : FilledCleanly n calls := by
  intro p
  refine addsAllCleanly_of_rising hn (Whole.create type hn) rfl (fun r hr => ?_) ?_
  · obtain ⟨call, hcall, rfl⟩ := List.mem_map.mp hr
    exact hcalls call (List.mem_filter.mp hcall).1
  · rw [List.nil_append, Rising, routesAt, List.pairwise_map]
    refine (h.repeated.filter _).imp_of_mem fun ha hb hlt hkey => ?_
    have hdigits := (of_decide_eq_true (List.mem_filter.mp ha).2).trans
      (of_decide_eq_true (List.mem_filter.mp hb).2).symm
    exact hlt hdigits (Prod.ext_iff.mp hkey).1

/-- **Rising rates are loaded and found cleanly.** -/
theorem RisingCalls.foundCleanly : FoundCleanly n calls := by
  intro key _
  refine addsAllCleanly_of_rising hn (Whole.create type hn) rfl
    (ofCarriers_entriesAlong hcalls _) ?_
  rw [List.nil_append, Rising, entriesAlong, List.pairwise_flatMap]
  refine ⟨fun p _ => ?_, (pairwise_inits _).imp fun {p q} hpq x hx y hy hkey => ?_⟩
  · -- a node has no pair twice
    obtain ⟨live, hnode⟩ := whole_arrayOf hn hcalls (h.filledCleanly hn hcalls) p
    exact (List.pairwise_map.mp hnode.nodup).imp fun hne hkey => absurd hkey hne
  · obtain ⟨a, ha, rfl⟩ := List.mem_map.mp (mem_entries_arrayOf (value_ne_zero hcalls) hx)
    obtain ⟨b, hb, rfl⟩ := List.mem_map.mp (mem_entries_arrayOf (value_ne_zero hcalls) hy)
    obtain ⟨ha, hp⟩ := List.mem_filter.mp ha
    obtain ⟨hb, hq⟩ := List.mem_filter.mp hb
    rw [← of_decide_eq_true hp, ← of_decide_eq_true hq] at hpq
    exact h.longer a ha b hb hpq.1 hpq.2 (Prod.ext_iff.mp hkey).1

end

/-! ## The rows of the ratedecks -/

variable {core : Core} {files : Files} {cfg : Config} {lcr lcr' : Lcr} {id : RouteValue}
  {column : ℕ} {trie : RouteTrie}

/-- The fields of the lines of a ratedeck. -/
def ratedeckRows (core : Core) (files : Files) (ratedeck : List Char) : List (List (List Char)) :=
  ((files ratedeck).map fileLines).getD [] |>.map fun line => core.switchSeparateString line ',' 4

/-- The prefix of a row. -/
def rowDigits (row : List (List Char)) : List Char := row.getD 0 []

/-- The cost in this column of a row; it is negative if there is none. -/
def rowCost (core : Core) (column : ℕ) (row : List (List Char)) : ℤ :=
  toRouteCost core (row.getD column [])

/-- The call of `route_trie_add` for one of the rates of a row. -/
def rowCalls (core : Core) (column : ℕ) (type : RouteType) (id : RouteValue)
    (row : List (List Char)) : List RouteCall :=
  if 0 ≤ rowCost core column row then
    [⟨rowDigits row, Fin.ofNat 65536 (rowCost core column row).toNat, id, type⟩]
  else
    []

def ratedeckCalls (core : Core) (files : Files) (column : ℕ) (type : RouteType) (id : RouteValue)
    (carrier : CarrierXml) : List RouteCall :=
  (ratedeckRows core files carrier.ratedeck).flatMap (rowCalls core column type id)

/-- The calls for the rates of all carriers in this column. -/
def allRateCalls (core : Core) (files : Files) (column : ℕ) (type : RouteType)
    (carriers : List CarrierXml) : List RouteCall :=
  callsOfAll (ratedeckCalls core files column type) 0 carriers

lemma mem_rowCalls {row : List (List Char)} : call ∈ rowCalls core column type id row ↔
    0 ≤ rowCost core column row ∧
      call = ⟨rowDigits row, Fin.ofNat 65536 (rowCost core column row).toNat, id, type⟩ := by
  rw [rowCalls]
  split_ifs with h <;> simp [h]

lemma addRate_loadRoutes {row : List (List Char)} (h : addRate (loadRoutes n calls) (rowDigits row)
    (rowCost core column row) id type = some trie) :
    trie = loadRoutes n (calls ++ rowCalls core column type id row) := by
  rw [addRate] at h
  rw [rowCalls]
  split_ifs at h ⊢
  · exact addRoute_loadRoutes h
  · rw [List.append_nil]
    exact (Option.some.inj h).symm

/-- A ratedeck is loaded row by row, its second column into one trie, its third into the other. -/
lemma foldlM_loadRatedeckLine : ∀ {lines : List (List Char)} {inter intra : List RouteCall}
    {tries : RateTries},
    lines.foldlM (loadRatedeckLine core id) (loadRoutes n inter, loadRoutes n intra) = some tries →
      let rows := lines.map fun line => core.switchSeparateString line ',' 4
      tries = (loadRoutes n (inter ++ rows.flatMap (rowCalls core 1 1 id)),
        loadRoutes n (intra ++ rows.flatMap (rowCalls core 2 0 id)))
  | [], inter, intra, tries, h => by
    obtain rfl := Option.some.inj h
    simp
  | line :: lines, inter, intra, tries, h => by
    rw [List.foldlM_cons, Option.bind_eq_bind, Option.bind_eq_some_iff] at h
    obtain ⟨tries₁, hline, hrest⟩ := h
    rw [loadRatedeckLine] at hline
    simp only at hline
    split_ifs at hline
    obtain ⟨interTrie, hinter, hline⟩ := Option.bind_eq_some_iff.mp hline
    obtain ⟨intraTrie, hintra, rfl⟩ := Option.map_eq_some_iff.mp hline
    rw [addRate_loadRoutes hinter, addRate_loadRoutes hintra] at hrest
    rw [foldlM_loadRatedeckLine hrest]
    simp only [List.map_cons, List.flatMap_cons, List.append_assoc]

lemma loadRatedeckFile_loadRoutes {inter intra : List RouteCall} {tries : RateTries}
    {carrier : CarrierXml} (h : loadRatedeckFile core files (loadRoutes n inter, loadRoutes n intra)
      id carrier.ratedeck = some tries) :
    tries = (loadRoutes n (inter ++ ratedeckCalls core files 1 1 id carrier),
      loadRoutes n (intra ++ ratedeckCalls core files 2 0 id carrier)) := by
  rw [loadRatedeckFile, Option.bind_eq_some_iff] at h
  obtain ⟨file, hfile, h⟩ := h
  rw [ratedeckCalls, ratedeckCalls, ratedeckRows, hfile]
  exact foldlM_loadRatedeckLine h

lemma loadCarriers_loadRoutes : ∀ {carriers : List CarrierXml} {id : RouteValue} {lcr : Lcr}
    {inter intra : List RouteCall}, lcr.interTrie = loadRoutes n inter →
    lcr.intraTrie = loadRoutes n intra → loadCarriers core files lcr id carriers = some lcr' →
      lcr'.interTrie =
          loadRoutes n (inter ++ callsOfAll (ratedeckCalls core files 1 1) id carriers) ∧
        lcr'.intraTrie =
          loadRoutes n (intra ++ callsOfAll (ratedeckCalls core files 2 0) id carriers)
  | [], id, lcr, inter, intra, hinter, hintra, h => by
    obtain rfl := Option.some.inj h
    simp [hinter, hintra, callsOfAll]
  | carrier :: carriers, id, lcr, inter, intra, hinter, hintra, h => by
    rw [loadCarriers, Option.bind_eq_some_iff] at h
    obtain ⟨lcr₁, h₁, h⟩ := h
    obtain ⟨-, -, -, interAreas, tries, -, htries, rfl⟩ := loadCarrier_eq_some_iff.mp h₁
    rw [hinter, hintra] at htries
    obtain rfl := loadRatedeckFile_loadRoutes htries
    obtain ⟨hinter', hintra'⟩ := loadCarriers_loadRoutes rfl rfl h
    rw [hinter', hintra', callsOfAll, callsOfAll, List.append_assoc, List.append_assoc]
    exact ⟨rfl, rfl⟩

/-- **The rates of a configuration.** -/
theorem loadConfig_rates (h : loadConfig core files cfg = some lcr) :
    lcr.interTrie = loadRoutes cfg.carriers.length (allRateCalls core files 1 1 cfg.carriers) ∧
      lcr.intraTrie =
        loadRoutes cfg.carriers.length (allRateCalls core files 2 0 cfg.carriers) := by
  obtain ⟨-, lcr₀, hparams, hcarriers⟩ := loadConfig_eq_some_iff.mp h
  obtain ⟨hinter, hintra, -, -⟩ := loadParams_keeps hparams
  have hinter' : lcr₀.interTrie = loadRoutes cfg.carriers.length [] := hinter
  have hintra' : lcr₀.intraTrie = loadRoutes cfg.carriers.length [] := hintra
  exact loadCarriers_loadRoutes hinter' hintra' hcarriers

/-! ## Completeness -/

/-- The carrier with this ID; the first one has the ID 1. -/
def IsCarrier (cfg : Config) (id : RouteValue) (carrier : CarrierXml) : Prop :=
  0 < id.val ∧ cfg.carriers[id.val - 1]? = some carrier

/-- A lookup with room for all carriers, of any number behind the prefix of the row, reports the
carrier, at no more than the cost in this column. -/
def ReportsRow (core : Core) (lcr : Lcr) (trie : RouteTrie) (id : RouteValue) (column : ℕ)
    (row : List (List Char)) : Prop :=
  0 ≤ rowCost core column row → ∀ number, number.all Char.isDigit = true →
    rowDigits row <+: number →
      ∃ r ∈ (routeTrieFind trie number (routeArrayCreate lcr.numCarriers)).1.entries,
        r.value = id ∧ (r.cost.val : ℤ) ≤ rowCost core column row

/-- **What a configuration says is found.** -/
structure Complete (core : Core) (files : Files) (cfg : Config) (lcr : Lcr) : Prop where
  interAreas : ∀ id carrier, IsCarrier cfg id carrier →
    ∀ p ∈ interAreasOf core carrier.interAreas, ∀ callerId, callerId.all Char.isDigit = true →
      p <+: callerId → routeArrayContains
        (routeTrieFind lcr.interAreas callerId (routeArrayCreate lcr.numCarriers)).1 id = true
  interRates : ∀ id carrier, IsCarrier cfg id carrier →
    ∀ row ∈ ratedeckRows core files carrier.ratedeck, ReportsRow core lcr lcr.interTrie id 1 row
  intraRates : ∀ id carrier, IsCarrier cfg id carrier →
    ∀ row ∈ ratedeckRows core files carrier.ratedeck, ReportsRow core lcr lcr.intraTrie id 2 row

/-- No carrier has a list of a single prefix, if a number can start with it. -/
def SeveralAreas (core : Core) (cfg : Config) : Prop :=
  ∀ carrier ∈ cfg.carriers, ∀ p, interAreasOf core carrier.interAreas = [p] →
    p.all Char.isDigit = false

/-- The calls for the `interAreas` of all carriers. -/
def areaCallsOf (core : Core) (cfg : Config) : List RouteCall :=
  allAreaCalls core 0 (cfg.carriers.map CarrierXml.interAreas)

/-- What holds of the calls for each of the three tries. -/
structure ForTries (core : Core) (files : Files) (cfg : Config)
    (clean : ℕ → List RouteCall → Prop) : Prop where
  interAreas : clean cfg.carriers.length (areaCallsOf core cfg)
  interRates : clean cfg.carriers.length (allRateCalls core files 1 1 cfg.carriers)
  intraRates : clean cfg.carriers.length (allRateCalls core files 2 0 cfg.carriers)

/-- Every addition to a trie is clean. -/
def LoadsCleanly (core : Core) (files : Files) (cfg : Config) : Prop :=
  ForTries core files cfg FilledCleanly

/-- Every addition of a lookup is clean. -/
def FindsCleanly (core : Core) (files : Files) (cfg : Config) : Prop :=
  ForTries core files cfg FoundCleanly

variable {carrier : CarrierXml}

/-! ### The calls of a carrier -/

lemma IsCarrier.val_le (h : IsCarrier cfg id carrier) : id.val ≤ cfg.carriers.length := by
  obtain ⟨hpos, hget⟩ := h
  obtain ⟨hlt, -⟩ := List.getElem?_eq_some_iff.mp hget
  omega

lemma mem_ratedeckCalls : call ∈ ratedeckCalls core files column type id carrier ↔
    ∃ row ∈ ratedeckRows core files carrier.ratedeck, call ∈ rowCalls core column type id row := by
  rw [ratedeckCalls, List.mem_flatMap]

/-- The calls for all carriers, by carrier. -/
lemma mem_allCalls {callsOf : RouteValue → CarrierXml → List RouteCall}
    (hvalue : ∀ id carrier, ∀ call ∈ callsOf id carrier, call.value = id)
    (hle : cfg.carriers.length ≤ 255) : call ∈ callsOfAll callsOf 0 cfg.carriers ↔
      ∃ carrier, IsCarrier cfg call.value carrier ∧ call ∈ callsOf call.value carrier := by
  rw [mem_callsOfAll le_rfl hvalue cfg.carriers 0 (by rw [Fin.val_zero]; omega), Fin.val_zero]
  constructor
  · rintro ⟨j, carrier, hget, hj, hcall⟩
    refine ⟨carrier, ⟨by omega, ?_⟩, hcall⟩
    rwa [show call.value.val - 1 = j by omega]
  · rintro ⟨carrier, ⟨hpos, hget⟩, hcall⟩
    exact ⟨call.value.val - 1, carrier, hget, by omega, hcall⟩

lemma value_of_mem_ratedeckCalls (h : call ∈ ratedeckCalls core files column type id carrier) :
    call.value = id ∧ call.type = type := by
  obtain ⟨row, -, hcall⟩ := mem_ratedeckCalls.mp h
  obtain ⟨-, rfl⟩ := mem_rowCalls.mp hcall
  exact ⟨rfl, rfl⟩

lemma mem_allRateCalls (hle : cfg.carriers.length ≤ 255) :
    call ∈ allRateCalls core files column type cfg.carriers ↔
      ∃ carrier, IsCarrier cfg call.value carrier ∧
        call ∈ ratedeckCalls core files column type call.value carrier :=
  mem_allCalls (fun _ _ _ hcall => (value_of_mem_ratedeckCalls hcall).1) hle

lemma areaCallsOf_eq (core : Core) (cfg : Config) : areaCallsOf core cfg =
    callsOfAll (fun id carrier => areaCalls core id carrier.interAreas) 0 cfg.carriers := by
  have hmap : ∀ (carriers : List CarrierXml) (id : RouteValue),
      callsOfAll (areaCalls core) id (carriers.map CarrierXml.interAreas) =
        callsOfAll (fun id carrier => areaCalls core id carrier.interAreas) id carriers := by
    intro carriers
    induction carriers with
    | nil => exact fun _ => rfl
    | cons carrier carriers ih =>
      intro id
      rw [List.map_cons, callsOfAll, callsOfAll, ih]
  rw [areaCallsOf, allAreaCalls_eq, hmap]

lemma mem_areaCallsOf (hle : cfg.carriers.length ≤ 255) : call ∈ areaCallsOf core cfg ↔
    ∃ carrier, IsCarrier cfg call.value carrier ∧
      call ∈ areaCalls core call.value carrier.interAreas := by
  rw [areaCallsOf_eq]
  exact mem_allCalls (fun _ _ _ hcall => (value_of_mem_areaCalls hcall).1) hle

lemma ofCarriers_of_isCarrier (h : IsCarrier cfg call.value carrier) (htype : call.type = type) :
    OfCarriers cfg.carriers.length type call.route where
  type_eq := htype
  ne_zero := fun h0 => by
    have hval : call.value.val = 0 := congrArg Fin.val h0
    have := h.1
    omega
  le := h.val_le

lemma callsOfCarriers_rates (hle : cfg.carriers.length ≤ 255) : CallsOfCarriers
    cfg.carriers.length type (allRateCalls core files column type cfg.carriers) := by
  intro call hcall
  obtain ⟨carrier, hcarrier, hcall⟩ := (mem_allRateCalls hle).mp hcall
  exact ofCarriers_of_isCarrier hcarrier (value_of_mem_ratedeckCalls hcall).2

lemma callsOfCarriers_areas (hle : cfg.carriers.length ≤ 255) :
    CallsOfCarriers cfg.carriers.length 0 (areaCallsOf core cfg) := by
  intro call hcall
  obtain ⟨carrier, hcarrier, hcall⟩ := (mem_areaCallsOf hle).mp hcall
  refine ofCarriers_of_isCarrier hcarrier ?_
  exact congrArg Route.type (value_of_mem_areaCalls hcall).2.1

lemma routeArrayContains_iff {v : RouteValue} :
    routeArrayContains array v = true ↔ ∃ r ∈ array.entries, r.value = v := by
  rw [routeArrayContains, List.any_eq_true]
  simp

/-! ### Rates -/

section Rates

variable (hle : cfg.carriers.length ≤ 255) (hnum : lcr.numCarriers = cfg.carriers.length)
  (htrie : trie = loadRoutes cfg.carriers.length (allRateCalls core files column type cfg.carriers))
  (hfilled : FilledCleanly cfg.carriers.length (allRateCalls core files column type cfg.carriers))
include hle hnum htrie hfilled

lemma reportsRow_of_clean
    (hfound : FoundCleanly cfg.carriers.length (allRateCalls core files column type cfg.carriers))
    (hcarrier : IsCarrier cfg id carrier) {row : List (List Char)}
    (hrow : row ∈ ratedeckRows core files carrier.ratedeck) :
    ReportsRow core lcr trie id column row := by
  intro hcost number hnumber hleads
  have hcall : (⟨rowDigits row, Fin.ofNat 65536 (rowCost core column row).toNat, id, type⟩ :
      RouteCall) ∈ allRateCalls core files column type cfg.carriers :=
    (mem_allRateCalls hle).mpr
      ⟨carrier, hcarrier, mem_ratedeckCalls.mpr ⟨row, hrow, mem_rowCalls.mpr ⟨hcost, rfl⟩⟩⟩
  obtain ⟨r, hr, hvalue, hrcost⟩ :=
    reported_of_clean hle (callsOfCarriers_rates hle) hfilled hfound hcall hnumber hleads
  rw [htrie, hnum]
  refine ⟨r, hr, hvalue, ?_⟩
  have hstored : r.cost.val ≤ (rowCost core column row).toNat :=
    (show r.cost.val ≤ _ from hrcost).trans (Nat.mod_le _ _)
  omega

lemma foundCleanly_of_reportsRow
    (hreports : ∀ id carrier, IsCarrier cfg id carrier →
      ∀ row ∈ ratedeckRows core files carrier.ratedeck, ReportsRow core lcr trie id column row) :
    FoundCleanly cfg.carriers.length (allRateCalls core files column type cfg.carriers) := by
  refine foundCleanly_of_reported hle (callsOfCarriers_rates hle) hfilled ?_
  intro call hcall key hkey hleads
  obtain ⟨carrier, hcarrier, hcall⟩ := (mem_allRateCalls hle).mp hcall
  obtain ⟨row, hrow, hcall⟩ := mem_ratedeckCalls.mp hcall
  obtain ⟨hcost, heq⟩ := mem_rowCalls.mp hcall
  have hdigits : rowDigits row <+: key := by rwa [heq] at hleads
  obtain ⟨r, hr, hvalue, -⟩ := hreports _ _ hcarrier row hrow hcost key hkey hdigits
  rw [htrie, hnum] at hr
  exact ⟨r, hr, hvalue⟩

end Rates

/-! ### Inter areas -/

lemma areaCalls_of_several {attr : List Char} (hlist : (interAreasOf core attr).length ≠ 1)
    {p : List Char} (hp : p ∈ interAreasOf core attr) : ⟨p, 0, id, 0⟩ ∈ areaCalls core id attr := by
  have hpos := List.length_pos_of_mem hp
  rw [areaCalls, if_pos (by omega)]
  exact List.mem_map.mpr ⟨p, hp, rfl⟩

lemma Loaded.areaCallsOf (h : loadConfig core files cfg = some lcr) :
    lcr.numCarriers = cfg.carriers.length ∧
      lcr.interAreas = loadRoutes cfg.carriers.length (areaCallsOf core cfg) := by
  have hloaded := loadConfig_loaded h
  have hlen : (cfg.carriers.map CarrierXml.interAreas).length = cfg.carriers.length :=
    List.length_map _
  refine ⟨hloaded.numCarriers.trans hlen, hloaded.interAreas.trans ?_⟩
  rw [interAreasTrie, hlen]
  rfl

lemma contains_of_clean (hle : cfg.carriers.length ≤ 255) (hseveral : SeveralAreas core cfg)
    (hfilled : FilledCleanly cfg.carriers.length (areaCallsOf core cfg))
    (hfound : FoundCleanly cfg.carriers.length (areaCallsOf core cfg))
    (hcarrier : IsCarrier cfg id carrier) {p callerId : List Char}
    (hp : p ∈ interAreasOf core carrier.interAreas) (hdigits : callerId.all Char.isDigit = true)
    (hleads : p <+: callerId) :
    routeArrayContains (routeTrieFind (loadRoutes cfg.carriers.length (areaCallsOf core cfg))
      callerId (routeArrayCreate cfg.carriers.length)).1 id = true := by
  have hlist : (interAreasOf core carrier.interAreas).length ≠ 1 := by
    intro hone
    obtain ⟨p', hp'⟩ := List.length_eq_one_iff.mp hone
    obtain rfl := List.mem_singleton.mp (hp' ▸ hp)
    have hall : p.all Char.isDigit = true :=
      List.all_eq_true.mpr fun c hc => List.all_eq_true.mp hdigits c (hleads.subset hc)
    rw [hseveral carrier (List.mem_of_getElem? hcarrier.2) p hp'] at hall
    cases hall
  have hcall : (⟨p, 0, id, 0⟩ : RouteCall) ∈ areaCallsOf core cfg :=
    (mem_areaCallsOf hle).mpr ⟨carrier, hcarrier, areaCalls_of_several hlist hp⟩
  obtain ⟨r, hr, hvalue, -⟩ :=
    reported_of_clean hle (callsOfCarriers_areas hle) hfilled hfound hcall hdigits hleads
  exact routeArrayContains_iff.mpr ⟨r, hr, hvalue⟩

section Areas

variable (hle : cfg.carriers.length ≤ 255)
  (hcontains : ∀ id carrier, IsCarrier cfg id carrier →
    ∀ p ∈ interAreasOf core carrier.interAreas, ∀ callerId, callerId.all Char.isDigit = true →
      p <+: callerId → routeArrayContains
        (routeTrieFind (loadRoutes cfg.carriers.length (areaCallsOf core cfg)) callerId
          (routeArrayCreate cfg.carriers.length)).1 id = true)
include hle hcontains

/-- A single prefix is not added, so its carrier is never reported. -/
lemma severalAreas_of_contains : SeveralAreas core cfg := by
  intro carrier hmem p hp
  by_contra hdigits
  rw [Bool.not_eq_false] at hdigits
  obtain ⟨j, hj⟩ := List.mem_iff_getElem?.mp hmem
  have hlt : j < cfg.carriers.length := (List.getElem?_eq_some_iff.mp hj).1
  have hid : (Fin.ofNat 65536 (j + 1)).val = j + 1 := Nat.mod_eq_of_lt (by omega)
  have hcarrier : IsCarrier cfg (Fin.ofNat 65536 (j + 1)) carrier := by
    refine ⟨by omega, ?_⟩
    rwa [hid, Nat.add_sub_cancel]
  have hreported := hcontains _ _ hcarrier p (by simp [hp]) p hdigits List.prefix_rfl
  obtain ⟨r, hr, hvalue⟩ := routeArrayContains_iff.mp hreported
  obtain ⟨call, hcall, rfl⟩ :=
    exists_call_of_mem_find (value_ne_zero (callsOfCarriers_areas hle)) hr
  obtain ⟨carrier', hcarrier', hcall⟩ := (mem_areaCallsOf hle).mp hcall
  -- the call would be one of this carrier, which has none
  have hsame : carrier' = carrier := by
    have hget := hcarrier'.2
    rw [show call.value = _ from hvalue, hcarrier.2] at hget
    exact (Option.some.inj hget).symm
  rw [hsame, areaCalls, hp] at hcall
  simp at hcall

lemma foundCleanly_of_contains
    (hfilled : FilledCleanly cfg.carriers.length (areaCallsOf core cfg)) :
    FoundCleanly cfg.carriers.length (areaCallsOf core cfg) := by
  refine foundCleanly_of_reported hle (callsOfCarriers_areas hle) hfilled ?_
  intro call hcall key hkey hleads
  obtain ⟨carrier, hcarrier, hcall⟩ := (mem_areaCallsOf hle).mp hcall
  have hp := (value_of_mem_areaCalls hcall).2.2
  exact routeArrayContains_iff.mp (hcontains _ _ hcarrier _ hp key hkey hleads)

end Areas

/-! ### The configuration -/

/-- **What a configuration says is found** if no `interAreas` are a single prefix and every addition
is clean.  With a single prefix it is not; and if the loading is clean, it is not with a lookup that
is not clean. -/
theorem loadConfig_complete (h : loadConfig core files cfg = some lcr)
    (hle : cfg.carriers.length ≤ 255) :
    (SeveralAreas core cfg ∧ LoadsCleanly core files cfg ∧ FindsCleanly core files cfg →
      Complete core files cfg lcr) ∧
    (Complete core files cfg lcr →
      SeveralAreas core cfg ∧ (LoadsCleanly core files cfg → FindsCleanly core files cfg)) := by
  obtain ⟨hnum, hareas⟩ := Loaded.areaCallsOf h
  obtain ⟨hinter, hintra⟩ := loadConfig_rates h
  constructor
  · rintro ⟨hseveral, hloads, hfinds⟩
    refine ⟨fun id carrier hcarrier p hp callerId hdigits hleads => ?_,
      fun id carrier hcarrier row hrow => ?_, fun id carrier hcarrier row hrow => ?_⟩
    · rw [hareas, hnum]
      exact contains_of_clean hle hseveral hloads.interAreas hfinds.interAreas hcarrier hp hdigits
        hleads
    · exact reportsRow_of_clean hle hnum hinter hloads.interRates hfinds.interRates hcarrier hrow
    · exact reportsRow_of_clean hle hnum hintra hloads.intraRates hfinds.intraRates hcarrier hrow
  · intro hcomplete
    have hcontains := hcomplete.interAreas
    rw [hareas, hnum] at hcontains
    refine ⟨severalAreas_of_contains hle hcontains, fun hloads => ⟨?_, ?_, ?_⟩⟩
    · exact foundCleanly_of_contains hle hcontains hloads.interAreas
    · exact foundCleanly_of_reportsRow hle hnum hinter hloads.interRates hcomplete.interRates
    · exact foundCleanly_of_reportsRow hle hnum hintra hloads.intraRates hcomplete.intraRates

/-- The additions are clean when no prefix of a carrier's list is behind another and its rates rise
with the prefix. -/
lemma cleanly_of_rising (hle : cfg.carriers.length ≤ 255)
    (h : ForTries core files cfg fun _ => RisingCalls) :
    LoadsCleanly core files cfg ∧ FindsCleanly core files cfg := by
  refine ⟨⟨?_, ?_, ?_⟩, ⟨?_, ?_, ?_⟩⟩
  · exact h.interAreas.filledCleanly hle (callsOfCarriers_areas hle)
  · exact h.interRates.filledCleanly hle (callsOfCarriers_rates hle)
  · exact h.intraRates.filledCleanly hle (callsOfCarriers_rates hle)
  · exact h.interAreas.foundCleanly hle (callsOfCarriers_areas hle)
  · exact h.interRates.foundCleanly hle (callsOfCarriers_rates hle)
  · exact h.intraRates.foundCleanly hle (callsOfCarriers_rates hle)

/-- Two carriers with two prefixes each. -/
def severalConfig : Config := ⟨[], [carrierWith "8,9", carrierWith "8,70"]⟩

lemma loadConfig_several : (loadConfig plainCore ratesFiles severalConfig).isSome = true := by
  with_unfolding_all decide

lemma several_severalConfig : SeveralAreas plainCore severalConfig := by
  intro carrier hmem p hp
  have htwo : ∀ carrier ∈ severalConfig.carriers,
      (interAreasOf plainCore carrier.interAreas).length = 2 := by
    decide
  have hlen := htwo carrier hmem
  rw [hp] at hlen
  cases hlen

lemma rising_severalConfig :
    ForTries plainCore ratesFiles severalConfig fun _ => RisingCalls where
  interAreas := ⟨by decide, by decide⟩
  interRates := ⟨by with_unfolding_all decide, by with_unfolding_all decide⟩
  intraRates := ⟨by with_unfolding_all decide, by with_unfolding_all decide⟩

theorem loadConfig_complete_several : Complete plainCore ratesFiles severalConfig
    ((loadConfig plainCore ratesFiles severalConfig).get loadConfig_several) :=
  (loadConfig_complete (Option.some_get loadConfig_several).symm (by decide)).1
    ⟨several_severalConfig, cleanly_of_rising (by decide) rising_severalConfig⟩

/-- One carrier with a single prefix. -/
def singleConfig : Config := ⟨[], [carrierWith "8"]⟩

lemma loadConfig_single : (loadConfig plainCore ratesFiles singleConfig).isSome = true := by
  with_unfolding_all decide

theorem not_loadConfig_complete : ¬∀ (core : Core) (files : Files) (cfg : Config) (lcr : Lcr),
    core.Documented → loadConfig core files cfg = some lcr → 1 ≤ cfg.carriers.length →
    cfg.carriers.length ≤ 255 → Complete core files cfg lcr := by
  intro h
  have hcomplete := h plainCore ratesFiles singleConfig _ plainCore_documented
    (Option.some_get loadConfig_single).symm (by decide) (by decide)
  have hreported := hcomplete.interAreas 1 (carrierWith "8") ⟨by decide, rfl⟩ ['8']
    (by decide) ['8'] rfl List.prefix_rfl
  exact absurd hreported (by with_unfolding_all decide)

end FreeswitchContrib.SimpleLcr
