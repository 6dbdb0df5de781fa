import FreeswitchContrib.Library.Numeral
import FreeswitchContrib.SimpleLcr.LcrDatabase
import FreeswitchContrib.SimpleLcr.LeastCostLookup

/-!
# Inter or intra, carrier by carrier

A carrier is rated inter for a call when one of its `interAreas` is a prefix of the caller ID.
`PerCarrier` says that the routes of a call are chosen by this rule; `lcr_find` decides it by
counting entries of one trie for all carriers.

`Decided` is what has to hold of the `interAreas` and the caller ID for the count to decide the
rule, whatever the rates are.
-/

namespace FreeswitchContrib.SimpleLcr

/-! ## What is loaded -/

/-- The caller ID prefixes of a carrier, from its attribute. -/
def interAreasOf (core : Core) (attr : List Char) : List (List Char) :=
  if attr = [] then [] else core.switchSeparateString attr ',' maxInterAreas

/-- The calls of `route_trie_add` for the prefixes of one carrier. -/
def areaCalls (core : Core) (id : RouteValue) (attr : List Char) : List RouteCall :=
  if 1 < (interAreasOf core attr).length then
    (interAreasOf core attr).map fun p => ⟨p, 0, id, 0⟩
  else
    []

/-- The calls for the carriers behind the one with this ID. -/
def allAreaCalls (core : Core) : RouteValue → List (List Char) → List RouteCall
  | _, [] => []
  | id, attr :: attrs =>
    areaCalls core (id + 1) attr ++ allAreaCalls core (id + 1) attrs

/-- The trie of the prefixes of all carriers. -/
def interAreasTrie (core : Core) (attrs : List (List Char)) : RouteTrie :=
  loadRoutes attrs.length (allAreaCalls core 0 attrs)

/-- A trie of rates: all its routes have this type, and belong to one of the `n` carriers. -/
def Rates (n : ℕ) (type : RouteType) (trie : RouteTrie) : Prop :=
  ∃ calls, trie = loadRoutes n calls ∧
    ∀ call ∈ calls, call.type = type ∧ call.value ≠ 0 ∧ call.value.val ≤ n

/-- The database of carriers with these `interAreas`. -/
structure Loaded (core : Core) (attrs : List (List Char)) (lcr : Lcr) : Prop where
  le : attrs.length ≤ 256
  numCarriers : lcr.numCarriers = attrs.length
  interAreas : lcr.interAreas = interAreasTrie core attrs
  interRates : Rates attrs.length 1 lcr.interTrie
  intraRates : Rates attrs.length 0 lcr.intraTrie

variable {core : Core} {files : Files} {lcr lcr' : Lcr} {n : ℕ} {calls : List RouteCall}
  {call : RouteCall} {trie trie' : RouteTrie} {id : RouteValue} {type : RouteType} {cfg : Config}
  {attrs : List (List Char)}

/-- A loop that stops at the first failure keeps what each turn keeps. -/
lemma foldlM_keeps {σ α : Type} {f : σ → α → Option σ} {P : σ → Prop}
    (hf : ∀ s x s', P s → f s x = some s' → P s') :
    ∀ (xs : List α) (s s' : σ), P s → xs.foldlM f s = some s' → P s'
  | [], s, s', hs, h => by
    obtain rfl : s = s' := Option.some.inj h
    exact hs
  | x :: xs, s, s', hs, h => by
    rw [List.foldlM_cons, Option.bind_eq_bind, Option.bind_eq_some_iff] at h
    obtain ⟨s₁, h₁, h₂⟩ := h
    exact foldlM_keeps hf xs s₁ s' (hf s x s₁ hs h₁) h₂

lemma loadRoutes_snoc (n : ℕ) (calls : List RouteCall) (call : RouteCall) :
    (routeTrieAdd (loadRoutes n calls) call).1 = loadRoutes n (calls ++ [call]) :=
  (loadRoutes_append_singleton n calls call).symm

lemma addRoute_loadRoutes (h : addRoute (loadRoutes n calls) call = some trie) :
    trie = loadRoutes n (calls ++ [call]) := by
  rw [addRoute] at h
  split_ifs at h
  rw [← loadRoutes_snoc]
  exact (Option.some.inj h).symm

lemma Rates.create (n : ℕ) (type : RouteType) : Rates n type (routeTrieCreate n) :=
  ⟨[], rfl, by simp⟩

lemma Rates.addRate (h : Rates n type trie) (hid : id ≠ 0 ∧ id.val ≤ n) {digits : List Char}
    {cost : ℤ} (hadd : addRate trie digits cost id type = some trie') : Rates n type trie' := by
  obtain ⟨calls, rfl, hcalls⟩ := h
  rw [SimpleLcr.addRate] at hadd
  split_ifs at hadd
  · refine ⟨_, addRoute_loadRoutes hadd, ?_⟩
    intro call hcall
    rcases List.mem_append.mp hcall with hcall | hcall
    · exact hcalls call hcall
    · obtain rfl := List.mem_singleton.mp hcall
      exact ⟨rfl, hid⟩
  · obtain rfl := Option.some.inj hadd
    exact ⟨calls, rfl, hcalls⟩

/-- A ratedeck adds rates of its carrier to both tries. -/
lemma loadRatedeckFile_rates {tries tries' : RateTries} {ratedeck : List Char}
    (hinter : Rates n 1 tries.1) (hintra : Rates n 0 tries.2) (hid : id ≠ 0 ∧ id.val ≤ n)
    (h : loadRatedeckFile core files tries id ratedeck = some tries') :
    Rates n 1 tries'.1 ∧ Rates n 0 tries'.2 := by
  rw [loadRatedeckFile, Option.bind_eq_some_iff] at h
  obtain ⟨file, -, h⟩ := h
  refine foldlM_keeps (P := fun tries : RateTries => Rates n 1 tries.1 ∧ Rates n 0 tries.2) ?_
    _ _ _ ⟨hinter, hintra⟩ h
  rintro tries line tries' ⟨hinter, hintra⟩ hline
  rw [loadRatedeckLine] at hline
  simp only at hline
  split_ifs at hline
  obtain ⟨interTrie, hinter', hline⟩ := Option.bind_eq_some_iff.mp hline
  obtain ⟨intraTrie, hintra', rfl⟩ := Option.map_eq_some_iff.mp hline
  exact ⟨hinter.addRate hid hinter', hintra.addRate hid hintra'⟩

lemma foldlM_addRoute : ∀ (digits : List (List Char)) (calls : List RouteCall),
    digits.foldlM (fun trie p => addRoute trie ⟨p, 0, id, 0⟩) (loadRoutes n calls) = some trie →
      trie = loadRoutes n (calls ++ digits.map fun p => ⟨p, 0, id, 0⟩)
  | [], calls, h => by
    obtain rfl := Option.some.inj h
    rw [List.map_nil, List.append_nil]
  | p :: digits, calls, h => by
    rw [List.foldlM_cons, Option.bind_eq_bind, Option.bind_eq_some_iff] at h
    obtain ⟨trie₁, h₁, h₂⟩ := h
    rw [addRoute_loadRoutes h₁] at h₂
    rw [foldlM_addRoute digits _ h₂, List.append_assoc, List.singleton_append, List.map_cons]

lemma loadInterAreas_loadRoutes {attr : List Char}
    (h : loadInterAreas core (loadRoutes n calls) id attr = some trie) :
    trie = loadRoutes n (calls ++ areaCalls core id attr) := by
  by_cases hempty : attr = []
  · rw [loadInterAreas, if_pos hempty] at h
    obtain rfl := Option.some.inj h
    simp [areaCalls, interAreasOf, hempty]
  rw [loadInterAreas, if_neg hempty] at h
  rw [areaCalls, interAreasOf, if_neg hempty]
  split_ifs with hone
  · simp only [hone, if_true] at h
    exact foldlM_addRoute _ _ h
  · simp only [hone, if_false] at h
    obtain rfl := Option.some.inj h
    rw [List.append_nil]

/-- The settings are about neither rates nor inter areas. -/
lemma loadParam_keeps {param : List Char × List Char}
    (h : loadParam core files lcr param = some lcr') :
    lcr'.interTrie = lcr.interTrie ∧ lcr'.intraTrie = lcr.intraTrie
      ∧ lcr'.interAreas = lcr.interAreas ∧ lcr'.numCarriers = lcr.numCarriers := by
  have hmax : ∀ m, (lcrSetMaxRoutes lcr m).interTrie = lcr.interTrie
      ∧ (lcrSetMaxRoutes lcr m).intraTrie = lcr.intraTrie
      ∧ (lcrSetMaxRoutes lcr m).interAreas = lcr.interAreas
      ∧ (lcrSetMaxRoutes lcr m).numCarriers = lcr.numCarriers := by
    intro m
    rw [lcrSetMaxRoutes]
    split_ifs <;> exact ⟨rfl, rfl, rfl, rfl⟩
  rw [loadParam] at h
  split_ifs at h
  all_goals first
    | exact Option.some.inj h ▸ ⟨rfl, rfl, rfl, rfl⟩
    | exact Option.some.inj h ▸ hmax _
    | obtain ⟨trie, -, rfl⟩ := Option.map_eq_some_iff.mp h
      exact ⟨rfl, rfl, rfl, rfl⟩

/-- What it takes to load a carrier, and what that does. -/
lemma loadCarrier_eq_some_iff {carrier : CarrierXml} :
    loadCarrier core files lcr id carrier = some lcr' ↔
      carrier.name ≠ [] ∧ carrier.ratedeck ≠ [] ∧ gatewaysAccepted carrier.gateways = true ∧
        ∃ interAreas tries,
          loadInterAreas core lcr.interAreas id carrier.interAreas = some interAreas ∧
          loadRatedeckFile core files (lcr.interTrie, lcr.intraTrie) id carrier.ratedeck
            = some tries ∧
          lcr' = { lcr with
            interAreas := interAreas, interTrie := tries.1, intraTrie := tries.2 } := by
  rw [loadCarrier]
  by_cases hname : carrier.name = [] ∨ carrier.ratedeck = []
  · rw [if_pos hname]
    constructor
    · intro h
      cases h
    · rintro ⟨hne, hne', -⟩
      exact absurd hname (not_or.mpr ⟨hne, hne'⟩)
  rw [if_neg hname, Option.bind_eq_some_iff]
  rw [not_or] at hname
  constructor
  · rintro ⟨interAreas, hareas, h⟩
    split_ifs at h with hgateways
    obtain ⟨tries, htries, rfl⟩ := Option.map_eq_some_iff.mp h
    exact ⟨hname.1, hname.2, hgateways, interAreas, tries, hareas, htries, rfl⟩
  · rintro ⟨-, -, hgateways, interAreas, tries, hareas, htries, rfl⟩
    exact ⟨interAreas, hareas, by rw [if_pos hgateways, htries, Option.map_some]⟩

lemma val_succ {m : ℕ} (h : id.val + (m + 1) ≤ n) (hn : n ≤ 256) : (id + 1).val = id.val + 1 := by
  rw [Fin.val_add]
  exact Nat.mod_eq_of_lt (by omega)

lemma succ_ne_zero {m : ℕ} (h : id.val + (m + 1) ≤ n) (hn : n ≤ 256) : id + 1 ≠ 0 := by
  intro h0
  have := congrArg Fin.val h0
  rw [val_succ h hn] at this
  simp at this

lemma loadCarriers_loaded (hn : n ≤ 256) : ∀ (carriers : List CarrierXml) (id : RouteValue)
    (lcr : Lcr) (calls : List RouteCall), id.val + carriers.length ≤ n →
    lcr.interAreas = loadRoutes n calls → Rates n 1 lcr.interTrie → Rates n 0 lcr.intraTrie →
    loadCarriers core files lcr id carriers = some lcr' →
      lcr'.numCarriers = lcr.numCarriers ∧
      lcr'.interAreas = loadRoutes n (calls
        ++ allAreaCalls core id (carriers.map CarrierXml.interAreas)) ∧
      Rates n 1 lcr'.interTrie ∧ Rates n 0 lcr'.intraTrie
  | [], id, lcr, calls, _, hareas, hinter, hintra, h => by
    obtain rfl : lcr = lcr' := Option.some.inj h
    exact ⟨rfl, by rw [hareas, List.map_nil, allAreaCalls, List.append_nil], hinter, hintra⟩
  | carrier :: carriers, id, lcr, calls, hlen, hareas, hinter, hintra, h => by
    rw [loadCarriers, Option.bind_eq_some_iff] at h
    obtain ⟨lcr₁, h₁, h⟩ := h
    rw [List.length_cons] at hlen
    obtain ⟨-, -, -, interAreas, tries, hareas₁, htries, rfl⟩ := loadCarrier_eq_some_iff.mp h₁
    rw [hareas] at hareas₁
    have hid : id + 1 ≠ 0 ∧ (id + 1).val ≤ n := by
      rw [val_succ hlen hn]
      exact ⟨succ_ne_zero hlen hn, by omega⟩
    obtain ⟨hinter₁, hintra₁⟩ := loadRatedeckFile_rates hinter hintra hid htries
    obtain ⟨hnum, hareas', hinter', hintra'⟩ := loadCarriers_loaded hn carriers (id + 1) _ _
      (by rw [val_succ hlen hn]; omega) (loadInterAreas_loadRoutes hareas₁) hinter₁ hintra₁ h
    refine ⟨hnum, ?_, hinter', hintra'⟩
    rw [hareas', List.map_cons, allAreaCalls, List.append_assoc]

/-- The settings leave the database as it was created, as far as rates and inter areas go. -/
lemma loadParams_keeps {settings : List (List Char × List Char)}
    (h : settings.foldlM (loadParam core files) (lcrCreate n) = some lcr) :
    lcr.interTrie = routeTrieCreate n ∧ lcr.intraTrie = routeTrieCreate n
      ∧ lcr.interAreas = routeTrieCreate n ∧ lcr.numCarriers = n := by
  refine foldlM_keeps (P := fun lcr : Lcr => lcr.interTrie = routeTrieCreate n
    ∧ lcr.intraTrie = routeTrieCreate n ∧ lcr.interAreas = routeTrieCreate n
    ∧ lcr.numCarriers = n) ?_ _ _ _ ⟨rfl, rfl, rfl, rfl⟩ h
  rintro lcr param lcr' ⟨hinter, hintra, hareas, hnum⟩ hparam
  obtain ⟨hinter', hintra', hareas', hnum'⟩ := loadParam_keeps hparam
  exact ⟨hinter'.trans hinter, hintra'.trans hintra, hareas'.trans hareas, hnum'.trans hnum⟩

lemma loadConfig_eq_some_iff : loadConfig core files cfg = some lcr' ↔ cfg.carriers.length ≤ 256 ∧
    ∃ lcr, cfg.settings.foldlM (loadParam core files) (lcrCreate cfg.carriers.length) = some lcr ∧
      loadCarriers core files lcr 0 cfg.carriers = some lcr' := by
  rw [loadConfig, maxCarriers]
  split_ifs with hmany
  · constructor
    · intro h
      cases h
    · rintro ⟨hle, -⟩
      omega
  · rw [Option.bind_eq_some_iff]
    exact ⟨fun h => ⟨Nat.le_of_not_lt hmany, h⟩, fun h => h.2⟩

/-- **What a configuration is loaded as.** -/
theorem loadConfig_loaded (h : loadConfig core files cfg = some lcr) :
    Loaded core (cfg.carriers.map CarrierXml.interAreas) lcr := by
  obtain ⟨hle, lcr₀, hparams, hcarriers⟩ := loadConfig_eq_some_iff.mp h
  obtain ⟨hinter, hintra, hareas, hnum⟩ := loadParams_keeps hparams
  have hlen : (cfg.carriers.map CarrierXml.interAreas).length = cfg.carriers.length :=
    List.length_map _
  obtain ⟨hnum', hareas', hinter', hintra'⟩ := loadCarriers_loaded hle cfg.carriers 0 lcr₀ []
    (by simp) hareas (hinter ▸ Rates.create _ _) (hintra ▸ Rates.create _ _) hcarriers
  rw [List.nil_append] at hareas'
  exact ⟨by rwa [hlen], by rw [hnum', hnum, hlen], by rw [hareas', interAreasTrie, hlen],
    by rwa [hlen], by rwa [hlen]⟩

/-! ## The rule -/

/-- A carrier with this attribute is rated inter for this caller ID. -/
def MatchesCaller (core : Core) (callerId : List Char) (attr : List Char) : Prop :=
  ∃ p ∈ interAreasOf core attr, p <+: stripPlus callerId

/-- The same for a carrier ID; the first carrier has the ID 1. -/
def CarrierMatches (core : Core) (attrs : List (List Char)) (callerId : List Char)
    (id : RouteValue) : Prop :=
  ∃ attr, attrs[id.val - 1]? = some attr ∧ MatchesCaller core callerId attr

/-- **The per-carrier rule**, for the routes in a fresh results array: one of a carrier that matches
comes from the inter trie, one of another carrier from the intra trie.  The whole call is routed
inter only when every carrier matches. -/
structure PerCarrier (core : Core) (attrs : List (List Char)) (lcr : Lcr)
    (callerId destNumber : List Char) (results : RouteArray) : Prop where
  inter : ∀ r ∈ (lcrFind lcr callerId destNumber results).1.entries,
    CarrierMatches core attrs callerId r.value → r ∈ pathEntries lcr.interTrie.root destNumber
  intra : ∀ r ∈ (lcrFind lcr callerId destNumber results).1.entries,
    ¬ CarrierMatches core attrs callerId r.value → r ∈ pathEntries lcr.intraTrie.root destNumber
  wholeCall : destNumber ≠ [] →
    lcrRouting lcr (stripPlus callerId) destNumber = .allCarriersInter →
      ∀ attr ∈ attrs, MatchesCaller core callerId attr

/-- **When the count decides the rule.**  The entries met on the walk along the caller ID are as
many as there are carriers only if every carrier matches, and none only if no carrier does;
otherwise the carriers collected on the walk are those that match. -/
def Decided (core : Core) (attrs : List (List Char)) (callerId : List Char) : Prop :=
  let trie := interAreasTrie core attrs
  let count := routeTrieFindCount trie (stripPlus callerId)
  if attrs.length ≤ count then
    ∀ attr ∈ attrs, MatchesCaller core callerId attr
  else if count = 0 then
    ∀ attr ∈ attrs, ¬ MatchesCaller core callerId attr
  else
    ∀ id : RouteValue, 0 < id.val → id.val ≤ attrs.length →
      (routeArrayContains (routeTrieFind trie (stripPlus callerId) (routeArrayCreate count)).1 id
        = true ↔ CarrierMatches core attrs callerId id)

variable {key callerId destNumber : List Char} {m : ℕ} {r : Route}

/-! ## Where routes come from -/

/-- A route on the way of a lookup was added for the trie's type and one of the carriers. -/
lemma Rates.mem_pathEntries (h : Rates n type trie) (hr : r ∈ pathEntries trie.root key) :
    r.type = type ∧ r.value ≠ 0 ∧ r.value.val ≤ n := by
  obtain ⟨calls, rfl, hcalls⟩ := h
  rw [pathEntries_loadRoutes] at hr
  obtain ⟨p, -, hp⟩ := List.mem_flatMap.mp hr
  have hv : ∀ call ∈ calls, call.value ≠ 0 := fun call hcall => (hcalls call hcall).2.1
  obtain ⟨call, hcall, rfl⟩ := List.mem_map.mp (mem_entries_arrayOf hv hp)
  exact hcalls call (List.mem_filter.mp hcall).1

/-- An array filled from a fresh one holds nothing but what was added. -/
lemma mem_foldl_add {routes : List Route} (hv : ∀ r ∈ routes, r.value ≠ 0)
    (hr : r ∈ (routes.foldl routeArrayAdd (routeArrayCreate m)).entries) : r ∈ routes := by
  obtain ⟨live, hlive, hsub⟩ := Packed.foldl_add (Packed.create m) hv
  rw [hlive.entries_eq] at hr
  exact (hsub r (List.mem_of_mem_take hr)).resolve_right (by simp)

lemma Rates.mem_find (h : Rates n type trie)
    (hr : r ∈ (routeTrieFind trie key (routeArrayCreate m)).1.entries) :
    r ∈ pathEntries trie.root key := by
  rw [routeTrieFind, routeTrieNodeFind_eq] at hr
  exact mem_foldl_add (fun r hr => (h.mem_pathEntries hr).2.1) hr

lemma Rates.mem_searchResults (h : Rates n type trie) (hr : r ∈ searchResults trie m key) :
    r ∈ pathEntries trie.root key :=
  h.mem_find (List.mem_of_mem_take hr)

/-- Mixed routing takes each route from the trie of its type. -/
lemma mem_mixedRoutes (hinter : Rates n 1 lcr.interTrie) (hintra : Rates n 0 lcr.intraTrie)
    (hr : r ∈ mixedRoutes lcr callerId destNumber m) :
    (r ∈ pathEntries lcr.interTrie.root destNumber
        ∧ routeArrayContains (interCarriers lcr callerId m) r.value = true) ∨
      (r ∈ pathEntries lcr.intraTrie.root destNumber
        ∧ routeArrayContains (interCarriers lcr callerId m) r.value = false) := by
  rcases List.mem_append.mp hr with hr | hr
  · obtain ⟨hmem, htest⟩ := List.mem_filter.mp hr
    rw [Bool.and_eq_true, Bool.not_eq_true'] at htest
    exact Or.inr ⟨hintra.mem_searchResults hmem, htest.2⟩
  · obtain ⟨hmem, htest⟩ := List.mem_filter.mp hr
    rw [Bool.and_eq_true] at htest
    exact Or.inl ⟨hinter.mem_searchResults hmem, htest.2⟩

lemma stripPlus_of_digits (h : destNumber.all Char.isDigit = true) :
    stripPlus destNumber = destNumber := by
  rcases destNumber with _ | ⟨c, rest⟩
  · rfl
  · rw [stripPlus]
    rintro rest' heq
    rw [heq] at h
    simp [Char.isDigit] at h

/-- What `lcr_find` fills a fresh array with. -/
def foundRoutes (lcr : Lcr) (callerId destNumber : List Char) : Routing → List Route
  | .interArea => pathEntries lcr.interTrie.root destNumber
  | .allCarriersInter => pathEntries lcr.interTrie.root destNumber
  | .intra => pathEntries lcr.intraTrie.root destNumber
  | .mixed m => mixedRoutes lcr callerId destNumber m

lemma lcrFind_eq (hne : destNumber ≠ []) (hdest : destNumber.all Char.isDigit = true)
    (results : RouteArray) :
    (lcrFind lcr callerId destNumber results).1
      = (foundRoutes lcr (stripPlus callerId) destNumber
          (lcrRouting lcr (stripPlus callerId) destNumber)).foldl routeArrayAdd results := by
  rw [lcrFind, if_neg hne, stripPlus_of_digits hdest]
  simp only
  cases lcrRouting lcr (stripPlus callerId) destNumber <;>
    simp only [foundRoutes, routeTrieFind, routeTrieNodeFind_eq]

lemma lcrRouting_of_not_interArea (h : lcrIsInterArea lcr key destNumber = false) :
    lcrRouting lcr key destNumber
      = if lcr.numCarriers ≤ routeTrieFindCount lcr.interAreas key then .allCarriersInter
        else if routeTrieFindCount lcr.interAreas key = 0 then .intra
        else .mixed (routeTrieFindCount lcr.interAreas key) := by
  simp only [lcrRouting, h, Bool.false_eq_true, if_false]

namespace Loaded

variable (h : Loaded core attrs lcr)
include h

lemma mem_foundRoutes {routing : Routing} (hr : r ∈ foundRoutes lcr key destNumber routing) :
    r ∈ pathEntries lcr.interTrie.root destNumber
      ∨ r ∈ pathEntries lcr.intraTrie.root destNumber := by
  cases routing with
  | interArea => exact Or.inl hr
  | allCarriersInter => exact Or.inl hr
  | intra => exact Or.inr hr
  | mixed m => exact (mem_mixedRoutes h.interRates h.intraRates hr).imp And.left And.left

/-- The carrier of a route is one of those that were loaded. -/
lemma exists_carrier {routing : Routing} (hr : r ∈ foundRoutes lcr key destNumber routing) :
    r.value ≠ 0 ∧ r.value.val ≤ attrs.length ∧
      ∃ attr ∈ attrs, attrs[r.value.val - 1]? = some attr := by
  have hvalue : r.value ≠ 0 ∧ r.value.val ≤ attrs.length := by
    rcases h.mem_foundRoutes hr with hr | hr
    · exact (h.interRates.mem_pathEntries hr).2
    · exact (h.intraRates.mem_pathEntries hr).2
  have hpos : r.value.val ≠ 0 := fun h0 => hvalue.1 (Fin.ext h0)
  have hlt : r.value.val - 1 < attrs.length := by omega
  exact ⟨hvalue.1, hvalue.2, attrs[r.value.val - 1], List.getElem_mem hlt,
    List.getElem?_eq_getElem hlt⟩

lemma mem_lcrFind (hne : destNumber ≠ []) (hdest : destNumber.all Char.isDigit = true)
    (hr : r ∈ (lcrFind lcr callerId destNumber (routeArrayCreate m)).1.entries) :
    r ∈ foundRoutes lcr (stripPlus callerId) destNumber
      (lcrRouting lcr (stripPlus callerId) destNumber) := by
  rw [lcrFind_eq hne hdest] at hr
  exact mem_foldl_add (fun r hr => (h.exists_carrier hr).1) hr

/-- **When the count decides the rule, every call keeps it.** -/
theorem perCarrier_of_decided (hdecided : Decided core attrs callerId)
    (hdest : destNumber.all Char.isDigit = true)
    (harea : lcrIsInterArea lcr (stripPlus callerId) destNumber = false) (m : ℕ) :
    PerCarrier core attrs lcr callerId destNumber (routeArrayCreate m) := by
  by_cases hne : destNumber = []
  · have hempty : (lcrFind lcr callerId destNumber (routeArrayCreate m)).1.entries = [] := by
      rw [lcrFind, if_pos hne]
      simp [RouteArray.entries, routeArrayCreate]
    exact ⟨by simp [hempty], by simp [hempty], fun hne' => absurd hne hne'⟩
  have hrouting := lcrRouting_of_not_interArea harea
  rw [h.numCarriers, h.interAreas] at hrouting
  rw [Decided] at hdecided
  set count := routeTrieFindCount (interAreasTrie core attrs) (stripPlus callerId) with hcount
  by_cases hall : attrs.length ≤ count
  · rw [if_pos hall] at hdecided hrouting
    -- all carriers match, and all routes are inter
    refine ⟨fun r hr _ => ?_, fun r hr hno => ?_, fun _ _ => hdecided⟩
    · have hr := h.mem_lcrFind hne hdest hr
      rw [hrouting] at hr
      exact hr
    · obtain ⟨-, -, attr, hmem, hget⟩ := h.exists_carrier (h.mem_lcrFind hne hdest hr)
      exact absurd ⟨attr, hget, hdecided attr hmem⟩ hno
  rw [if_neg hall] at hdecided hrouting
  by_cases hnone : count = 0
  · rw [if_pos hnone] at hdecided hrouting
    -- no carrier matches, and all routes are intra
    refine ⟨fun r hr hyes => ?_, fun r hr _ => ?_, fun _ hwhole => ?_⟩
    · obtain ⟨attr, hget, hmatch⟩ := hyes
      exact absurd hmatch (hdecided attr (List.mem_of_getElem? hget))
    · have hr := h.mem_lcrFind hne hdest hr
      rw [hrouting] at hr
      exact hr
    · rw [hrouting] at hwhole
      cases hwhole
  · rw [if_neg hnone] at hdecided hrouting
    -- the carriers collected are those that match
    have hmixed : ∀ r ∈ (lcrFind lcr callerId destNumber (routeArrayCreate m)).1.entries,
        (r ∈ pathEntries lcr.interTrie.root destNumber
            ∧ CarrierMatches core attrs callerId r.value) ∨
          (r ∈ pathEntries lcr.intraTrie.root destNumber
            ∧ ¬ CarrierMatches core attrs callerId r.value) := by
      intro r hr
      have hr := h.mem_lcrFind hne hdest hr
      obtain ⟨hvalue, hle, -⟩ := h.exists_carrier hr
      have hiff := hdecided r.value (Nat.pos_of_ne_zero fun h0 => hvalue (Fin.ext h0)) hle
      rw [hrouting] at hr
      have hmem := mem_mixedRoutes h.interRates h.intraRates hr
      rw [interCarriers, h.interAreas] at hmem
      rcases hmem with ⟨hinter, hyes⟩ | ⟨hintra, hno⟩
      · exact Or.inl ⟨hinter, hiff.mp hyes⟩
      · exact Or.inr ⟨hintra, fun hmatch => by rw [hiff.mpr hmatch] at hno; cases hno⟩
    refine ⟨fun r hr hyes => ?_, fun r hr hno => ?_, fun _ hwhole => ?_⟩
    · exact ((hmixed r hr).resolve_right fun hintra => hintra.2 hyes).1
    · exact ((hmixed r hr).resolve_left fun hinter => hno hinter.2).1
    · rw [hrouting] at hwhole
      cases hwhole

end Loaded

/-! ## 256 carriers -/

lemma pathEntries_of_mod_eq_zero (hn : n % 256 = 0) (calls : List RouteCall) (key : List Char) :
    pathEntries (loadRoutes n calls).root key = [] := by
  rw [pathEntries_loadRoutes, entriesAlong, List.flatMap_eq_nil_iff]
  intro p _
  rw [← List.length_eq_zero_iff, length_entries]
  have hsize := (arrayOf n calls p).size_le
  rw [arrayOf, maxSize_foldl_routeArrayAdd] at hsize
  exact Nat.eq_zero_of_le_zero (hsize.trans (by simp [routeArrayCreate, hn]))

lemma routeTrieNodeFindCount_le : ∀ (key : List Char) (node : RouteTrieNode) (count : ℕ),
    routeTrieNodeFindCount node key count ≤ count + (pathEntries node key).length
  | key, .null, count => by
    cases key <;> simp [routeTrieNodeFindCount]
  | [], .node child array, count => by
    rw [pathEntries_node_nil]
    exact Nat.le_refl _
  | c :: rest, .node child array, count => by
    cases hc : digit? c with
    | none => simp [routeTrieNodeFindCount, hc]
    | some i =>
      have ih := routeTrieNodeFindCount_le rest (child i) (count + (nodeEntries array).length)
      rw [pathEntries_node_cons_of_some child array hc, List.length_append, ← Nat.add_assoc]
      simpa only [routeTrieNodeFindCount, hc] using ih

/-- The tries of 256 carriers have no room for routes, so nothing is ever found. -/
lemma Loaded.perCarrier_of_256 (h : Loaded core attrs lcr) (hlen : attrs.length = 256)
    (hdest : destNumber.all Char.isDigit = true)
    (harea : lcrIsInterArea lcr (stripPlus callerId) destNumber = false) (m : ℕ) :
    PerCarrier core attrs lcr callerId destNumber (routeArrayCreate m) := by
  have hempty : ∀ r ∈ (lcrFind lcr callerId destNumber (routeArrayCreate m)).1.entries, False := by
    intro r hr
    by_cases hne : destNumber = []
    · rw [lcrFind, if_pos hne] at hr
      simp [RouteArray.entries, routeArrayCreate] at hr
    · obtain ⟨calls, hinter, -⟩ := h.interRates
      obtain ⟨calls', hintra, -⟩ := h.intraRates
      have hmem := h.mem_foundRoutes (h.mem_lcrFind hne hdest hr)
      rw [hinter, hintra, pathEntries_of_mod_eq_zero (by omega),
        pathEntries_of_mod_eq_zero (by omega)] at hmem
      simp at hmem
  refine ⟨fun r hr => (hempty r hr).elim, fun r hr => (hempty r hr).elim, fun _ hwhole => ?_⟩
  have hcount := routeTrieNodeFindCount_le (stripPlus callerId) lcr.interAreas.root 0
  rw [h.interAreas, interAreasTrie, pathEntries_of_mod_eq_zero (by omega)] at hcount
  rw [lcrRouting_of_not_interArea harea, h.numCarriers, h.interAreas] at hwhole
  have hzero : routeTrieFindCount (interAreasTrie core attrs) (stripPlus callerId) = 0 :=
    Nat.eq_zero_of_le_zero hcount
  rw [hzero, if_neg (by omega), if_pos rfl] at hwhole
  cases hwhole

end FreeswitchContrib.SimpleLcr
