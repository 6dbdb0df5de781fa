import FreeswitchContrib.SimpleLcr.PlainAreas

/-!
# When the per-carrier rule is kept

`Decided` is exact: when the count does not decide the rule for the `interAreas` of a configuration
and a caller ID, there are rates for which a call breaks it.  They are rates of one carrier only,
the one the count is wrong about, and for one prefix only.
-/

namespace FreeswitchContrib.SimpleLcr

open Numeral

/-- What the documentation of the core and of the C library says about plain fields and numbers. -/
structure Core.Documented (core : Core) : Prop where
  separate : ∀ (fields : List (List Char)) (limit : ℕ), fields ≠ [] → fields.length ≤ limit →
    (∀ field ∈ fields, field ≠ [] ∧ field.all Char.isAlphanum = true) →
      core.switchSeparateString ([','].intercalate fields) ',' limit = fields
  isNumber : ∀ s n, decimal s = some n → core.switchIsNumber s = true
  atof : ∀ s n, decimal s = some n → n < 2 ^ 53 → core.atof s = n
  multiply : ∀ a b : ℕ, a * b < 2 ^ 53 → core.multiply a b = a * b

/-! ## Rates of one carrier -/

/-- One file with the same rate for both kinds of calls, all others empty. -/
def ratesFiles : Files := fun name =>
  if name = "rates".toList then some "5,1,1".toList else some []

def withRates (carrier : CarrierXml) : CarrierXml :=
  { carrier with ratedeck := "rates".toList }

def withoutRates (carrier : CarrierXml) : CarrierXml :=
  { carrier with ratedeck := "none".toList }

/-- The same carriers, of which only one has rates. -/
def onlyCarrier : ℕ → List CarrierXml → List CarrierXml
  | _, [] => []
  | 0, carrier :: carriers => withRates carrier :: carriers.map withoutRates
  | t + 1, carrier :: carriers => withoutRates carrier :: onlyCarrier t carriers

def rateCall (id : RouteValue) (type : RouteType) : RouteCall :=
  ⟨['5'], 10000, id, type⟩

/-- The database that is loaded from these carriers. -/
def onlyLcr (n : ℕ) (interAreas : RouteTrie) (id : RouteValue) : Lcr :=
  { lcrCreate n with
    interAreas := interAreas
    interTrie := loadRoutes n [rateCall id 1]
    intraTrie := loadRoutes n [rateCall id 0] }

variable {core : Core} {files : Files} {lcr lcr' lcr₁ : Lcr} {n t : ℕ} {calls : List RouteCall}
  {call : RouteCall} {id target : RouteValue} {type : RouteType} {cfg : Config}
  {attrs : List (List Char)} {callerId key : List Char}

lemma interAreas_onlyCarrier : ∀ (t : ℕ) (carriers : List CarrierXml),
    (onlyCarrier t carriers).map CarrierXml.interAreas = carriers.map CarrierXml.interAreas
  | t, [] => by
    cases t <;> rfl
  | 0, carrier :: carriers => by
    simp [onlyCarrier, withRates, withoutRates, Function.comp_def]
  | t + 1, carrier :: carriers => by
    rw [onlyCarrier, List.map_cons, interAreas_onlyCarrier t carriers]
    rfl

lemma toRouteCost_one (hcore : core.Documented) : toRouteCost core ['1'] = 10000 := by
  have hone : decimal ['1'] = some 1 := by decide
  have hmul : core.multiply 1 10000 = 10000 := by
    have h := hcore.multiply 1 10000 (by decide)
    push_cast at h
    linarith
  have hatof : core.atof ['1'] = 1 := by
    have h := hcore.atof ['1'] 1 hone (by decide)
    rwa [Nat.cast_one] at h
  rw [toRouteCost, if_neg (by decide), if_pos (hcore.isNumber _ _ hone)]
  simp only [hatof, hmul]
  rw [if_pos (by norm_num [maxCost])]
  exact Int.floor_natCast 10000

lemma addRoute_of_digits (h : call.digits.all Char.isDigit = true) :
    addRoute (loadRoutes n calls) call = some (loadRoutes n (calls ++ [call])) := by
  have hone := (routeTrieFind_refines n calls [] (routeArrayCreate 0) call).2.mpr h
  rw [addRoute, hone, if_neg (by decide), loadRoutes_snoc]

lemma fileLines_rates : fileLines "5,1,1".toList = ["5,1,1".toList] := by
  with_unfolding_all decide

lemma loadRatedeckFile_rates_file (hcore : core.Documented) (id : RouteValue) :
    loadRatedeckFile core ratesFiles (loadRoutes n [], loadRoutes n []) id "rates".toList
      = some (loadRoutes n [rateCall id 1], loadRoutes n [rateCall id 0]) := by
  have hfields : core.switchSeparateString "5,1,1".toList ',' 4 = [['5'], ['1'], ['1']] :=
    hcore.separate [['5'], ['1'], ['1']] 4 (by decide) (by decide) (by decide)
  have hrate : ∀ type, addRate (loadRoutes n []) ['5'] 10000 id type
      = some (loadRoutes n [rateCall id type]) := by
    intro type
    rw [addRate, if_neg (by decide), if_pos (by decide), addRoute_of_digits rfl]
    rfl
  have hline : loadRatedeckLine core id (loadRoutes n [], loadRoutes n []) "5,1,1".toList
      = some (loadRoutes n [rateCall id 1], loadRoutes n [rateCall id 0]) := by
    simp only [loadRatedeckLine, hfields, List.length_cons, List.length_nil, List.getD_cons_zero,
      List.getD_cons_succ, toRouteCost_one hcore, hrate, Option.bind_some, Option.map_some]
    rfl
  rw [loadRatedeckFile, ratesFiles, if_pos rfl, Option.bind_some, fileLines_rates,
    List.foldlM_cons, hline]
  rfl

lemma loadRatedeckFile_empty (tries : RateTries) (id : RouteValue) :
    loadRatedeckFile core ratesFiles tries id "none".toList = some tries := by
  have hlines : fileLines [] = [] := by with_unfolding_all decide
  rw [loadRatedeckFile, ratesFiles, if_neg (by decide), Option.bind_some, hlines]
  rfl

/-- Carriers without rates load their inter areas. -/
lemma loadCarriers_withoutRates : ∀ (carriers : List CarrierXml) (id : RouteValue) (lcr lcr₁ : Lcr),
    loadCarriers core files lcr id carriers = some lcr' → lcr₁.interAreas = lcr.interAreas →
      loadCarriers core ratesFiles lcr₁ id (carriers.map withoutRates)
        = some { lcr₁ with interAreas := lcr'.interAreas }
  | [], id, lcr, lcr₁, h, hareas => by
    obtain rfl : lcr = lcr' := Option.some.inj h
    rw [List.map_nil, loadCarriers, ← hareas]
  | carrier :: carriers, id, lcr, lcr₁, h, hareas => by
    rw [loadCarriers, Option.bind_eq_some_iff] at h
    obtain ⟨lcr₂, h₂, h⟩ := h
    obtain ⟨hname, -, hgateways, interAreas, tries, hinter, -, rfl⟩ := loadCarrier_eq_some_iff.mp h₂
    have hfirst : loadCarrier core ratesFiles lcr₁ (id + 1) (withoutRates carrier)
        = some { lcr₁ with interAreas := interAreas } :=
      loadCarrier_eq_some_iff.mpr ⟨hname, by simp [withoutRates], hgateways, interAreas, _,
        by rw [hareas]; exact hinter, loadRatedeckFile_empty _ _, rfl⟩
    rw [List.map_cons, loadCarriers, hfirst, Option.bind_some]
    exact loadCarriers_withoutRates carriers (id + 1) _ _ h rfl

/-- The carrier with rates puts them into both tries. -/
lemma loadCarriers_onlyCarrier (hcore : core.Documented) (hn : n ≤ 256) :
    ∀ (t : ℕ) (carriers : List CarrierXml) (id : RouteValue) (lcr lcr₁ : Lcr), t < carriers.length →
      id.val + carriers.length ≤ n → loadCarriers core files lcr id carriers = some lcr' →
      lcr₁.interAreas = lcr.interAreas → lcr₁.interTrie = loadRoutes n [] →
      lcr₁.intraTrie = loadRoutes n [] →
      ∃ target : RouteValue, target.val = id.val + t + 1 ∧
        loadCarriers core ratesFiles lcr₁ id (onlyCarrier t carriers)
          = some { lcr₁ with
              interAreas := lcr'.interAreas
              interTrie := loadRoutes n [rateCall target 1]
              intraTrie := loadRoutes n [rateCall target 0] }
  | t, [], id, lcr, lcr₁, ht, _, _, _, _, _ => absurd ht (Nat.not_lt_zero t)
  | 0, carrier :: carriers, id, lcr, lcr₁, _, hlen, h, hareas, hinter, hintra => by
    rw [loadCarriers, Option.bind_eq_some_iff] at h
    obtain ⟨lcr₂, h₂, h⟩ := h
    obtain ⟨hname, -, hgateways, interAreas, tries, hload, -, rfl⟩ := loadCarrier_eq_some_iff.mp h₂
    rw [List.length_cons] at hlen
    refine ⟨id + 1, by rw [val_succ hlen hn], ?_⟩
    have hfirst : loadCarrier core ratesFiles lcr₁ (id + 1) (withRates carrier)
        = some { lcr₁ with
            interAreas := interAreas
            interTrie := loadRoutes n [rateCall (id + 1) 1]
            intraTrie := loadRoutes n [rateCall (id + 1) 0] } :=
      loadCarrier_eq_some_iff.mpr ⟨hname, by simp [withRates], hgateways, interAreas, _,
        by rw [hareas]; exact hload, by
          rw [hinter, hintra]
          exact loadRatedeckFile_rates_file hcore (id + 1), rfl⟩
    rw [onlyCarrier, loadCarriers, hfirst, Option.bind_some]
    exact loadCarriers_withoutRates carriers (id + 1) _ _ h rfl
  | t + 1, carrier :: carriers, id, lcr, lcr₁, ht, hlen, h, hareas, hinter, hintra => by
    rw [loadCarriers, Option.bind_eq_some_iff] at h
    obtain ⟨lcr₂, h₂, h⟩ := h
    obtain ⟨hname, -, hgateways, interAreas, tries, hload, -, rfl⟩ := loadCarrier_eq_some_iff.mp h₂
    rw [List.length_cons] at hlen ht
    have hfirst : loadCarrier core ratesFiles lcr₁ (id + 1) (withoutRates carrier)
        = some { lcr₁ with interAreas := interAreas } :=
      loadCarrier_eq_some_iff.mpr ⟨hname, by simp [withoutRates], hgateways, interAreas, _,
        by rw [hareas]; exact hload, loadRatedeckFile_empty _ _, rfl⟩
    obtain ⟨target, htarget, hrest⟩ := loadCarriers_onlyCarrier hcore hn t carriers (id + 1) _
      { lcr₁ with interAreas := interAreas } (by omega) (by rw [val_succ hlen hn]; omega) h rfl
      hinter hintra
    refine ⟨target, by rw [htarget, val_succ hlen hn]; omega, ?_⟩
    rw [onlyCarrier, loadCarriers, hfirst, Option.bind_some, hrest]

/-- **For any configuration there is one with the same inter areas and the rates of one carrier.** -/
theorem loadConfig_onlyCarrier (hcore : core.Documented) (h : loadConfig core files cfg = some lcr)
    (ht : t < cfg.carriers.length) :
    ∃ target : RouteValue, target.val = t + 1 ∧
      loadConfig core ratesFiles ⟨[], onlyCarrier t cfg.carriers⟩
        = some (onlyLcr cfg.carriers.length lcr.interAreas target) := by
  obtain ⟨hle, lcr₀, hparams, hcarriers⟩ := loadConfig_eq_some_iff.mp h
  obtain ⟨-, -, hareas, -⟩ := loadParams_keeps hparams
  obtain ⟨target, htarget, hload⟩ := loadCarriers_onlyCarrier hcore hle t cfg.carriers 0 lcr₀
    (lcrCreate cfg.carriers.length) ht (by simp) hcarriers hareas.symm rfl rfl
  have hlen : (onlyCarrier t cfg.carriers).length = cfg.carriers.length := by
    have h := congrArg List.length (interAreas_onlyCarrier t cfg.carriers)
    simpa using h
  refine ⟨target, by simpa using htarget, loadConfig_eq_some_iff.mpr ⟨by rwa [hlen], ?_⟩⟩
  exact ⟨lcrCreate cfg.carriers.length, by rw [hlen]; rfl, hload⟩

/-! ## A call of that carrier -/

lemma entries_add_create {m : ℕ} {r : Route} (hm : m % 256 ≠ 0) (hr : r.value ≠ 0) :
    (routeArrayAdd (routeArrayCreate m) r).entries = [r] := by
  obtain ⟨k, hk⟩ := Nat.exists_eq_succ_of_ne_zero hm
  have hfind : routeArrayFindByValueAndType (routeArrayCreate m) r.value r.type
      = (routeArrayCreate m).maxSize := by
    simp [routeArrayFindByValueAndType, RouteArray.entries, routeArrayCreate]
  have hcost : routeArrayFindByCost (routeArrayCreate m) r.cost = 0 := by
    simp [routeArrayFindByCost, routeArrayCreate, hk, List.replicate_succ, List.findIdx?_cons,
      Route.zero]
  rw [routeArrayAdd, hfind]
  simp only [ne_eq, not_true_eq_false, if_false]
  simp only [RouteArray.entries, insertByCost, hcost, List.take_zero, List.drop_zero,
    List.nil_append]
  simp [routeArrayCreate, hk, List.replicate_succ, pushDown, hr]

lemma pathEntries_rateCall (hn : n % 256 ≠ 0) (hid : id ≠ 0) (type : RouteType) :
    pathEntries (loadRoutes n [rateCall id type]).root ['5'] = [⟨10000, id, type⟩] := by
  have hroot : (arrayOf n [rateCall id type] []).entries = [] := by
    simp [arrayOf, routesAt, rateCall, RouteArray.entries, routeArrayCreate]
  have hfive : (arrayOf n [rateCall id type] ['5']).entries = [⟨10000, id, type⟩] :=
    entries_add_create hn hid
  have hinits : (['5'].takeWhile Char.isDigit).inits = [[], ['5']] := by decide
  rw [pathEntries_loadRoutes, entriesAlong, hinits]
  simp only [List.flatMap_cons, List.flatMap_nil, hroot, hfive, List.nil_append, List.append_nil]

lemma searchResults_rateCall (hn : n % 256 ≠ 0) (hid : id ≠ 0) (type : RouteType) :
    searchResults (loadRoutes n [rateCall id type]) n ['5'] = [⟨10000, id, type⟩] := by
  have hentries : (routeTrieFind (loadRoutes n [rateCall id type]) ['5']
      (routeArrayCreate n)).1.entries = [⟨10000, id, type⟩] := by
    rw [routeTrieFind, routeTrieNodeFind_eq, pathEntries_rateCall hn hid]
    exact entries_add_create hn hid
  have hcount : (routeTrieFind (loadRoutes n [rateCall id type]) ['5'] (routeArrayCreate n)).2
      = (routeTrieFind (loadRoutes n [rateCall id type]) ['5'] (routeArrayCreate n)).1.size := by
    rw [routeTrieFind, routeTrieNodeFind_snd, badInput_of_digits (by decide)]
    rfl
  rw [searchResults, hcount, ← length_entries, List.take_length, hentries]

lemma lcrIsInterArea_onlyLcr (trie : RouteTrie) (key : List Char) :
    lcrIsInterArea (onlyLcr n trie id) key ['5'] = false := by
  rw [lcrIsInterArea]
  split_ifs with hcaller hdest
  · rfl
  · rfl
  · exact absurd (Or.inr (Or.inl (Int.le_refl 1))) hdest

/-- When the rule is kept for the only route, it is of the type of its carrier. -/
lemma onlyLcr_rule {routing : Routing} {trie : RouteTrie} (hn : n % 256 ≠ 0) (hid : id ≠ 0)
    (hrouting : lcrRouting (onlyLcr n trie id) (stripPlus callerId) ['5'] = routing)
    (hfound : foundRoutes (onlyLcr n trie id) (stripPlus callerId) ['5'] routing
      = [⟨10000, id, type⟩])
    (hrule : PerCarrier core attrs (onlyLcr n trie id) callerId ['5'] (routeArrayCreate 1)) :
    CarrierMatches core attrs callerId id ↔ type = 1 := by
  have hentries : (lcrFind (onlyLcr n trie id) callerId ['5'] (routeArrayCreate 1)).1.entries
      = [⟨10000, id, type⟩] := by
    rw [lcrFind_eq (by simp) (by decide), hrouting, hfound]
    exact entries_add_create (show 1 % 256 ≠ 0 by decide) hid
  have hinter : pathEntries (onlyLcr n trie id).interTrie.root ['5'] = [⟨10000, id, 1⟩] :=
    pathEntries_rateCall hn hid 1
  have hintra : pathEntries (onlyLcr n trie id).intraTrie.root ['5'] = [⟨10000, id, 0⟩] :=
    pathEntries_rateCall hn hid 0
  have hmem : (⟨10000, id, type⟩ : Route)
      ∈ (lcrFind (onlyLcr n trie id) callerId ['5'] (routeArrayCreate 1)).1.entries := by
    rw [hentries]
    exact List.mem_singleton_self _
  constructor
  · intro hmatch
    have h := hrule.inter _ hmem hmatch
    rw [hinter, List.mem_singleton] at h
    exact congrArg Route.type h
  · rintro rfl
    by_contra hno
    have h := hrule.intra _ hmem hno
    rw [hintra, List.mem_singleton] at h
    exact absurd (congrArg Route.type h) (by simp)

lemma foundRoutes_mixed_onlyLcr {trie : RouteTrie} {count : ℕ} (hn : n % 256 ≠ 0) (hid : id ≠ 0) :
    foundRoutes (onlyLcr n trie id) key ['5'] (.mixed count)
      = [⟨10000, id, if routeArrayContains (interCarriers (onlyLcr n trie id) key count) id
          then 1 else 0⟩] := by
  have hinter : searchResults (onlyLcr n trie id).interTrie (onlyLcr n trie id).numCarriers ['5']
      = [⟨10000, id, 1⟩] := searchResults_rateCall hn hid 1
  have hintra : searchResults (onlyLcr n trie id).intraTrie (onlyLcr n trie id).numCarriers ['5']
      = [⟨10000, id, 0⟩] := searchResults_rateCall hn hid 0
  rw [foundRoutes, mixedRoutes]
  simp only [hinter, hintra]
  cases hcontains : routeArrayContains (interCarriers (onlyLcr n trie id) key count) id <;>
    simp [hcontains]

/-- **The count is wrong only where it breaks the rule.** -/
theorem decided_of_perCarrier (hlen : attrs.length ≤ 255)
    (hrule : ∀ id : RouteValue, 0 < id.val → id.val ≤ attrs.length →
      PerCarrier core attrs (onlyLcr attrs.length (interAreasTrie core attrs) id) callerId ['5']
        (routeArrayCreate 1)) :
    Decided core attrs callerId := by
  have hmod : 0 < attrs.length → attrs.length % 256 ≠ 0 := fun hpos => by
    rw [Nat.mod_eq_of_lt (by omega)]
    omega
  have hne : ∀ id : RouteValue, 0 < id.val → id ≠ 0 := fun id hid h0 => by simp [h0] at hid
  have hrouting : ∀ id, lcrRouting (onlyLcr attrs.length (interAreasTrie core attrs) id)
      (stripPlus callerId) ['5'] = _ :=
    fun id => lcrRouting_of_not_interArea (lcrIsInterArea_onlyLcr _ _)
  have hnum : ∀ id, (onlyLcr attrs.length (interAreasTrie core attrs) id).numCarriers
      = attrs.length := fun _ => rfl
  have hareas : ∀ id, (onlyLcr attrs.length (interAreasTrie core attrs) id).interAreas
      = interAreasTrie core attrs := fun _ => rfl
  simp only [hnum, hareas] at hrouting
  rw [Decided]
  set count := routeTrieFindCount (interAreasTrie core attrs) (stripPlus callerId) with hcount
  by_cases hall : attrs.length ≤ count
  · rw [if_pos hall]
    simp only [if_pos hall] at hrouting
    intro attr hattr
    have hpos := List.length_pos_of_mem hattr
    have hone : (1 : RouteValue).val = 1 := rfl
    exact (hrule 1 (by decide) (by omega)).wholeCall (by simp) (hrouting 1) attr hattr
  rw [if_neg hall]
  simp only [if_neg hall] at hrouting
  by_cases hnone : count = 0
  · rw [if_pos hnone]
    simp only [if_pos hnone] at hrouting
    intro attr hattr hmatch
    obtain ⟨t, ht, hget⟩ := List.mem_iff_getElem.mp hattr
    have hid : (Fin.ofNat 65536 (t + 1)).val = t + 1 := Nat.mod_eq_of_lt (by omega)
    have hfound : foundRoutes (onlyLcr attrs.length (interAreasTrie core attrs)
        (Fin.ofNat 65536 (t + 1))) (stripPlus callerId) ['5'] .intra
        = [⟨10000, Fin.ofNat 65536 (t + 1), 0⟩] :=
      pathEntries_rateCall (hmod (by omega)) (hne _ (by omega)) 0
    have hiff := onlyLcr_rule (hmod (by omega)) (hne _ (by omega)) (hrouting _) hfound
      (hrule _ (by omega) (by omega))
    have hcarrier : CarrierMatches core attrs callerId (Fin.ofNat 65536 (t + 1)) := by
      refine ⟨attr, ?_, hmatch⟩
      rw [hid, Nat.add_sub_cancel, List.getElem?_eq_getElem ht, hget]
    exact absurd (hiff.mp hcarrier) (by decide)
  · rw [if_neg hnone]
    simp only [if_neg hnone] at hrouting
    intro id hpos hle
    have hiff := onlyLcr_rule (hmod (by omega)) (hne id hpos) (hrouting id)
      (foundRoutes_mixed_onlyLcr (hmod (by omega)) (hne id hpos)) (hrule id hpos hle)
    rw [hiff, interCarriers, hareas]
    split_ifs with hcontains
    · simp [hcontains]
    · simp [hcontains]

/-! ## The rule is kept -/

/-- **The per-carrier rule**, for every configuration with these `interAreas` and every call from
this caller ID, is kept if and only if the count decides it; and it does for plain inter areas.
With 256 carriers no route is ever found. -/
theorem perCarrier_iff_decided (hcore : core.Documented)
    (h : loadConfig core files cfg = some lcr) (callerId : List Char) :
    let attrs := cfg.carriers.map CarrierXml.interAreas
    ((∀ files' cfg' lcr', cfg'.carriers.map CarrierXml.interAreas = attrs →
        loadConfig core files' cfg' = some lcr' →
        ∀ destNumber, destNumber.all Char.isDigit = true →
          lcrIsInterArea lcr' (stripPlus callerId) destNumber = false →
            ∀ m, PerCarrier core attrs lcr' callerId destNumber (routeArrayCreate m)) ↔
      attrs.length = 256 ∨ Decided core attrs callerId) ∧
    (PlainAreas core attrs callerId → attrs.length ≤ 255 → Decided core attrs callerId) := by
  intro attrs
  have hloaded := loadConfig_loaded h
  refine ⟨⟨fun hrule => ?_, ?_⟩, fun hplain hlen => hplain.decided hlen⟩
  · by_cases hlen : attrs.length = 256
    · exact Or.inl hlen
    -- the rates of the carrier with this ID are the only ones
    have hle : attrs.length ≤ 255 := by
      have : attrs.length ≤ 256 := hloaded.le
      omega
    refine Or.inr (decided_of_perCarrier hle fun id hpos hid => ?_)
    have hcarriers : attrs.length = cfg.carriers.length := List.length_map _
    obtain ⟨target, htarget, hload⟩ := loadConfig_onlyCarrier hcore h
      (show id.val - 1 < cfg.carriers.length by omega)
    obtain rfl : target = id := Fin.ext (by omega)
    rw [← hcarriers, hloaded.interAreas] at hload
    exact hrule _ _ _ (interAreas_onlyCarrier _ _) hload ['5'] rfl (lcrIsInterArea_onlyLcr _ _) 1
  · intro hor files' cfg' lcr' hattrs hload destNumber hdest harea m
    have hloaded' := loadConfig_loaded hload
    rw [hattrs] at hloaded'
    rcases hor with hlen | hdecided
    · exact hloaded'.perCarrier_of_256 hlen hdest harea m
    · exact hloaded'.perCarrier_of_decided hdecided hdest harea m

/-- Plain fields and decimal numerals, computed without rounding. -/
def plainCore : Core where
  switchSeparateString s delim _ := s.splitOn delim
  switchIsNumber s := (decimal s).isSome
  atof s := (decimal s).getD 0
  multiply a b := a * b

lemma plainCore_documented : plainCore.Documented where
  separate fields limit hne _ hfields := by
    refine List.splitOn_intercalate ',' (fun field hfield hmem => ?_) hne
    have := List.all_eq_true.mp (hfields field hfield).2 ',' hmem
    exact absurd this (by decide)
  isNumber s n h := by simp [plainCore, h]
  atof s n h _ := by simp [plainCore, h]
  multiply a b _ := rfl

/-- One carrier with these inter areas. -/
def carrierWith (interAreas : String) : CarrierXml :=
  ⟨"carrier".toList, "rates".toList, interAreas.toList, []⟩

/-- Two carriers, of which the second does not match a caller that the prefixes "8" and "80" of
the first do. -/
def nestedConfig : Config := ⟨[], [carrierWith "8,80", carrierWith "9,91"]⟩

lemma loadConfig_nested : (loadConfig plainCore ratesFiles nestedConfig).isSome = true := by
  with_unfolding_all decide

theorem perCarrier_iff_decided_nested :
    let attrs := nestedConfig.carriers.map CarrierXml.interAreas
    ((∀ files' cfg' lcr', cfg'.carriers.map CarrierXml.interAreas = attrs →
        loadConfig plainCore files' cfg' = some lcr' →
        ∀ destNumber, destNumber.all Char.isDigit = true →
          lcrIsInterArea lcr' (stripPlus "912".toList) destNumber = false →
            ∀ m, PerCarrier plainCore attrs lcr' "912".toList destNumber (routeArrayCreate m)) ↔
      attrs.length = 256 ∨ Decided plainCore attrs "912".toList) ∧
    (PlainAreas plainCore attrs "912".toList → attrs.length ≤ 255 →
      Decided plainCore attrs "912".toList) :=
  perCarrier_iff_decided plainCore_documented (Option.some_get loadConfig_nested).symm _

/-- A caller of the first carrier only: its two prefixes count as two carriers. -/
theorem not_perCarrier : ¬∀ (core : Core) (files : Files) (cfg : Config) (lcr : Lcr)
    (callerId destNumber : List Char) (m : ℕ), core.Documented →
    loadConfig core files cfg = some lcr → destNumber.all Char.isDigit = true →
    lcrIsInterArea lcr (stripPlus callerId) destNumber = false →
      PerCarrier core (cfg.carriers.map CarrierXml.interAreas) lcr callerId destNumber
        (routeArrayCreate m) := by
  intro h
  have hrule := h plainCore ratesFiles nestedConfig _ "8001".toList ['5'] 2 plainCore_documented
    (Option.some_get loadConfig_nested).symm (by decide) (by with_unfolding_all decide)
  obtain ⟨p, hp, hleads⟩ :=
    hrule.wholeCall (by simp) (by with_unfolding_all decide) "9,91".toList (by decide)
  have hno : ∀ p ∈ interAreasOf plainCore "9,91".toList, ¬ p <+: stripPlus "8001".toList := by
    decide
  exact hno p hp hleads

end FreeswitchContrib.SimpleLcr
