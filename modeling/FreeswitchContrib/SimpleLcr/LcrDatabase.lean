import FreeswitchContrib.SimpleLcr.RouteTrie
import Mathlib.Data.Rat.Floor

/-!
# The LCR database

`load_config` of `mod_simple_lcr.c` makes a database from the configuration and the files it names:
per carrier the rates for calls between areas and within one, and the caller ID prefixes that the
carrier rates as calls between areas.  `lcr_find` chooses between the two kinds of rates, for the
whole call or for each carrier.

Allocations succeed.  The names and gateways of the carriers, which only the dial strings use, are
checked here but not kept.
-/

namespace FreeswitchContrib.SimpleLcr

def maxCarriers : ℕ := 256
def maxGateways : ℕ := 8
def maxRouteCount : ℤ := 8
def maxInterAreas : ℕ := 16
def defaultMaxRoutes : ℕ := 3

/-- What the core of the switch and the floating point library provide. -/
structure Core where
  switchSeparateString : List Char → Char → ℕ → List (List Char)
  switchIsNumber : List Char → Bool
  atof : List Char → ℚ
  multiply : ℚ → ℚ → ℚ

/-- The content of a file, if it can be opened. -/
abbrev Files := List Char → Option (List Char)

/-! ## The C library -/

def strcasecmp (s t : List Char) : Bool :=
  s.map Char.toLower == t.map Char.toLower

def isspace (c : Char) : Bool :=
  c == ' ' || (9 ≤ c.toNat && c.toNat ≤ 13)

def atoi (s : List Char) : ℤ :=
  let number (digits : List Char) : ℤ :=
    (digits.takeWhile Char.isDigit).foldl (fun n d => 10 * n + (d.toNat - '0'.toNat)) 0
  match s.dropWhile isspace with
  | '-' :: digits => -number digits
  | '+' :: digits => number digits
  | digits => number digits

/-- `fgets_trimmed`: at most 254 characters, up to a newline, and what is left of the file. -/
def fgetsTrimmed (file : List Char) : List Char × List Char :=
  let line := (file.take 254).takeWhile (· != '\n')
  let rest := file.drop line.length
  (line, if line.length < 254 then rest.drop 1 else rest)

lemma fgetsTrimmed_length {file : List Char} (h : file ≠ []) :
    (fgetsTrimmed file).2.length < file.length := by
  have hpos := List.length_pos_of_ne_nil h
  simp only [fgetsTrimmed]
  split_ifs <;> simp only [List.length_drop] <;> omega

/-- The lines that the loop over a file reads. -/
def fileLines (file : List Char) : List (List Char) :=
  if _h : file = [] then [] else (fgetsTrimmed file).1 :: fileLines (fgetsTrimmed file).2
termination_by file.length
decreasing_by exact fgetsTrimmed_length ‹_›

/-! ## The database -/

structure Lcr where
  interTrie : RouteTrie
  intraTrie : RouteTrie
  /-- map of prefixes to area -/
  areas : RouteTrie
  /-- caller ID prefixes that are always rated as inter calls -/
  interAreas : RouteTrie
  numCarriers : ℕ
  maxRoutes : ℕ
  areasCallerIdStrip : ℤ
  areasCallerIdPrefix : List Char
  areasDestStrip : ℤ
  areasDestPrefix : List Char

def lcrCreate (numCarriers : ℕ) : Lcr where
  interTrie := routeTrieCreate numCarriers
  intraTrie := routeTrieCreate numCarriers
  areas := routeTrieCreate 1
  interAreas := routeTrieCreate numCarriers
  numCarriers := numCarriers
  maxRoutes := defaultMaxRoutes
  areasCallerIdStrip := 0
  areasCallerIdPrefix := []
  areasDestStrip := 1
  areasDestPrefix := []

def lcrSetMaxRoutes (lcr : Lcr) (maxRoutes : ℤ) : Lcr :=
  if maxRouteCount ≤ maxRoutes then
    { lcr with maxRoutes := maxRouteCount.toNat }
  else if 1 ≤ maxRoutes then
    { lcr with maxRoutes := maxRoutes.toNat }
  else
    lcr

/-- `route_trie_add`, when it does not report bad input. -/
def addRoute (trie : RouteTrie) (call : RouteCall) : Option RouteTrie :=
  let result := routeTrieAdd trie call
  if result.2 = 0 then none else some result.1

/-! ## Loading -/

/-- The internal IDs of the areas in the order in which the file names them. -/
structure AreaMap where
  trie : RouteTrie
  nextId : RouteValue
  areaHash : List (List Char × RouteValue)

def loadAreaLine (core : Core) (areas : AreaMap) (line : List Char) : Option AreaMap :=
  let field := core.switchSeparateString line ',' 3
  if field.length < 2 then
    none
  else
    let digits := field.getD 0 []
    let extId := field.getD 1 []
    let areas := match areas.areaHash.lookup extId with
      | some _ => areas
      | none => { areas with
          nextId := areas.nextId + 1, areaHash := (extId, areas.nextId + 1) :: areas.areaHash }
    let id := (areas.areaHash.lookup extId).getD 0
    (addRoute areas.trie ⟨digits, 0, id, 0⟩).map fun trie => { areas with trie := trie }

def loadAreaFile (core : Core) (files : Files) (trie : RouteTrie) (area : List Char) :
    Option RouteTrie :=
  (files area).bind fun file =>
    ((fileLines file).foldlM (loadAreaLine core) ⟨trie, 0, []⟩).map AreaMap.trie

def costNoInput : ℤ := -1
def costBadInput : ℤ := -2

/-- `6.5535f` -/
def maxCost : ℚ := 13743686 / 2097152

def toRouteCost (core : Core) (cost : List Char) : ℤ :=
  if cost = [] then
    costNoInput
  else if core.switchIsNumber cost then
    let costf := core.atof cost
    if 0 ≤ costf ∧ costf < maxCost then
      ⌊core.multiply costf 10000⌋
    else if maxCost ≤ costf then
      65535
    else
      costBadInput
  else
    costBadInput

/-- One of the two rates of a line.  A missing rate adds nothing. -/
def addRate (trie : RouteTrie) (digits : List Char) (cost : ℤ) (id : RouteValue)
    (type : RouteType) : Option RouteTrie :=
  if cost = costBadInput then
    none
  else if 0 ≤ cost then
    addRoute trie ⟨digits, Fin.ofNat 65536 cost.toNat, id, type⟩
  else
    some trie

/-- The inter-area and the intra-area rates. -/
abbrev RateTries := RouteTrie × RouteTrie

def loadRatedeckLine (core : Core) (id : RouteValue) (tries : RateTries) (line : List Char) :
    Option RateTries :=
  let field := core.switchSeparateString line ',' 4
  if 2 < field.length then
    let digits := field.getD 0 []
    let interCost := toRouteCost core (field.getD 1 [])
    let intraCost := toRouteCost core (field.getD 2 [])
    (addRate tries.1 digits interCost id 1).bind fun interTrie =>
      (addRate tries.2 digits intraCost id 0).map fun intraTrie => (interTrie, intraTrie)
  else
    none

def loadRatedeckFile (core : Core) (files : Files) (tries : RateTries) (id : RouteValue)
    (ratedeck : List Char) : Option RateTries :=
  (files ratedeck).bind fun file => (fileLines file).foldlM (loadRatedeckLine core id) tries

/-- The attributes of a carrier; one that is missing is empty. -/
structure CarrierXml where
  name : List Char
  ratedeck : List Char
  interAreas : List Char
  gateways : List (List Char × List Char)

structure Config where
  settings : List (List Char × List Char)
  carriers : List CarrierXml

def loadParam (core : Core) (files : Files) (lcr : Lcr) (param : List Char × List Char) :
    Option Lcr :=
  let name := param.1
  let value := param.2
  if name = [] then
    none
  else if strcasecmp "max-routes".toList name then
    if core.switchIsNumber value ∧ 0 < atoi value then
      some (lcrSetMaxRoutes lcr (min (atoi value) maxRouteCount))
    else
      some lcr
  else if strcasecmp "areas".toList name then
    if value = [] then
      some lcr
    else
      (loadAreaFile core files lcr.areas value).map fun trie => { lcr with areas := trie }
  else if strcasecmp "areas-cid-strip".toList name then
    if core.switchIsNumber value ∧ 0 ≤ atoi value then
      some { lcr with areasCallerIdStrip := atoi value }
    else
      some lcr
  else if strcasecmp "areas-cid-prefix".toList name then
    if value = [] then some lcr else some { lcr with areasCallerIdPrefix := value }
  else if strcasecmp "areas-dest-strip".toList name then
    if core.switchIsNumber value ∧ 0 ≤ atoi value then
      some { lcr with areasDestStrip := atoi value }
    else
      some lcr
  else if strcasecmp "areas-dest-prefix".toList name then
    if value = [] then some lcr else some { lcr with areasDestPrefix := value }
  else
    some lcr

/-- The caller ID prefixes of a carrier.  A single one is not added: the condition is `> 1`. -/
def loadInterAreas (core : Core) (trie : RouteTrie) (id : RouteValue) (interAreas : List Char) :
    Option RouteTrie :=
  if interAreas = [] then
    some trie
  else
    let argv := core.switchSeparateString interAreas ',' maxInterAreas
    if 1 < argv.length then
      argv.foldlM (fun trie prefix' => addRoute trie ⟨prefix', 0, id, 0⟩) trie
    else
      some trie

/-- Whether all gateways of a carrier can be added. -/
def gatewaysAccepted (gateways : List (List Char × List Char)) : Bool :=
  decide (gateways.length ≤ maxGateways) && gateways.all fun g => g.1 ≠ [] || g.2 ≠ []

def loadCarrier (core : Core) (files : Files) (lcr : Lcr) (id : RouteValue) (carrier : CarrierXml) :
    Option Lcr :=
  if carrier.name = [] ∨ carrier.ratedeck = [] then
    none
  else
    (loadInterAreas core lcr.interAreas id carrier.interAreas).bind fun interAreas =>
      if gatewaysAccepted carrier.gateways then
        (loadRatedeckFile core files (lcr.interTrie, lcr.intraTrie) id carrier.ratedeck).map
          fun tries =>
            { lcr with interAreas := interAreas, interTrie := tries.1, intraTrie := tries.2 }
      else
        none

/-- The carriers behind the one with this ID. -/
def loadCarriers (core : Core) (files : Files) : Lcr → RouteValue → List CarrierXml → Option Lcr
  | lcr, _, [] => some lcr
  | lcr, carrierId, carrier :: carriers =>
    (loadCarrier core files lcr (carrierId + 1) carrier).bind fun lcr =>
      loadCarriers core files lcr (carrierId + 1) carriers

def loadConfig (core : Core) (files : Files) (cfg : Config) : Option Lcr :=
  if maxCarriers < cfg.carriers.length then
    none
  else
    (cfg.settings.foldlM (loadParam core files) (lcrCreate cfg.carriers.length)).bind fun lcr =>
      loadCarriers core files lcr 0 cfg.carriers

/-! ## Searching -/

/-- The area ID or -1. -/
def lcrFindArea (lcr : Lcr) (lookupNumber : List Char) : ℤ :=
  if lookupNumber = [] then
    -1
  else
    let result := routeTrieFind lcr.areas lookupNumber (routeArrayCreate 1)
    if result.2 = 0 then
      -1
    else
      match routeArrayGetRoute result.1 0 with
      | some route => route.value.val
      | none => -1

def lcrIsInterArea (lcr : Lcr) (callerId destNumber : List Char) : Bool :=
  if callerId = [] ∨ (callerId.length : ℤ) ≤ lcr.areasCallerIdStrip
      ∨ lcr.areasCallerIdStrip < 0 then
    false
  else if destNumber = [] ∨ (destNumber.length : ℤ) ≤ lcr.areasDestStrip
      ∨ lcr.areasDestStrip < 0 then
    false
  else
    let callerId := lcr.areasCallerIdPrefix ++ callerId.drop lcr.areasCallerIdStrip.toNat
    let destNumber := lcr.areasDestPrefix ++ destNumber.drop lcr.areasDestStrip.toNat
    let srcArea := lcrFindArea lcr callerId
    let destArea := lcrFindArea lcr destNumber
    decide (0 ≤ srcArea ∧ 0 ≤ destArea ∧ srcArea ≠ destArea)

/-- The branches of `lcr_find`. -/
inductive Routing where
  | interArea
  | allCarriersInter
  | intra
  | mixed (numInterCarriers : ℕ)
deriving DecidableEq, Repr

def lcrRouting (lcr : Lcr) (callerId destNumber : List Char) : Routing :=
  let numInterCarriers := routeTrieFindCount lcr.interAreas callerId
  if lcrIsInterArea lcr callerId destNumber then
    .interArea
  else if lcr.numCarriers ≤ numInterCarriers then
    .allCarriersInter
  else if numInterCarriers = 0 then
    .intra
  else
    .mixed numInterCarriers

/-- The carriers that `mixed` takes for inter. -/
def interCarriers (lcr : Lcr) (callerId : List Char) (numInterCarriers : ℕ) : RouteArray :=
  (routeTrieFind lcr.interAreas callerId (routeArrayCreate numInterCarriers)).1

/-- What the loops over `num_routes` results look at: nothing when the search answered 0. -/
def searchResults (trie : RouteTrie) (numCarriers : ℕ) (destNumber : List Char) : List Route :=
  let found := routeTrieFind trie destNumber (routeArrayCreate numCarriers)
  found.1.entries.take found.2

/-- Intra routes of carriers that are not inter, then inter routes of those that are. -/
def mixedRoutes (lcr : Lcr) (callerId destNumber : List Char) (numInterCarriers : ℕ) : List Route :=
  let carriers := interCarriers lcr callerId numInterCarriers
  let intraResults := searchResults lcr.intraTrie lcr.numCarriers destNumber
  let interResults := searchResults lcr.interTrie lcr.numCarriers destNumber
  (intraResults.filter fun r => r.type == 0 && !routeArrayContains carriers r.value)
    ++ interResults.filter fun r => r.type != 0 && routeArrayContains carriers r.value

def stripPlus : List Char → List Char
  | '+' :: number => number
  | number => number

def lcrFind (lcr : Lcr) (callerId destNumber : List Char) (results : RouteArray) :
    RouteArray × ℕ :=
  if destNumber = [] then
    (results, 0)
  else
    let destNumber := stripPlus destNumber
    let callerId := stripPlus callerId
    let results := match lcrRouting lcr callerId destNumber with
      | .interArea => (routeTrieFind lcr.interTrie destNumber results).1
      | .allCarriersInter => (routeTrieFind lcr.interTrie destNumber results).1
      | .intra => (routeTrieFind lcr.intraTrie destNumber results).1
      | .mixed numInterCarriers =>
        (mixedRoutes lcr callerId destNumber numInterCarriers).foldl routeArrayAdd results
    (results, routeArrayGetSize results)

end FreeswitchContrib.SimpleLcr
