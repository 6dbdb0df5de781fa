import FreeswitchContrib.Library.Interleaving
import FreeswitchContrib.SimpleLcr.CarrierRoutingExact
import FreeswitchContrib.SimpleLcr.Dialstrings

/-!
# Loading, reloading and looking up

`globals.lcr` from the module load on: `load_config` swaps in what it has built, or destroys it and
reports a failure; `mod_simple_lcr_load` does not look at its status.  A lookup, by the dialplan or
the API, dereferences the pointer without a test.

The answer of a lookup is the application that the dialplan adds, or the table that the API prints;
only the layout of the table, with its floating point costs, is not modelled.
-/

namespace FreeswitchContrib.SimpleLcr

open Interleaving

/-- The database that `globals.lcr` points to.  The carrier with ID `i` is at `i - 1`. -/
structure Database where
  lcr : Lcr
  carriers : List Carrier

/-- `load_config` up to the swap; `none` for a configuration that cannot be opened. -/
def loadDatabase (core : Core) (files : Files) (cfg : Option Config) : Option Database :=
  cfg.bind fun cfg =>
    (loadConfig core files cfg).map fun lcr => ⟨lcr, cfg.carriers.map carrierCreate⟩

/-- `load_config`: the status, and what `globals.lcr` is afterwards. -/
def loadConfigCommand (core : Core) (files : Files) (cfg : Option Config) (lcr : Option Database) :
    Bool × Option Database :=
  match loadDatabase core files cfg with
  | some newLcr => (true, some newLcr)
  | none => (false, lcr)

/-- `mod_simple_lcr_load`: whether it reports success, and `globals.lcr`. -/
def modSimpleLcrLoad (core : Core) (files : Files) (cfg : Option Config)
    (mutexInit eventBind : Bool) : Bool × Option Database :=
  if mutexInit then
    let loaded := loadConfigCommand core files cfg none
    if eventBind then (true, loaded.2) else (false, loaded.2)
  else
    (false, none)

/-- The entry points.  `routes_str` is on the stack of the dialplan, with what was there before. -/
inductive Lookup where
  | dialplan (callerIdNumber destinationNumber : List Char) (stack : Fin 1024 → Char)
  | api (callerId destArg : List Char) (csv : Bool)

/-- A line of the table. -/
structure TableRow where
  carrier : List Char
  inter : Bool
  cost : RouteCost
  dialstring : List Char
  deriving DecidableEq

inductive Answer where
  /-- the application `redirect`, to these dial strings -/
  | redirect (routesStr : List Char)
  /-- the dial strings do not fit, and there is no extension -/
  | noExtension
  /-- the application `respond`, with `404 No route found` -/
  | respond
  /-- `No Match!` -/
  | noMatch
  | table (csv : Bool) (rows : List TableRow)
  deriving DecidableEq

/-- `routes_str`, with its NUL at the end. -/
def routesStr (stack : Fin 1024 → Char) : List Char := (List.ofFn stack).set 1023 '\x00'

/-- The rows of a route, one for each gateway of its carrier. -/
def tableRows (carriers : List Carrier) (destArg : List Char) (route : Route) : List TableRow :=
  let carrier := carriers.getD (route.value.val - 1) ⟨[], [], 0⟩
  carrier.gateway.map fun gateway =>
    let dialstring := (gatewayGetDialstring gateway (List.replicate 256 '\x00') 0 255 destArg).2
    ⟨carrier.name, route.type != 0, route.cost, dialstring.take (strlen dialstring 0)⟩

/-- A lookup in the database that `lcr_rdlock` returned.  The dialplan strips a leading plus itself,
and so does `lcr_find`. -/
def lookUp (db : Database) : Lookup → Answer × Database
  | .dialplan callerIdNumber destinationNumber stack =>
    let results := routeArrayCreate db.lcr.maxRoutes
    let found := lcrFind db.lcr (stripPlus callerIdNumber) (stripPlus destinationNumber) results
    match found.1.entries with
    | [] => (.respond, db)
    | route :: routes =>
      let list := buildDialstringList (routesStr stack) 1023 ',' db.carriers route routes
        destinationNumber
      (if list.success then .redirect (list.buf.take (strlen list.buf 0)) else .noExtension,
        { db with carriers := list.carriers })
  | .api callerId destArg csv =>
    let results := routeArrayCreate db.lcr.numCarriers
    let found := lcrFind db.lcr callerId destArg results
    match found.1.entries with
    | [] => (.noMatch, db)
    | routes => (.table csv (routes.flatMap (tableRows db.carriers destArg)), db)

inductive Operation where
  | reload (files : Files) (cfg : Option Config)
  | lookup (lookup : Lookup)

/-- `globals.lcr`, and the answers of the lookups so far. -/
structure Service where
  lcr : Option Database
  answers : List Answer

/-- One operation; `none` when it dereferences NULL. -/
def operate (core : Core) (s : Service) : Operation → Option Service
  | .reload files cfg => some { s with lcr := (loadConfigCommand core files cfg s.lcr).2 }
  | .lookup lookup => s.lcr.map fun db =>
    ⟨some (lookUp db lookup).2, s.answers ++ [(lookUp db lookup).1]⟩

/-! ## No lookup without a database -/

/-- The operations that load a database. -/
def Operation.Loads (core : Core) : Operation → Prop
  | .reload files cfg => (loadDatabase core files cfg).isSome = true
  | .lookup _ => False

variable {core : Core} {files : Files} {cfg : Option Config} {s s' : Service} {op : Operation}
  {ops : List Operation} {lookup : Lookup}

lemma operate_reload (hload : loadDatabase core files cfg = none) :
    operate core s (.reload files cfg) = some s := by
  rw [operate, loadConfigCommand, hload]

/-- An operation leaves a database when there was one or it loads one. -/
lemma operate_isSome (h : operate core s op = some s') :
    s'.lcr.isSome = true ↔ s.lcr.isSome = true ∨ op.Loads core := by
  cases op with
  | reload files cfg =>
    obtain rfl := Option.some.inj h
    simp only [loadConfigCommand, Operation.Loads]
    cases loadDatabase core files cfg <;> simp
  | lookup lookup =>
    obtain ⟨db, hdb, rfl⟩ := Option.map_eq_some_iff.mp h
    simp [hdb, Operation.Loads]

/-- Each lookup comes after a database was loaded, before these operations or by one of them. -/
def LoadedFirst (core : Core) (loaded : Prop) (ops : List Operation) : Prop :=
  ∀ earlier lookup later, ops = earlier ++ .lookup lookup :: later →
    loaded ∨ ∃ op ∈ earlier, op.Loads core

lemma loadedFirst_cons {loaded : Prop} : LoadedFirst core loaded (op :: ops) ↔
    ((∃ lookup, op = .lookup lookup) → loaded) ∧ LoadedFirst core (loaded ∨ op.Loads core) ops := by
  constructor
  · intro h
    refine ⟨?_, fun earlier lookup later heq => ?_⟩
    · rintro ⟨lookup, rfl⟩
      exact (h [] lookup ops rfl).resolve_right (by simp)
    · have := h (op :: earlier) lookup later (by rw [heq, List.cons_append])
      rwa [List.exists_mem_cons_iff, ← or_assoc] at this
  · rintro ⟨hfirst, hrest⟩ earlier lookup later heq
    cases earlier with
    | nil => exact Or.inl (hfirst ⟨lookup, (List.cons.inj heq).1⟩)
    | cons op' earlier =>
      obtain ⟨rfl, hops⟩ := List.cons.inj heq
      have := hrest earlier lookup later hops
      rwa [List.exists_mem_cons_iff, ← or_assoc]

/-- No lookup dereferences NULL exactly when each comes after a database was loaded. -/
lemma run_ne_none_iff : ∀ (ops : List Operation) (s : Service),
    run (operate core) s ops ≠ none ↔ LoadedFirst core (s.lcr.isSome = true) ops
  | [], s => by simp [LoadedFirst]
  | op :: ops, s => by
    rw [loadedFirst_cons, run]
    cases hop : operate core s op with
    | none =>
      -- only a lookup can fail, and only without a database
      cases op with
      | reload files cfg => simp [operate] at hop
      | lookup lookup =>
        rw [operate, Option.map_eq_none_iff] at hop
        simp [hop]
    | some s₁ =>
      have hlookup : (∃ lookup, op = .lookup lookup) → s.lcr.isSome = true := by
        rintro ⟨lookup, rfl⟩
        obtain ⟨db, hdb, -⟩ := Option.map_eq_some_iff.mp hop
        simp [hdb]
      rw [Option.bind_some, run_ne_none_iff ops s₁]
      simp only [operate_isSome hop]
      exact ⟨fun h => ⟨hlookup, h⟩, fun h => h.2⟩

/-- A reload that fails changes nothing. -/
lemma run_failed_reload (hload : loadDatabase core files cfg = none)
    (earlier later : List Operation) (s : Service) :
    run (operate core) s (earlier ++ .reload files cfg :: later)
      = run (operate core) s (earlier ++ later) := by
  rw [run_append, run_append]
  congr 1
  funext s₁
  rw [run, operate_reload hload, Option.bind_some]

/-- **Lookups always have a database**, and a reload that fails leaves their answers as they are,
after a module load that reports success: exactly when each lookup comes after a configuration was
loaded, by the module load or by a reload. -/
theorem lookups_have_database_iff {mutexInit eventBind : Bool}
    (h : (modSimpleLcrLoad core files cfg mutexInit eventBind).1 = true) (ops : List Operation) :
    let s : Service := ⟨(modSimpleLcrLoad core files cfg mutexInit eventBind).2, []⟩
    (run (operate core) s ops ≠ none ∧
      ∀ earlier files' cfg' later, ops = earlier ++ .reload files' cfg' :: later →
        loadDatabase core files' cfg' = none →
          run (operate core) s ops = run (operate core) s (earlier ++ later)) ↔
      LoadedFirst core ((loadDatabase core files cfg).isSome = true) ops := by
  intro s
  have hlcr : s.lcr = loadDatabase core files cfg := by
    simp only [s, modSimpleLcrLoad] at h ⊢
    split_ifs at h ⊢
    rw [loadConfigCommand]
    cases loadDatabase core files cfg <;> rfl
  rw [← hlcr, ← run_ne_none_iff]
  refine ⟨And.left, fun hrun => ⟨hrun, ?_⟩⟩
  rintro earlier files' cfg' later rfl hload
  exact run_failed_reload hload earlier later s

/-- A module load that succeeds, a lookup, a reload that fails and a lookup. -/
theorem lookups_have_database_iff_nested :
    let s : Service := ⟨(modSimpleLcrLoad plainCore ratesFiles nestedConfig true true).2, []⟩
    let ops := [.lookup (.api "912".toList ['5'] true), .reload ratesFiles none,
      .lookup (.dialplan "912".toList ['5'] fun _ => '\x00')]
    (run (operate plainCore) s ops ≠ none ∧
      ∀ earlier files' cfg' later, ops = earlier ++ .reload files' cfg' :: later →
        loadDatabase plainCore files' cfg' = none →
          run (operate plainCore) s ops = run (operate plainCore) s (earlier ++ later)) ↔
      LoadedFirst plainCore ((loadDatabase plainCore ratesFiles nestedConfig).isSome = true) ops :=
  lookups_have_database_iff rfl _

/-- The configuration cannot be opened, and the module load reports success. -/
theorem not_lookups_have_database : ¬∀ (core : Core) (files : Files) (cfg : Option Config)
    (mutexInit eventBind : Bool) (ops : List Operation),
    (modSimpleLcrLoad core files cfg mutexInit eventBind).1 = true →
      run (operate core) ⟨(modSimpleLcrLoad core files cfg mutexInit eventBind).2, []⟩ ops ≠
        none := by
  intro h
  exact h plainCore ratesFiles none true true [.lookup (.api "912".toList ['5'] true)] rfl rfl

end FreeswitchContrib.SimpleLcr
