import FreeswitchContrib.XmlOdbcSimple.Reloads

/-!
# The credentials of the queries

`do_config` splits a DSN into its parts with a function that is given its out-parameters by value:
the DSN is cut, and the pointers of the caller stay what they were.  What a query has from a DSN of
its own is in the document, which is freed in the end.

* `Globals`, `doConfig` — the settings and the queries, and what a call makes of them.
* `OwnCredentials` — a query is connected to with the parts of its DSN.
* `Unset` — no user and no password is ever set.
* **`own_credentials_iff`** — only a configuration without a query is right.
-/

namespace FreeswitchContrib.XmlOdbcSimple

open CString

/-! ## Queries with pointers -/

/-- Where a string of a query is. -/
inductive Pointer where
  | null
  /-- in the document of this call of `do_config` -/
  | inDocument (document : ℕ) (text : Text)
  /-- a copy that `strdup` made for the globals -/
  | copied (copy : ℕ) (text : Text)

/-- `query_t` -/
structure QueryObject where
  name : Pointer
  odbcDsn : Pointer
  odbcUser : Pointer
  odbcPass : Pointer
  value : Pointer

/-- `globals`, and what of the memory is not freed. -/
structure Globals where
  odbcDsn : Pointer
  odbcUser : Pointer
  odbcPass : Pointer
  queries : OrderedMap Text QueryObject
  /-- the calls of `do_config`, and whether the document of the last one is there -/
  documents : ℕ
  opened : Bool
  /-- the copies, of which the last one is there -/
  copies : ℕ

/-- When the module is loaded. -/
def Globals.zero : Globals := ⟨.null, .null, .null, .empty, 0, false, 0⟩

/-- What is read through a pointer: nothing where it is null or the memory was freed. -/
def Globals.read (globals : Globals) : Pointer → Option Text
  | .null => none
  | .inDocument document text =>
    if globals.opened ∧ document = globals.documents then some text else none
  | .copied copy text => if copy = globals.copies then some text else none

/-- `switch_cache_db_odbc_options_t` -/
structure Options where
  dsn : Pointer
  user : Pointer
  pass : Pointer

/-- `get_db_handle` up to the call of the core. -/
def getDbHandle (query : QueryObject) : Options := ⟨query.odbcDsn, query.odbcUser, query.odbcPass⟩

/-! ## The configuration -/

/-- What the core hands to `config_callback_dsn`. -/
structure Setting where
  newvalue : Text
  changed : Bool

/-- What a call of `do_config` meets. -/
structure Load where
  /-- none where the settings cannot be parsed -/
  setting : Option Setting
  /-- none where `switch_xml_open_cfg` fails -/
  document : Option Document
  /-- the entries of the hash as they are visited -/
  order : List Text
  /-- what is read as the name of the query with this key where that was freed -/
  garbage : Text → Text

/-- What `split_dsn_into_db_user_pass(db, user, pass)` leaves to its caller: the DSN is cut, and
`user` and `pass` of the caller are not those that are set. -/
def splitDsnIntoDbUserPass (db : Text) (user pass : Pointer) : Text × Pointer × Pointer :=
  (splitDsn db, user, pass)

/-- `config_callback_dsn` when a configuration is loaded or reloaded. -/
def configCallbackDsn (globals : Globals) (setting : Setting) : Globals :=
  if setting.changed = false ∨ setting.newvalue = [] then globals
  else
    let split := splitDsnIntoDbUserPass setting.newvalue globals.odbcUser globals.odbcPass
    let copy := globals.copies + 1
    { globals with
      odbcDsn := .copied copy split.1
      odbcUser := split.2.1
      odbcPass := split.2.2
      copies := copy }

/-- A query that is valid, with the DSN that it has or the one of the globals. -/
def Globals.query (globals : Globals) (x : XQuery) : QueryObject :=
  let text := Pointer.inDocument globals.documents
  let query : QueryObject := ⟨text (x.name.getD []), .null, .null, .null, text (x.value.getD [])⟩
  match x.odbcDsn with
  | some dsn =>
    let split := splitDsnIntoDbUserPass dsn query.odbcUser query.odbcPass
    { query with odbcDsn := text split.1, odbcUser := split.2.1, odbcPass := split.2.2 }
  | none =>
    { query with
      odbcDsn := globals.odbcDsn
      -- the password also where the user belongs
      odbcUser := globals.odbcPass
      odbcPass := globals.odbcPass }

/-- The loop over the queries of the document. -/
def Globals.loadQuery (globals : Globals) (x : XQuery) : Globals :=
  if x.Valid then
    { globals with queries := globals.queries.insert (x.name.getD []) (globals.query x) }
  else globals

/-- An entry of the hash is removed by its name if that is not in the document. -/
def Globals.removeUnnamed (document : Document) (garbage : Text → Text) (globals : Globals)
    (key : Text) : Globals :=
  match globals.queries.find? key with
  | none => globals
  | some query =>
    let name := (globals.read query.name).getD (garbage key)
    if document.hasQuery name then globals
    else { globals with queries := globals.queries.erase name }

/-- `do_config` -/
def doConfig (globals : Globals) (load : Load) : Globals :=
  match load.setting with
  | none => globals
  | some setting =>
    let globals := configCallbackDsn globals setting
    match load.document with
    | none => globals
    | some document =>
      let globals := { globals with documents := globals.documents + 1, opened := true }
      let globals := document.foldl Globals.loadQuery globals
      let globals := load.order.foldl (Globals.removeUnnamed document load.garbage) globals
      { globals with opened := false }

/-! ## The statement -/

/-- The parts of a DSN. -/
structure Credentials where
  db : Text
  user : Text
  pass : Text
  nonempty : db ≠ [] ∧ user ≠ [] ∧ pass ≠ []
  plain : ':' ∉ db ∧ ':' ∉ user

/-- `db:user:password` -/
def Credentials.text (c : Credentials) : Text := c.db ++ ':' :: (c.user ++ ':' :: c.pass)

/-- A query of the configuration file, whose DSN is of that form if it has one. -/
structure DirectoryQuery where
  name : Option Text
  credentials : Option Credentials
  value : Option Text

def DirectoryQuery.toXQuery (q : DirectoryQuery) : XQuery where
  name := q.name
  odbcDsn := q.credentials.map Credentials.text
  value := q.value

/-- A configuration file whose settings and queries have DSNs of that form. -/
structure Configuration where
  credentials : Credentials
  queries : List DirectoryQuery

/-- The call of `do_config` that reads this configuration. -/
def Configuration.load (c : Configuration) (changed : Bool) (order : List Text)
    (garbage : Text → Text) : Load where
  setting := some ⟨c.credentials.text, changed⟩
  document := some (c.queries.map DirectoryQuery.toXQuery)
  order := order
  garbage := garbage

/-- The last valid query with this name. -/
def Configuration.newest (c : Configuration) (name : Text) : Option DirectoryQuery :=
  (c.queries.filter fun q => q.toXQuery.Valid ∧ q.name = some name).getLast?

/-- The options are the parts of the DSN. -/
def Options.Are (globals : Globals) (options : Options) (c : Credentials) : Prop :=
  globals.read options.dsn = some c.db ∧ globals.read options.user = some c.user ∧
    globals.read options.pass = some c.pass

/-- Every query is connected to with the parts of its own DSN, or of the global one. -/
def OwnCredentials (c : Configuration) (globals : Globals) : Prop :=
  ∀ name q, c.newest name = some q → ∃ query, globals.queries.find? name = some query ∧
    (getDbHandle query).Are globals (q.credentials.getD c.credentials)

/-! ## Users and passwords -/

variable {globals : Globals}

def QueryObject.Unset (query : QueryObject) : Prop := query.odbcUser = .null ∧ query.odbcPass = .null

/-- No user and no password is set. -/
structure Globals.Unset (globals : Globals) : Prop where
  user : globals.odbcUser = .null
  pass : globals.odbcPass = .null
  queries : ∀ name query, globals.queries.find? name = some query → query.Unset

lemma unset_zero : Globals.zero.Unset := ⟨rfl, rfl, fun _ _ h => nomatch h⟩

namespace Globals.Unset

lemma configCallbackDsn (h : globals.Unset) (setting : Setting) :
    (configCallbackDsn globals setting).Unset := by
  rw [XmlOdbcSimple.configCallbackDsn]
  split_ifs
  · exact h
  · exact ⟨h.user, h.pass, h.queries⟩

/-- With a DSN of its own a query keeps what was allocated, and without it has what the globals
have. -/
lemma query (h : globals.Unset) (x : XQuery) : (globals.query x).Unset := by
  rw [Globals.query]
  cases x.odbcDsn with
  | some dsn => exact ⟨rfl, rfl⟩
  | none => exact ⟨h.pass, h.pass⟩

lemma loadQuery (h : globals.Unset) (x : XQuery) : (globals.loadQuery x).Unset := by
  rw [Globals.loadQuery]
  split_ifs
  · refine ⟨h.user, h.pass, fun name query hfind => ?_⟩
    rw [OrderedMap.find?_insert] at hfind
    split_ifs at hfind
    · cases hfind
      exact h.query x
    · exact h.queries name query hfind
  · exact h

lemma removeUnnamed (h : globals.Unset) (document : Document) (garbage : Text → Text)
    (key : Text) : (globals.removeUnnamed document garbage key).Unset := by
  rw [Globals.removeUnnamed]
  cases globals.queries.find? key with
  | none => exact h
  | some query =>
    dsimp only
    split_ifs
    · exact h
    · refine ⟨h.user, h.pass, fun name query hfind => ?_⟩
      dsimp only at hfind
      rw [OrderedMap.find?_erase] at hfind
      split_ifs at hfind
      exact h.queries name query hfind

lemma doConfig (h : globals.Unset) (load : Load) : (doConfig globals load).Unset := by
  rw [XmlOdbcSimple.doConfig]
  cases load.setting with
  | none => exact h
  | some setting =>
    have hset := h.configCallbackDsn setting
    cases load.document with
    | none => exact hset
    | some document =>
      have hopened : Globals.Unset { XmlOdbcSimple.configCallbackDsn globals setting with
          documents := (XmlOdbcSimple.configCallbackDsn globals setting).documents + 1
          opened := true } := ⟨hset.user, hset.pass, hset.queries⟩
      have hloaded := List.foldlRecOn document Globals.loadQuery hopened
        fun _ h x _ => h.loadQuery x
      have hremoved := List.foldlRecOn load.order (Globals.removeUnnamed document load.garbage)
        hloaded fun _ h key _ => h.removeUnnamed document load.garbage key
      exact ⟨hremoved.user, hremoved.pass, hremoved.queries⟩

/-- Whatever was loaded before. -/
lemma run (h : globals.Unset) (loads : List Load) :
    (loads.foldl XmlOdbcSimple.doConfig globals).Unset :=
  List.foldlRecOn loads XmlOdbcSimple.doConfig h fun _ h load _ => h.doConfig load

end Globals.Unset

/-- Without a user no options are right. -/
lemma not_are {options : Options} (h : options.user = .null) (c : Credentials) :
    ¬ options.Are globals c := by
  rintro ⟨-, huser, -⟩
  rw [h] at huser
  cases huser

/-- **The queries have their own credentials exactly where there is no query** that `do_config`
keeps, whatever was loaded before. -/
theorem own_credentials_iff (loads : List Load) (c : Configuration) (changed : Bool)
    (order : List Text) (garbage : Text → Text) :
    OwnCredentials c (doConfig (loads.foldl doConfig .zero) (c.load changed order garbage)) ↔
      ∀ q ∈ c.queries, ¬ q.toXQuery.Valid := by
  have hunset := (unset_zero.run loads).doConfig (c.load changed order garbage)
  constructor
  · intro hown q hq hvalid
    have hname : ∃ name, q.name = some name := by
      cases hname : q.name with
      | none => exact absurd (congrArg (·.getD []) hname) hvalid.1
      | some name => exact ⟨name, rfl⟩
    obtain ⟨name, hname⟩ := hname
    have hmem : q ∈ c.queries.filter fun q => q.toXQuery.Valid ∧ q.name = some name :=
      List.mem_filter.mpr ⟨hq, decide_eq_true ⟨hvalid, hname⟩⟩
    have hnewest := List.getLast?_eq_some_getLast (List.ne_nil_of_mem hmem)
    obtain ⟨query, hfind, hare⟩ := hown name _ hnewest
    exact not_are (hunset.queries name query hfind).1 _ hare
  · intro hnone name q hnewest
    have hmem := List.mem_filter.mp (List.mem_of_getLast? hnewest)
    exact absurd (of_decide_eq_true hmem.2).1 (hnone q hmem.1)

/-- The DSN that the module has as its default. -/
def defaultCredentials : Credentials where
  db := "db".toList
  user := "user".toList
  pass := "password".toList
  nonempty := by decide
  plain := by decide

/-- A query without a DSN gets no user. -/
theorem query_without_user :
    ¬ OwnCredentials ⟨defaultCredentials, [⟨some "default".toList, none, some "select".toList⟩]⟩
      (doConfig .zero (Configuration.load
        ⟨defaultCredentials, [⟨some "default".toList, none, some "select".toList⟩]⟩ true
        ["default".toList] id)) := by
  intro h
  obtain ⟨query, hfind, hare⟩ := h "default".toList _ rfl
  cases hfind
  exact not_are rfl _ hare

end FreeswitchContrib.XmlOdbcSimple
