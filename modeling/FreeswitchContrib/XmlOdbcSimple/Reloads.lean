import FreeswitchContrib.Library.CString
import FreeswitchContrib.Library.Exclusion
import FreeswitchContrib.Library.Interleaving
import FreeswitchContrib.Library.OrderedMap
import Mathlib.Data.Char
import Mathlib.Data.List.Induction
import Mathlib.Data.List.Lex

/-!
# Directory searches and reloads of `mod_xml_odbc_simple`

`do_config` and the use of a query in `xml_odbc_simple_search` step by step, for any number of
searches.  The reloads come one after the other, each with a document of its own, which
`switch_xml_free` frees at the end of `do_config`.  The strings of a query are in the document that
it was read from.

* `Survives` — no search has read what was freed, and the hash has what the newest document says.
* `Careful` — what a search, and a reload that frees something, would have to look at.
* **`lookups_survive_reloads`** — with such steps it comes to that.
-/

namespace FreeswitchContrib.XmlOdbcSimple

open CString Exclusion Interleaving

abbrev Text := List Char

/-! ## The queries -/

/-- A `<query>` of the configuration file, with the attributes that it has. -/
structure XQuery where
  name : Option Text
  odbcDsn : Option Text
  value : Option Text
  deriving DecidableEq

/-- `query_t`; without a DSN of its own it has that of the settings. -/
structure Query where
  /-- the document that the strings are in -/
  document : ℕ
  name : Text
  odbcDsn : Option Text
  value : Text
  freed : Bool
  deriving DecidableEq

/-- The queries of a configuration file; none where there is no such section. -/
abbrev Document := List XQuery

/-- A document in memory. -/
structure Loaded where
  content : Document
  released : Bool

/-- `split_dsn_into_db_user_pass` ends the DSN in its place. -/
def splitDsn (dsn : Text) : Text := dsn.takeWhile (· ≠ ':')

/-- The query object of a `<query>`. -/
def XQuery.query (x : XQuery) (document : ℕ) : Query where
  document := document
  name := x.name.getD []
  odbcDsn := x.odbcDsn.map splitDsn
  value := x.value.getD []
  freed := false

def XQuery.Valid (x : XQuery) : Prop := x.name.getD [] ≠ [] ∧ x.value.getD [] ≠ []

instance (x : XQuery) : Decidable x.Valid :=
  inferInstanceAs (Decidable (x.name.getD [] ≠ [] ∧ x.value.getD [] ≠ []))

/-- `switch_xml_find_child(x_queries, "query", "name", name)` -/
def Document.hasQuery (document : Document) (name : Text) : Bool :=
  document.any fun x => x.name.any (strcasecmp · name)

/-! ## Searches and reloads -/

/-- Where a search is. -/
inductive Search where
  /-- before `switch_core_hash_find` -/
  | searching (purpose : Text)
  /-- it has the query, before `query->value` is expanded -/
  | holding (query : ℕ)
  /-- before `get_db_handle` -/
  | connecting (query : ℕ)
  | done
  deriving DecidableEq

/-- Where `do_config` is. -/
inductive Config where
  | idle
  /-- with these `<query>` tags left -/
  | loading (document : ℕ) (left : List XQuery)
  /-- the query that had the name was freed, before `switch_core_hash_insert` -/
  | inserting (document query : ℕ) (left : List XQuery)
  /-- with these entries of the hash left -/
  | removing (document : ℕ) (left : List Text)

def Config.document : Config → Option ℕ
  | idle => none
  | loading d _ | inserting d _ _ | removing d _ => some d

/-- What a search has read. -/
inductive Fault where
  | freedQuery (query : ℕ)
  | releasedString (query : ℕ)
  deriving DecidableEq

structure State where
  documents : List Loaded
  /-- the query objects, in the order in which they were allocated -/
  queries : List Query
  /-- `globals.queries` -/
  hash : OrderedMap Text ℕ
  config : Config
  searches : List Search
  faults : List Fault
  /-- the document of the last `do_config` that succeeded -/
  newest : Option Document

def State.init : State := ⟨[], [], .empty, .idle, [], [], none⟩

/-- A header of an event. -/
abbrev Header := Text × Text

inductive Action where
  | arrive (headers : List Header)
  | lookup (i : ℕ)
  | expand (i : ℕ)
  | connect (i : ℕ)
  /-- `do_config` begins; without a document it fails -/
  | begin (document : Option Document)
  | loadQuery
  | insert
  /-- the entries of the hash are visited in this order -/
  | startRemoving (order : List Text)
  /-- with what is read as the name of the query where that was freed -/
  | removeNext (garbage : Text)
  | finish

/-- The value of the last header of this name. -/
def headerValue (headers : List Header) (name : Text) : Option Text :=
  (headers.reverse.find? (·.1 == name)).map (·.2)

namespace State

def released (s : State) (document : ℕ) : Bool := (s.documents[document]?).all (·.released)

/-- The search goes on. -/
def goto (s : State) (i : ℕ) (search : Search) : State :=
  { s with searches := s.searches.set i search }

def fault (s : State) (f : Fault) : State := { s with faults := s.faults ++ [f] }

/-- `free(query)` -/
def free (s : State) (q : ℕ) : State :=
  { s with queries := s.queries.modify q fun query => { query with freed := true } }

/-- `xml_odbc_simple_search` up to the lookup of the query. -/
def arrive (s : State) (headers : List Header) : State :=
  let search := match headerValue headers "domain".toList with
    | some _ => .searching ((headerValue headers "purpose".toList).getD "default".toList)
    | none => .done
  { s with searches := s.searches ++ [search] }

def lookup (s : State) (i : ℕ) (purpose : Text) : State :=
  match s.hash.find? purpose with
  | some q => s.goto i (.holding q)
  | none => s.goto i .done

/-- `query->value` is read and expanded. -/
def expand (s : State) (i q : ℕ) (query : Query) : State :=
  if query.freed then (s.fault (.freedQuery q)).goto i .done
  else if s.released query.document then (s.fault (.releasedString q)).goto i (.connecting q)
  else s.goto i (.connecting q)

/-- `get_db_handle` reads `query->odbc_dsn`. -/
def connect (s : State) (i q : ℕ) (query : Query) : State :=
  if query.freed then (s.fault (.freedQuery q)).goto i .done
  else if query.odbcDsn.isSome ∧ s.released query.document then
    (s.fault (.releasedString q)).goto i .done
  else s.goto i .done

/-- `do_config` up to the loop over the queries. -/
def begin (s : State) : Option Document → State
  | none => s
  | some content =>
    { s with
      documents := s.documents ++ [⟨content, false⟩]
      config := .loading s.documents.length content }

/-- A query is allocated; where it is valid the one with its name is freed. -/
def loadQuery (s : State) (document : ℕ) (x : XQuery) (left : List XQuery) : State :=
  let query := x.query document
  if x.Valid then
    let s := { s with
      queries := s.queries ++ [query]
      config := .inserting document s.queries.length left }
    match s.hash.find? query.name with
    | some old => s.free old
    | none => s
  else
    { s with
      queries := s.queries ++ [{ query with freed := true }]
      config := .loading document left }

def insert (s : State) (document q : ℕ) (query : Query) (left : List XQuery) : State :=
  { s with
    hash := s.hash.insert query.name q
    config := .loading document left }

/-- What is read as the name of a query. -/
def readName (s : State) (query : Query) (garbage : Text) : Text :=
  if query.freed ∨ s.released query.document then garbage else query.name

/-- An entry is removed when its name is not in the document. -/
def removeNext (s : State) (document : ℕ) (content : Document) (key : Text) (left : List Text)
    (garbage : Text) : State :=
  let s := { s with config := .removing document left }
  match s.hash.find? key with
  | none => s
  | some q =>
    match s.queries[q]? with
    | none => s
    | some query =>
      let name := s.readName query garbage
      if content.hasQuery name then s else { s with hash := s.hash.erase name }.free q

/-- The document is freed, and `do_config` returns. -/
def finish (s : State) (document : ℕ) (content : Document) : State :=
  { s with
    documents := s.documents.set document ⟨content, true⟩
    config := .idle
    newest := some content }

end State

/-- One step. -/
def next (s : State) : Action → Option State
  | .arrive headers => some (s.arrive headers)
  | .lookup i =>
    match s.searches[i]? with
    | some (.searching purpose) => some (s.lookup i purpose)
    | _ => none
  | .expand i =>
    match s.searches[i]? with
    | some (.holding q) => (s.queries[q]?).map (s.expand i q)
    | _ => none
  | .connect i =>
    match s.searches[i]? with
    | some (.connecting q) => (s.queries[q]?).map (s.connect i q)
    | _ => none
  | .begin document =>
    match s.config with
    | .idle => some (s.begin document)
    | _ => none
  | .loadQuery =>
    match s.config with
    | .loading d (x :: left) => some (s.loadQuery d x left)
    | _ => none
  | .insert =>
    match s.config with
    | .inserting d q left => (s.queries[q]?).map fun query => s.insert d q query left
    | _ => none
  | .startRemoving order =>
    match s.config with
    | .loading d [] =>
      if order.Perm (s.hash.entries.map (·.1)) then some { s with config := .removing d order }
      else none
    | _ => none
  | .removeNext garbage =>
    match s.config with
    | .removing d (key :: left) =>
      (s.documents[d]?).map fun document => s.removeNext d document.content key left garbage
    | _ => none
  | .finish =>
    match s.config with
    | .removing d [] => (s.documents[d]?).map fun document => s.finish d document.content
    | _ => none

/-! ## The statement -/

/-- The value of the last valid query with this name. -/
def newestValue (document : Document) (name : Text) : Option Text :=
  ((document.filter fun x => x.Valid ∧ x.name = some name).getLast?).bind (·.value)

/-- The value of a query object. -/
def State.value (s : State) (q : ℕ) : Option Text :=
  (s.queries[q]?).bind fun query => if query.freed then none else some query.value

/-- No search has read a query or a string that was freed, and after a `do_config` that succeeded
the hash has exactly the names of the valid queries of its document, with their newest values. -/
structure Survives (s : State) : Prop where
  reads : s.faults = []
  exact : s.config.document = none → ∀ document ∈ s.newest, ∀ name,
    (s.hash.find? name).map s.value = (newestValue document name).map some

/-- A search still has to read this query. -/
def Search.uses (q : ℕ) : Search → Bool
  | .holding q' | .connecting q' => q' = q
  | _ => false

/-- A search still has to read a string of this document. -/
def State.reads (s : State) (d : ℕ) : Search → Bool
  | .holding q => (s.queries[q]?).any (·.document = d)
  | .connecting q => (s.queries[q]?).any fun query => query.document = d ∧ query.odbcDsn.isSome
  | _ => false

/-- A lookup finds no query that was freed, and none of a document that was. -/
def State.MayLookup (s : State) : Search → Prop
  | .searching purpose => ∀ q ∈ s.hash.find? purpose, ∀ query ∈ s.queries[q]?,
      query.freed = false ∧ s.released query.document = false
  | _ => True

/-- No search has to read the query that is replaced. -/
def State.MayLoad (s : State) : Config → Prop
  | .loading _ (x :: _) => x.Valid → ∀ q ∈ s.hash.find? (x.name.getD []),
      ∀ search ∈ s.searches, search.uses q = false
  | _ => True

/-- A search finds no query that was freed, and none of a document that was; a query is replaced, and
a document freed, when no search has to read it any more; and a new document has a valid query for
every name in the hash. -/
def Careful (s : State) : Action → Prop
  | .lookup i => ∀ search ∈ s.searches[i]?, s.MayLookup search
  | .begin document => ∀ content ∈ document, ∀ e ∈ s.hash.entries,
    (newestValue content e.1).isSome
  | .loadQuery => s.MayLoad s.config
  | .finish => ∀ d ∈ s.config.document, ∀ search ∈ s.searches, s.reads d search = false
  | _ => True

instance (s : State) : (search : Search) → Decidable (s.MayLookup search)
  | .searching purpose => inferInstanceAs (Decidable (∀ q ∈ s.hash.find? purpose,
      ∀ query ∈ s.queries[q]?, query.freed = false ∧ s.released query.document = false))
  | .holding _ | .connecting _ | .done => .isTrue trivial

instance (s : State) : (config : Config) → Decidable (s.MayLoad config)
  | .loading _ (x :: _) => inferInstanceAs (Decidable (x.Valid → ∀ q ∈ s.hash.find?
      (x.name.getD []), ∀ search ∈ s.searches, search.uses q = false))
  | .loading _ [] | .idle | .inserting _ _ _ | .removing _ _ => .isTrue trivial

instance (s : State) : (action : Action) → Decidable (Careful s action)
  | .lookup i => inferInstanceAs (Decidable (∀ search ∈ s.searches[i]?, s.MayLookup search))
  | .begin document => inferInstanceAs (Decidable (∀ content ∈ document, ∀ e ∈ s.hash.entries,
      (newestValue content e.1).isSome))
  | .loadQuery => inferInstanceAs (Decidable (s.MayLoad s.config))
  | .finish => inferInstanceAs (Decidable (∀ d ∈ s.config.document, ∀ search ∈ s.searches,
      s.reads d search = false))
  | .arrive _ | .expand _ | .connect _ | .insert | .startRemoving _ | .removeNext _ =>
    .isTrue trivial

/-! ## Documents and their queries -/

section

variable {s s' : State} {content done left : Document} {x : XQuery} {d q : ℕ} {name v : Text}
  {search : Search}

lemma newestValue_invalid (hx : ¬ x.Valid) (done : Document) (name : Text) :
    newestValue (done ++ [x]) name = newestValue done name := by
  have hnot : [x].filter (fun x => x.Valid ∧ x.name = some name) = [] :=
    List.filter_eq_nil_iff.mpr fun y hy h => by
      cases List.mem_singleton.mp hy
      exact hx (of_decide_eq_true h).1
  rw [newestValue, List.filter_append, hnot, List.append_nil, newestValue]

/-- The last valid query counts. -/
lemma newestValue_valid (hx : x.Valid) (done : Document) (name : Text) :
    newestValue (done ++ [x]) name =
      if name = x.name.getD [] then some (x.value.getD []) else newestValue done name := by
  obtain ⟨xname, dsn, xvalue⟩ := x
  cases xname with
  | none => exact absurd rfl hx.1
  | some xname =>
    cases xvalue with
    | none => exact absurd rfl hx.2
    | some xvalue =>
      rw [newestValue, List.filter_append]
      by_cases hname : name = xname
      · subst hname
        have hmem : [(⟨some name, dsn, some xvalue⟩ : XQuery)].filter
            (fun x => x.Valid ∧ x.name = some name) = [⟨some name, dsn, some xvalue⟩] :=
          List.filter_eq_self.mpr fun y hy => by
            cases List.mem_singleton.mp hy
            exact decide_eq_true ⟨hx, rfl⟩
        rw [hmem, List.getLast?_concat, Option.getD_some, if_pos rfl]
        rfl
      · have hnot : [(⟨some xname, dsn, some xvalue⟩ : XQuery)].filter
            (fun x => x.Valid ∧ x.name = some name) = [] :=
          List.filter_eq_nil_iff.mpr fun y hy h => by
            cases List.mem_singleton.mp hy
            exact hname (Option.some.inj (of_decide_eq_true h).2).symm
        rw [hnot, List.append_nil, Option.getD_some, if_neg hname, newestValue]

/-- A name with a value is found in the document. -/
lemma hasQuery_of_newestValue (h : (newestValue content name).isSome) :
    content.hasQuery name = true := by
  obtain ⟨v, hv⟩ := Option.isSome_iff_exists.mp h
  obtain ⟨x, hx, -⟩ := Option.bind_eq_some_iff.mp hv
  obtain ⟨hmem, hcond⟩ := List.mem_filter.mp (List.mem_of_getLast? hx)
  have hname := (of_decide_eq_true hcond).2
  refine List.any_eq_true.mpr ⟨x, hmem, ?_⟩
  rw [hname]
  exact beq_self_eq_true _

lemma newestValue_isSome (hx : x.Valid) (hmem : x ∈ content) :
    (newestValue content (x.name.getD [])).isSome := by
  obtain ⟨before, after, rfl⟩ := List.append_of_mem hmem
  have hvalid : ∀ after : Document, (newestValue (before ++ x :: after) (x.name.getD [])).isSome := by
    intro after
    induction after using List.reverseRecOn with
    | nil => rw [newestValue_valid hx, if_pos rfl, Option.isSome_some]
    | append_singleton after y ih =>
      rw [← List.cons_append, ← List.append_assoc]
      by_cases hy : y.Valid
      · rw [newestValue_valid hy]
        split_ifs
        · rfl
        · exact ih
      · rw [newestValue_invalid hy]
        exact ih
  exact hvalid after

/-! ## What holds between the steps -/

/-- What a search is going to read is there. -/
def SearchOk (s : State) : Search → Prop
  | .holding q => ∃ query, s.queries[q]? = some query ∧ query.freed = false ∧
      s.released query.document = false
  | .connecting q => ∃ query, s.queries[q]? = some query ∧ query.freed = false ∧
      (query.odbcDsn.isSome → s.released query.document = false)
  | _ => True

/-- The hash has a query of this document with this name and value. -/
def Current (s : State) (d : ℕ) (name v : Text) : Prop :=
  ∃ q query, s.hash.find? name = some q ∧ s.queries[q]? = some query ∧ query.document = d ∧
    query.name = name ∧ query.value = v ∧ query.freed = false

/-- The hash has no name that the document does not have. -/
def NamesIn (s : State) (content : Document) : Prop :=
  ∀ name q, s.hash.find? name = some q → (newestValue content name).isSome

def ConfigInv (s : State) : Config → Prop
  | .idle => ∀ content ∈ s.newest, ∀ name,
      (s.hash.find? name).map s.value = (newestValue content name).map some
  | .loading d left => ∃ done, s.documents[d]? = some ⟨done ++ left, false⟩ ∧
      (∀ name v, newestValue done name = some v → Current s d name v) ∧ NamesIn s (done ++ left)
  | .inserting d q left => ∃ done x, s.documents[d]? = some ⟨done ++ x :: left, false⟩ ∧
      x.Valid ∧ s.queries[q]? = some (x.query d) ∧
      (∀ name v, name ≠ x.name.getD [] → newestValue done name = some v → Current s d name v) ∧
      NamesIn s (done ++ x :: left)
  | .removing d _ => ∃ content, s.documents[d]? = some ⟨content, false⟩ ∧
      (∀ name v, newestValue content name = some v → Current s d name v) ∧ NamesIn s content

structure Inv (s : State) : Prop where
  faults : s.faults = []
  docs : ∀ d, s.released d = false ↔ s.config.document = some d
  named : ∀ name q, s.hash.find? name = some q →
    ∃ query, s.queries[q]? = some query ∧ query.name = name
  searches : ∀ search ∈ s.searches, SearchOk s search
  config : ConfigInv s s.config

lemma inv_init : Inv .init where
  faults := rfl
  docs d := by
    constructor
    · intro h
      exact nomatch h
    · intro h
      exact nomatch h
  named name q h := nomatch h
  searches search h := nomatch h
  config content h := nomatch h

lemma Inv.survives (h : Inv s) : Survives s where
  reads := h.faults
  exact := by
    intro hidle
    have hconfig := h.config
    cases hc : s.config with
    | idle =>
      rw [hc] at hconfig
      exact hconfig
    | loading d left | inserting d q left | removing d left =>
      rw [hc] at hidle
      cases hidle

/-! ## The steps of a search -/

/-- A search has come or gone on. -/
lemma Inv.of_searches (h : Inv s) {searches : List Search}
    (hsearches : ∀ search ∈ searches, SearchOk s search) :
    Inv { s with searches := searches } where
  faults := h.faults
  docs := h.docs
  named := h.named
  searches search hmem := by
    have hok := hsearches search hmem
    cases search <;> exact hok
  config := by
    have hconfig := h.config
    show ConfigInv _ s.config
    cases hc : s.config <;> rw [hc] at hconfig <;> exact hconfig

lemma Inv.goto (h : Inv s) (i : ℕ) (hok : SearchOk s search) : Inv (s.goto i search) := by
  refine h.of_searches fun other hmem => ?_
  rcases mem_set_cases hmem with rfl | ⟨j, -, hj⟩
  · exact hok
  · exact h.searches other (List.mem_of_getElem? hj)

lemma Inv.arrive (h : Inv s) (headers : List Header) : Inv (s.arrive headers) := by
  refine h.of_searches fun other hmem => ?_
  rcases List.mem_append.mp hmem with hmem | hmem
  · exact h.searches other hmem
  · rw [List.mem_singleton.mp hmem]
    cases headerValue headers "domain".toList <;> trivial

lemma Inv.lookup (h : Inv s) (i : ℕ) (purpose : Text)
    (hcareful : ∀ q ∈ s.hash.find? purpose, ∀ query ∈ s.queries[q]?,
      query.freed = false ∧ s.released query.document = false) : Inv (s.lookup i purpose) := by
  rw [State.lookup]
  cases hfind : s.hash.find? purpose with
  | none => exact h.goto i trivial
  | some q =>
    obtain ⟨query, hquery, -⟩ := h.named purpose q hfind
    exact h.goto i ⟨query, hquery, hcareful q hfind query hquery⟩

lemma Inv.expand (h : Inv s) {i : ℕ} {query : Query} (hsearch : s.searches[i]? = some (.holding q))
    (hquery : s.queries[q]? = some query) : Inv (s.expand i q query) := by
  obtain ⟨held, hheld, hfreed, hreleased⟩ := h.searches _ (List.mem_of_getElem? hsearch)
  cases hquery.symm.trans hheld
  rw [State.expand, hfreed, hreleased]
  exact h.goto i ⟨query, hquery, hfreed, fun _ => hreleased⟩

lemma Inv.connect (h : Inv s) {i : ℕ} {query : Query}
    (hsearch : s.searches[i]? = some (.connecting q)) (hquery : s.queries[q]? = some query) :
    Inv (s.connect i q query) := by
  obtain ⟨held, hheld, hfreed, hreleased⟩ := h.searches _ (List.mem_of_getElem? hsearch)
  cases hquery.symm.trans hheld
  rw [State.connect, hfreed, if_neg Bool.false_ne_true, if_neg]
  · exact h.goto i trivial
  · rintro ⟨hdsn, hrel⟩
    exact Bool.false_ne_true ((hreleased hdsn).symm.trans hrel)

/-! ## The steps of a reload -/

/-- What a search is going to read is still there. -/
lemma SearchOk.frame (h : SearchOk s search)
    (hqueries : ∀ q query, search.uses q = true → s.queries[q]? = some query →
      s'.queries[q]? = some query)
    (hdocuments : ∀ d, s.reads d search = true → s.released d = false → s'.released d = false) :
    SearchOk s' search := by
  cases search with
  | searching purpose => exact trivial
  | done => exact trivial
  | holding q =>
    obtain ⟨query, hquery, hfreed, hreleased⟩ := h
    refine ⟨query, hqueries q query (decide_eq_true rfl) hquery, hfreed,
      hdocuments _ ?_ hreleased⟩
    rw [State.reads, hquery]
    exact decide_eq_true rfl
  | connecting q =>
    obtain ⟨query, hquery, hfreed, hreleased⟩ := h
    refine ⟨query, hqueries q query (decide_eq_true rfl) hquery, hfreed, fun hdsn =>
      hdocuments _ ?_ (hreleased hdsn)⟩
    rw [State.reads, hquery]
    exact decide_eq_true ⟨rfl, hdsn⟩

lemma Current.frame (h : Current s d name v) (hhash : s'.hash.find? name = s.hash.find? name)
    (hqueries : ∀ q query, s.hash.find? name = some q → s.queries[q]? = some query →
      s'.queries[q]? = some query) : Current s' d name v := by
  obtain ⟨q, query, hfind, hquery, hrest⟩ := h
  exact ⟨q, query, hhash.trans hfind, hqueries q query hfind hquery, hrest⟩

/-- A document that was opened. -/
lemma released_begin (s : State) (content : Document) (d : ℕ) :
    (s.begin (some content)).released d =
      if d = s.documents.length then false else s.released d := by
  rw [State.released, State.begin]
  dsimp only
  rcases Nat.lt_trichotomy d s.documents.length with hlt | rfl | hgt
  · rw [List.getElem?_append_left hlt, if_neg hlt.ne]
    rfl
  · rw [List.getElem?_concat_length, if_pos rfl]
    rfl
  · rw [if_neg hgt.ne', State.released, List.getElem?_eq_none hgt.le, List.getElem?_eq_none]
    rw [List.length_append]
    exact hgt

lemma Inv.begin (h : Inv s) (hidle : s.config = .idle) {document : Option Document}
    (hcareful : ∀ content ∈ document, ∀ e ∈ s.hash.entries, (newestValue content e.1).isSome) :
    Inv (s.begin document) := by
  cases document with
  | none => exact h
  | some content =>
    have hall : ∀ d, s.released d ≠ false := by
      intro d hd
      have hdoc := (h.docs d).mp hd
      rw [hidle] at hdoc
      cases hdoc
    refine ⟨h.faults, fun d => ?_, h.named, fun search hmem => ?_, ?_⟩
    · rw [released_begin]
      constructor
      · intro hd
        split_ifs at hd with hlast
        · exact congrArg some hlast.symm
        · exact absurd hd (hall d)
      · intro hd
        exact if_pos (Option.some.inj hd).symm
    · refine (h.searches search hmem).frame (fun _ _ _ hquery => hquery) fun d _ hd => ?_
      exact absurd hd (hall d)
    · refine ⟨[], ?_, fun name v hv => (nomatch hv), fun name q hfind => ?_⟩
      · exact List.getElem?_concat_length
      · exact hcareful content rfl (name, q) (OrderedMap.mem_entries.mpr hfind)

/-- What is where a query was freed. -/
lemma getElem?_free (s : State) (old q : ℕ) : (s.free old).queries[q]? =
    (s.queries[q]?).map fun query => if old = q then { query with freed := true } else query :=
  List.getElem?_modify _ _ _ _

lemma getElem?_free_of_ne {old : ℕ} (hne : q ≠ old) :
    (s.free old).queries[q]? = s.queries[q]? := by
  rw [getElem?_free]
  cases s.queries[q]? with
  | none => rfl
  | some query => exact congrArg some (if_neg (Ne.symm hne))

/-- A query that was allocated changes no other. -/
lemma getElem?_allocated {query new : Query} (h : s.queries[q]? = some query) :
    (s.queries ++ [new])[q]? = some query := by
  rw [List.getElem?_append_left (List.getElem?_eq_some_iff.mp h).1]
  exact h

/-- An invalid query is freed at once. -/
lemma Inv.loadQuery_invalid (h : Inv s) (hconfig : s.config = .loading d (x :: left))
    (hx : ¬ x.Valid) : Inv (s.loadQuery d x left) := by
  have hloading := h.config
  rw [hconfig] at hloading
  obtain ⟨done, hdoc, hcurrent, hnames⟩ := hloading
  have hsplit : done ++ x :: left = (done ++ [x]) ++ left := by
    rw [List.append_assoc, List.singleton_append]
  rw [State.loadQuery, if_neg hx]
  refine ⟨h.faults, fun e => (h.docs e).trans ?_, fun name q hfind => ?_, fun search hmem => ?_, ?_⟩
  · rw [hconfig]
    rfl
  · obtain ⟨query, hquery, hname⟩ := h.named name q hfind
    exact ⟨query, getElem?_allocated hquery, hname⟩
  · exact (h.searches search hmem).frame (fun _ _ _ hquery => getElem?_allocated hquery)
      fun _ _ hd => hd
  · refine ⟨done ++ [x], ?_, fun name v hv => ?_, ?_⟩
    · rw [← hsplit]
      exact hdoc
    · rw [newestValue_invalid hx] at hv
      exact (hcurrent name v hv).frame rfl fun _ _ _ hquery => getElem?_allocated hquery
    · rw [← hsplit]
      exact hnames

/-- The query that had the name is freed when nobody uses it any more. -/
lemma Inv.loadQuery_valid (h : Inv s) (hconfig : s.config = .loading d (x :: left)) (hx : x.Valid)
    (hunused : ∀ q ∈ s.hash.find? (x.name.getD []), ∀ search ∈ s.searches, search.uses q = false) :
    Inv (s.loadQuery d x left) := by
  have hloading := h.config
  rw [hconfig] at hloading
  obtain ⟨done, hdoc, hcurrent, hnames⟩ := hloading
  let allocated := { s with
    queries := s.queries ++ [x.query d]
    config := .inserting d s.queries.length left }
  have hallocated : Inv allocated := by
    refine ⟨h.faults, fun e => (h.docs e).trans ?_, fun name q hfind => ?_,
      fun search hmem => ?_, ?_⟩
    · rw [hconfig]
      rfl
    · obtain ⟨query, hquery, hname⟩ := h.named name q hfind
      exact ⟨query, getElem?_allocated hquery, hname⟩
    · exact (h.searches search hmem).frame (fun _ _ _ hquery => getElem?_allocated hquery)
        fun _ _ hd => hd
    · refine ⟨done, x, hdoc, hx, List.getElem?_concat_length, fun name v _ hv => ?_, hnames⟩
      exact (hcurrent name v hv).frame rfl fun _ _ _ hquery => getElem?_allocated hquery
  rw [State.loadQuery, if_pos hx]
  show Inv (match s.hash.find? (x.name.getD []) with
    | some old => allocated.free old
    | none => allocated)
  cases hfind : s.hash.find? (x.name.getD []) with
  | none => exact hallocated
  | some old =>
    have hunused := hunused old hfind
    obtain ⟨replaced, hreplaced, hname⟩ := h.named _ old hfind
    refine ⟨h.faults, hallocated.docs, fun name q hentry => ?_, fun search hmem => ?_, ?_⟩
    · obtain ⟨query, hquery, hname⟩ := hallocated.named name q hentry
      refine ⟨if old = q then { query with freed := true } else query, ?_, ?_⟩
      · rw [getElem?_free, hquery, Option.map_some]
      · split_ifs <;> exact hname
    · refine (hallocated.searches search hmem).frame (fun q query huses hquery => ?_)
        fun _ _ hd => hd
      rw [getElem?_free_of_ne]
      · exact hquery
      · rintro rfl
        exact Bool.false_ne_true ((hunused search hmem).symm.trans huses)
    · refine ⟨done, x, hdoc, hx, ?_, fun name v hne hv => ?_, hnames⟩
      · have hlt : old < s.queries.length := (List.getElem?_eq_some_iff.mp hreplaced).1
        rw [getElem?_free_of_ne hlt.ne']
        exact List.getElem?_concat_length
      · refine (hcurrent name v hv).frame rfl fun q query hentry hquery => ?_
        rw [getElem?_free_of_ne]
        · exact getElem?_allocated hquery
        · rintro rfl
          obtain ⟨query', hquery', hname'⟩ := h.named name q hentry
          cases hquery'.symm.trans hreplaced
          exact hne (hname'.symm.trans hname)

lemma Inv.insert (h : Inv s) {query : Query} (hconfig : s.config = .inserting d q left)
    (hquery : s.queries[q]? = some query) : Inv (s.insert d q query left) := by
  have hinserting := h.config
  rw [hconfig] at hinserting
  obtain ⟨done, x, hdoc, hx, hnew, hcurrent, hnames⟩ := hinserting
  cases hquery.symm.trans hnew
  have hsplit : done ++ x :: left = (done ++ [x]) ++ left := by
    rw [List.append_assoc, List.singleton_append]
  have hfind : ∀ name, (s.insert d q (x.query d) left).hash.find? name =
      if name = x.name.getD [] then some q else s.hash.find? name := by
    intro name
    refine (OrderedMap.find?_insert _ _ _ _).trans ?_
    by_cases hname : name = x.name.getD []
    · exact (if_pos hname).trans (if_pos hname).symm
    · exact (if_neg hname).trans (if_neg hname).symm
  refine ⟨h.faults, fun e => (h.docs e).trans ?_, fun name q' hentry => ?_, fun search hmem => ?_, ?_⟩
  · rw [hconfig]
    rfl
  · rw [hfind] at hentry
    split_ifs at hentry with hname
    · cases hentry
      exact ⟨x.query d, hnew, hname.symm⟩
    · exact h.named name q' hentry
  · exact (h.searches search hmem).frame (fun _ _ _ hquery => hquery) fun _ _ hd => hd
  · refine ⟨done ++ [x], ?_, fun name v hv => ?_, fun name q' hentry => ?_⟩
    · rw [← hsplit]
      exact hdoc
    · rw [newestValue_valid hx] at hv
      split_ifs at hv with hname
      · cases hv
        exact ⟨q, x.query d, (hfind name).trans (if_pos hname), hnew, rfl, hname.symm, rfl, rfl⟩
      · exact (hcurrent name v hname hv).frame ((hfind name).trans (if_neg hname))
          fun _ _ _ hquery => hquery
    · rw [← hsplit]
      rw [hfind] at hentry
      split_ifs at hentry with hname
      · rw [hname]
        exact newestValue_isSome hx (List.mem_append_right _ List.mem_cons_self)
      · exact hnames name q' hentry

/-- `do_config` goes on without a change of anything else. -/
lemma Inv.of_config (h : Inv s) {config : Config} (hdoc : config.document = s.config.document)
    (hconfig : ConfigInv s config) : Inv { s with config := config } where
  faults := h.faults
  docs d := (h.docs d).trans (by rw [← hdoc])
  named := h.named
  searches search hmem := (h.searches search hmem).frame (fun _ _ _ hquery => hquery)
    fun _ _ hd => hd
  config := by
    cases config <;> exact hconfig

lemma Inv.startRemoving (h : Inv s) (hconfig : s.config = .loading d []) (order : List Text) :
    Inv { s with config := .removing d order } := by
  have hloaded := h.config
  rw [hconfig] at hloaded
  obtain ⟨done, hdoc, hcurrent, hnames⟩ := hloaded
  rw [List.append_nil] at hdoc hnames
  refine h.of_config ?_ ⟨done, hdoc, hcurrent, hnames⟩
  rw [hconfig]
  rfl

/-- No entry is removed: the document has its name. -/
lemma Inv.removeNext (h : Inv s) {key : Text} {names : List Text} {document : Loaded}
    (hconfig : s.config = .removing d (key :: names)) (hdocument : s.documents[d]? = some document)
    (garbage : Text) : Inv (s.removeNext d document.content key names garbage) := by
  have hremoving := h.config
  rw [hconfig] at hremoving
  obtain ⟨content, hdoc, hcurrent, hnames⟩ := hremoving
  cases hdocument.symm.trans hdoc
  have hkept : Inv { s with config := .removing d names } := by
    refine h.of_config ?_ ⟨content, hdoc, hcurrent, hnames⟩
    rw [hconfig]
    rfl
  rw [State.removeNext]
  dsimp only
  cases hfind : s.hash.find? key with
  | none => exact hkept
  | some q =>
    have hsome := hnames key q hfind
    obtain ⟨v, hv⟩ := Option.isSome_iff_exists.mp hsome
    obtain ⟨q', query, hfind', hquery, hd, hname, -, hlive⟩ := hcurrent key v hv
    cases hfind.symm.trans hfind'
    have hreleased : s.released query.document = false := by
      rw [hd]
      refine (h.docs d).mpr ?_
      rw [hconfig]
      rfl
    have hread : State.readName { s with config := .removing d names } query garbage = key := by
      rw [State.readName, if_neg]
      · exact hname
      · rintro (hfreed | hrel)
        · exact Bool.false_ne_true (hlive.symm.trans hfreed)
        · exact Bool.false_ne_true (hreleased.symm.trans hrel)
    dsimp only
    rw [hquery]
    dsimp only
    rw [hread, if_pos (hasQuery_of_newestValue hsome)]
    exact hkept

lemma Inv.finish (h : Inv s) {document : Loaded} (hconfig : s.config = .removing d [])
    (hdocument : s.documents[d]? = some document)
    (hunread : ∀ search ∈ s.searches, s.reads d search = false) :
    Inv (s.finish d document.content) := by
  have hremoving := h.config
  rw [hconfig] at hremoving
  obtain ⟨content, hdoc, hcurrent, hnames⟩ := hremoving
  cases hdocument.symm.trans hdoc
  have hlt : d < s.documents.length := (List.getElem?_eq_some_iff.mp hdoc).1
  have hself : (s.finish d content).released d = true := by
    rw [State.released, State.finish]
    dsimp only
    rw [List.getElem?_set_self hlt]
    rfl
  have hother : ∀ e, e ≠ d → (s.finish d content).released e = s.released e := by
    intro e hne
    rw [State.released, State.finish]
    dsimp only
    rw [List.getElem?_set_ne (Ne.symm hne), State.released]
  have hcurrentDoc : ∀ e, s.released e = false → e = d := by
    intro e he
    have hopen := (h.docs e).mp he
    rw [hconfig] at hopen
    exact (Option.some.inj hopen).symm
  refine ⟨h.faults, fun e => ⟨fun he => ?_, fun he => nomatch he⟩, h.named,
    fun search hmem => ?_, ?_⟩
  · by_cases hed : e = d
    · rw [hed, hself] at he
      cases he
    · rw [hother e hed] at he
      exact absurd (hcurrentDoc e he) hed
  · refine (h.searches search hmem).frame (fun _ _ _ hquery => hquery) fun e hreads he => ?_
    rw [hcurrentDoc e he, hunread search hmem] at hreads
    cases hreads
  · intro newest hnewest name
    cases hnewest
    show (s.hash.find? name).map s.value = _
    cases hvalue : newestValue content name with
    | none =>
      cases hfind : s.hash.find? name with
      | none => rfl
      | some q =>
        have hsome := hnames name q hfind
        rw [hvalue] at hsome
        cases hsome
    | some v =>
      obtain ⟨q, query, hfind, hquery, -, -, hv, hlive⟩ := hcurrent name v hvalue
      rw [hfind, Option.map_some, Option.map_some, State.value, hquery, Option.bind_some,
        if_neg (ne_true_of_eq_false hlive), hv]

/-! ## Runs -/

lemma inv_next {a : Action} (h : Inv s) (hcareful : Careful s a) (hnext : next s a = some s') :
    Inv s' := by
  cases a with
  | arrive headers =>
    cases hnext
    exact h.arrive headers
  | lookup i =>
    rw [next] at hnext
    split at hnext
    case h_1 purpose hsearch =>
      cases hnext
      exact h.lookup i purpose (hcareful _ hsearch)
    case h_2 => cases hnext
  | expand i =>
    rw [next] at hnext
    split at hnext
    case h_1 q hsearch =>
      obtain ⟨query, hquery, rfl⟩ := Option.map_eq_some_iff.mp hnext
      exact h.expand hsearch hquery
    case h_2 => cases hnext
  | connect i =>
    rw [next] at hnext
    split at hnext
    case h_1 q hsearch =>
      obtain ⟨query, hquery, rfl⟩ := Option.map_eq_some_iff.mp hnext
      exact h.connect hsearch hquery
    case h_2 => cases hnext
  | begin document =>
    rw [next] at hnext
    split at hnext
    case h_1 hidle =>
      cases hnext
      exact h.begin hidle hcareful
    case h_2 => cases hnext
  | loadQuery =>
    rw [next] at hnext
    split at hnext
    case h_1 d x left hconfig =>
      cases hnext
      have hload : s.MayLoad s.config := hcareful
      rw [hconfig] at hload
      by_cases hx : x.Valid
      · exact h.loadQuery_valid hconfig hx (hload hx)
      · exact h.loadQuery_invalid hconfig hx
    case h_2 => cases hnext
  | insert =>
    rw [next] at hnext
    split at hnext
    case h_1 d q left hconfig =>
      obtain ⟨query, hquery, rfl⟩ := Option.map_eq_some_iff.mp hnext
      exact h.insert hconfig hquery
    case h_2 => cases hnext
  | startRemoving order =>
    rw [next] at hnext
    split at hnext
    case h_1 d hconfig =>
      split_ifs at hnext
      cases hnext
      exact h.startRemoving hconfig order
    case h_2 => cases hnext
  | removeNext garbage =>
    rw [next] at hnext
    split at hnext
    case h_1 d key names hconfig =>
      obtain ⟨document, hdocument, rfl⟩ := Option.map_eq_some_iff.mp hnext
      exact h.removeNext hconfig hdocument garbage
    case h_2 => cases hnext
  | finish =>
    rw [next] at hnext
    split at hnext
    case h_1 d hconfig =>
      obtain ⟨document, hdocument, rfl⟩ := Option.map_eq_some_iff.mp hnext
      exact h.finish hconfig hdocument (hcareful d (by rw [hconfig]; rfl))
    case h_2 => cases hnext

/-- **Directory lookups survive reloads** in a run of careful steps. -/
theorem lookups_survive_reloads {actions : List Action} (hcareful : Always next Careful .init actions)
    (hrun : run next .init actions = some s') : Survives s' :=
  (run_invariant_of_always (fun _ _ _ => inv_next) inv_init hcareful hrun).survives

end

/-! ## Two runs -/

/-- A `<query>` with these attributes. -/
def xquery (name dsn value : String) : XQuery :=
  ⟨some name.toList, some dsn.toList, some value.toList⟩

/-- A reload of one query, which has its name already. -/
def reload (x : XQuery) : List Action :=
  [.begin (some [x]), .loadQuery, .insert, .startRemoving [x.name.getD []], .removeNext [], .finish]

/-- A search for a user of a domain. -/
def userSearch : Action := .arrive [("domain".toList, "example".toList)]

/-- A search that is through before the document is freed, and a second document. -/
def carefulRun : List Action :=
  [.begin (some [xquery "default" "dsn:user:pass" "select"]), .loadQuery, .insert, userSearch,
    .lookup 0, .expand 0, .connect 0, .startRemoving ["default".toList], .removeNext [], .finish] ++
  reload (xquery "default" "dsn:user:pass" "select distinct")

theorem lookups_survive_reloads_careful :
    ∃ s, run next .init carefulRun = some s ∧ Survives s ∧ s.searches = [.done] :=
  ⟨_, rfl, lookups_survive_reloads (by decide : Always next Careful .init carefulRun) rfl, rfl⟩

/-- A search after the reload reads the value of its query in the document that was freed. -/
theorem search_reads_released_value :
    ∃ s, run next .init (reload (xquery "default" "dsn:user:pass" "select") ++
      [userSearch, .lookup 0, .expand 0]) = some s ∧ ¬ Survives s := by
  refine ⟨_, rfl, fun h => ?_⟩
  exact absurd h.reads (by decide)

end FreeswitchContrib.XmlOdbcSimple
