import FreeswitchContrib.XmlOdbc.Rendering
import Mathlib.Tactic.SplitIfs

/-!
# What `set-event-header` does to the event

`xml_odbc_do_set_event_header` keeps a pointer to the value of one header, deletes this header, and
adds one with the value that is behind the pointer, where no other one is given.

* `operations` — what it does with the event, in the order of the source.
* `HeaderList` — what the core does with the headers of an event.
* `Moved` — what the event is to be like for the children.
* **`setEventHeader_moves_iff`** — that is so, and nothing is read that has been freed, when the
  value is given or the name is not.
-/

namespace FreeswitchContrib.XmlOdbc

open CString

variable {Event : Type}

/-! ## Operations on an event -/

/-- A value that is read. -/
inductive Value
  /-- a text of the pool -/
  | pool (text : Text)
  /-- the value of this header -/
  | header (name text : Text)

inductive Operation
  /-- `strcasecmp` with the value -/
  | compare (value : Value)
  /-- `switch_event_del_header` -/
  | del (name : Text)
  /-- `switch_event_add_header_string` -/
  | add (name : Text) (value : Option Value)

def Operation.reads : Operation → Option Value
  | .compare value => some value
  | .del _ => none
  | .add _ value => value

/-- The event, and what has been deleted from which event. -/
structure Progress (Event : Type) where
  event : Event
  deleted : List (Event × Text)

section

variable (core : Core Event)

/-- What is behind the pointer. -/
def Value.read (deleted : List (Event × Text)) : Value → Text
  | .pool text => text
  | .header name text =>
    match deleted.find? fun old => strcasecmp old.2 name with
    | some old => core.freedValue old.1 name
    | none => text

def Progress.perform (progress : Progress Event) : Operation → Progress Event
  | .compare _ => progress
  | .del name =>
    { event := core.delHeader progress.event name
      deleted := progress.deleted ++ [(progress.event, name)] }
  | .add name value =>
    { progress with
      event := core.addHeader progress.event name (value.map (Value.read core progress.deleted)) }

/-- The event after these operations. -/
def performed (event : Event) (operations : List Operation) : Event :=
  (operations.foldl (Progress.perform core) ⟨event, []⟩).event

/-- The expanded attributes. -/
structure Request where
  ifName : Option Text
  ifValue : Option Text
  toName : Option Text
  toValue : Option Text

def Opening.request (tag : Opening) (event : Event) : Request :=
  let expanded name := (tag.attr name).map (core.expandHeaders event)
  { ifName := expanded "if-name".toList
    ifValue := expanded "if-value".toList
    toName := expanded "to-name".toList
    toValue := expanded "to-value".toList }

/-- `xml_odbc_do_set_event_header` before it renders the children, by what it does with the
event. -/
def operations (request : Request) (event : Event) : Except Status (List Operation) :=
  let oldValue := request.ifName.bind (core.getHeader event)
  let pointer := request.ifName.bind fun name => oldValue.map (Value.header name)
  if request.ifValue.isSome ∧ request.ifName.isNone then .error .failed
  else match request.ifName <|> request.toName with
    | none => .error .failed
    | some name =>
      if request.ifName.isSome ∧ oldValue.isNone then .error .success
      else if ∃ v ∈ request.ifValue, ∃ old ∈ oldValue, ¬ strcasecmp v old then .error .success
      else
        let compared := if request.ifValue.isSome then pointer.toList.map .compare else []
        let moved :=
          if request.toName.isSome ∨ request.toValue.isSome then
            [.del name, .add (request.toName.getD name) (request.toValue.map .pool <|> pointer)]
          else []
        .ok (compared ++ moved)

end

/-! ## The statement -/

/-- No value of a header is read after the header has been deleted. -/
def ReadsNothingFreed (operations : List Operation) : Prop :=
  operations.Pairwise fun earlier later => ∀ name owner text, earlier = .del name →
    later.reads = some (.header owner text) → ¬ strcasecmp name owner

/-- What the core does with the headers of an event: they have an order, and their names are
compared without case. -/
structure HeaderList (core : Core Event) where
  headers : Event → List (Text × Text)
  get : ∀ event name, core.getHeader event name =
    ((headers event).find? fun header => strcasecmp header.1 name).map Prod.snd
  /-- all headers of the name are deleted -/
  del : ∀ event name, headers (core.delHeader event name) =
    (headers event).filter fun header => !strcasecmp header.1 name
  /-- without a value no header is added -/
  add : ∀ event name value, headers (core.addHeader event name value) =
    headers event ++ value.toList.map (name, ·)

/-- The value of the if-name header. -/
def Request.former (request : Request) (headers : List (Text × Text)) : Option Text :=
  request.ifName.bind fun name =>
    (headers.find? fun header => strcasecmp header.1 name).map Prod.snd

/-- The header has neither the name asked for nor that of the condition. -/
def Request.isOther (request : Request) (header : Text × Text) : Bool :=
  (request.ifName.toList ++ request.toName.toList).all fun name => !strcasecmp header.1 name

/-- The header does not have the name of the condition, or that asked for where there is none. -/
def Request.keeps (request : Request) (header : Text × Text) : Bool :=
  (request.ifName <|> request.toName).all fun name => !strcasecmp header.1 name

/-- The headers that the children are to be rendered with. -/
structure Moved (request : Request) (before after : List (Text × Text)) : Prop where
  present : ∃ name ∈ request.toName <|> request.ifName,
    ∃ value ∈ request.toValue <|> request.former before,
      ∃ header ∈ after, strcasecmp header.1 name ∧ header.2 = value
  gone : ∀ ifName ∈ request.ifName, ∀ toName ∈ request.toName, ¬ strcasecmp toName ifName →
    ∀ header ∈ after, ¬ strcasecmp header.1 ifName
  others : after.filter request.isOther = before.filter request.isOther
  kept : (before.filter request.keeps).Sublist after

variable {core : Core Event} {tag : Opening} {event : Event} {request : Request}

/-! ## The operations are those of the model -/

lemma strcasecmp_self (name : Text) : strcasecmp name name = true := beq_self_eq_true _

/-- A comparison changes nothing. -/
lemma foldl_compare (values : List Value) (progress : Progress Event) :
    (values.map Operation.compare).foldl (Progress.perform core) progress = progress := by
  induction values with
  | nil => rfl
  | cons value values ih => exact ih

lemma performed_compare {c : Prop} [Decidable c] {values : List Value} {rest : List Operation} :
    performed core event ((if c then values.map .compare else []) ++ rest) =
      performed core event rest := by
  split_ifs
  · rw [performed, List.foldl_append, foldl_compare, performed]
  · rfl

/-- What is behind the pointer after its header has been deleted. -/
lemma read_deleted {name text : Text} :
    (Value.header name text).read core [(event, name)] = core.freedValue event name := by
  simp only [Value.read, List.find?_cons, strcasecmp_self]

lemma read_value {ifName toValue oldValue : Option Text} {name : Text}
    (hname : ∀ n ∈ ifName, n = name) (hold : ifName = none → oldValue = none) :
    (toValue.map Value.pool <|> ifName.bind fun n => oldValue.map (Value.header n)).map
        (Value.read core [(event, name)]) =
      (toValue <|> oldValue.map fun _ => core.freedValue event name) := by
  cases toValue with
  | some value => rfl
  | none =>
    cases ifName with
    | none =>
      rw [hold rfl]
      rfl
    | some n =>
      cases oldValue with
      | none => rfl
      | some old =>
        cases hname n rfl
        exact congrArg some read_deleted

/-- The function does what the operations say. -/
theorem eventHeader_eq_operations : eventHeader core tag event =
    (operations core (tag.request core event) event).map (performed core event) := by
  unfold eventHeader operations Opening.request
  dsimp only
  set ifName := (tag.attr "if-name".toList).map (core.expandHeaders event)
  set ifValue := (tag.attr "if-value".toList).map (core.expandHeaders event)
  set toName := (tag.attr "to-name".toList).map (core.expandHeaders event)
  set toValue := (tag.attr "to-value".toList).map (core.expandHeaders event)
  by_cases hbare : ifValue.isSome ∧ ifName.isNone
  · rw [if_pos hbare, if_pos hbare]
    rfl
  rw [if_neg hbare, if_neg hbare]
  cases hname : (ifName <|> toName) with
  | none => rfl
  | some name =>
    dsimp only
    by_cases hmissing : ifName.isSome ∧ (ifName.bind (core.getHeader event)).isNone
    · rw [if_pos hmissing, if_pos hmissing]
      rfl
    rw [if_neg hmissing, if_neg hmissing]
    by_cases hother : ∃ v ∈ ifValue, ∃ old ∈ ifName.bind (core.getHeader event), ¬ strcasecmp v old
    · rw [if_pos hother, if_pos hother]
      rfl
    rw [if_neg hother, if_neg hother]
    refine Eq.trans ?_ (congrArg Except.ok performed_compare.symm)
    by_cases hto : toName.isSome ∨ toValue.isSome
    · rw [if_pos hto, if_pos hto]
      refine congrArg Except.ok (congrArg (core.addHeader _ _) (read_value ?_ ?_)).symm
      · intro n (hn : ifName = some n)
        rw [hn] at hname
        exact Option.some.inj hname
      · intro (hnone : ifName = none)
        exact congrArg (Option.bind · (core.getHeader event)) hnone
    · rw [if_neg hto, if_neg hto]
      rfl

/-! ## What the operations do -/

/-- What is done when the condition holds. -/
structure Does (core : Core Event) (request : Request) (event : Event) (name : Text)
    (oldValue : Option Text) (done : List Operation) : Prop where
  named : (request.ifName <|> request.toName) = some name
  old : oldValue = request.ifName.bind (core.getHeader event)
  found : request.ifName.isSome → oldValue.isSome
  operations : ∃ values : List Value, done = values.map .compare ++
    if request.toName.isSome ∨ request.toValue.isSome then
      [.del name, .add (request.toName.getD name)
        (request.toValue.map Value.pool <|> oldValue.map (Value.header name))]
    else []

lemma operations_eq_ok {done : List Operation} (h : operations core request event = .ok done) :
    ∃ name oldValue, Does core request event name oldValue done := by
  have hcompared (ifValue : Option Text) (value : Value) : ∃ values : List Value,
      (if ifValue.isSome then [value].map Operation.compare else []) =
        values.map Operation.compare := by
    cases ifValue
    · exact ⟨[], rfl⟩
    · exact ⟨[value], rfl⟩
  obtain ⟨ifName, ifValue, toName, toValue⟩ := request
  cases ifName with
  | none =>
    cases ifValue with
    | some ifValue => cases h
    | none =>
      cases toName with
      | none => cases h
      | some toName =>
        cases h
        exact ⟨toName, none, rfl, rfl, nofun, [], rfl⟩
  | some ifName =>
    cases hold : core.getHeader event ifName with
    | none => simp [operations, hold] at h
    | some oldValue =>
      obtain ⟨values, hvalues⟩ := hcompared ifValue (.header ifName oldValue)
      refine ⟨ifName, some oldValue, rfl, hold.symm, fun _ => rfl, values, ?_⟩
      rw [← hvalues]
      simp only [operations, Option.bind_some, hold, Option.isNone_some, Bool.false_eq_true,
        and_false, if_false] at h
      by_cases hdiffers : ∃ v ∈ ifValue, ∃ old ∈ some oldValue, ¬ strcasecmp v old
      · cases (if_pos hdiffers).symm.trans h
      · exact (Except.ok.inj ((if_neg hdiffers).symm.trans h)).symm

variable {name : Text} {oldValue : Option Text} {done : List Operation}

/-- The event afterwards, when nothing was asked for. -/
lemma Does.performed_of_none (h : Does core request event name oldValue done)
    (hnone : request.toName = none) (hnone' : request.toValue = none) :
    performed core event done = event := by
  obtain ⟨values, rfl⟩ := h.operations
  rw [hnone, hnone', if_neg (by simp), List.append_nil, performed, foldl_compare]

/-- The headers afterwards, when something was. -/
lemma Does.headers_performed (h : Does core request event name oldValue done)
    (list : HeaderList core) (hsome : request.toName.isSome ∨ request.toValue.isSome)
    (value : Option Text) (hvalue : (request.toValue.map Value.pool <|>
      oldValue.map (Value.header name)).map (Value.read core [(event, name)]) = value) :
    list.headers (performed core event done) =
      (list.headers event).filter (fun header => !strcasecmp header.1 name) ++
        value.toList.map (request.toName.getD name, ·) := by
  obtain ⟨values, rfl⟩ := h.operations
  rw [if_pos hsome, performed, List.foldl_append, foldl_compare]
  change list.headers (core.addHeader (core.delHeader event name) _ _) = _
  rw [list.add, list.del]
  exact congrArg (fun v : Option Text => _ ++ v.toList.map _) hvalue

/-- A comparison frees nothing. -/
lemma readsNothingFreed_iff {values : List Value} {rest : List Operation} :
    ReadsNothingFreed (values.map .compare ++ rest) ↔ ReadsNothingFreed rest := by
  have hcompare (operation : Operation) (h : operation ∈ values.map Operation.compare)
      (name : Text) : operation ≠ .del name := by
    obtain ⟨value, -, rfl⟩ := List.mem_map.1 h
    nofun
  refine List.pairwise_append.trans ⟨fun h => h.2.1, fun h => ⟨?_, h, ?_⟩⟩
  · refine List.pairwise_map.2 (List.pairwise_of_forall fun _ _ _ _ _ hdel => ?_)
    cases hdel
  · exact fun operation hmem _ _ name _ _ hdel => absurd hdel (hcompare operation hmem name)

lemma readsNothingFreed_move {toName : Text} {value : Option Value} :
    ReadsNothingFreed [.del name, .add toName value] ↔
      ∀ owner text, value = some (.header owner text) → ¬ strcasecmp name owner := by
  simp only [ReadsNothingFreed, List.pairwise_pair]
  refine ⟨fun h owner text hvalue => h name owner text rfl hvalue, ?_⟩
  rintro h _ owner text ⟨⟩ hvalue
  exact h owner text hvalue

/-! ## Moving headers -/

/-- A header that is only looked for. -/
lemma Does.moved_of_none (h : Does core request event name oldValue done)
    (list : HeaderList core) (hnone : request.toName = none) (hnone' : request.toValue = none) :
    Moved request (list.headers event) (list.headers (performed core event done)) := by
  have hname : request.ifName = some name := by
    have hnamed := h.named
    rw [hnone] at hnamed
    simpa using hnamed
  obtain ⟨value, hvalue⟩ := Option.isSome_iff_exists.1 (h.found (by rw [hname]; rfl))
  have hformer : request.former (list.headers event) = some value := by
    rw [Request.former, hname, ← hvalue, h.old, hname]
    exact (list.get event name).symm
  rw [h.performed_of_none hnone hnone']
  refine ⟨⟨name, by simp [hnone, hname], value, by simp [hnone', hformer], ?_⟩, ?_, rfl,
    List.filter_sublist⟩
  · rw [Request.former, hname] at hformer
    obtain ⟨header, hfind, rfl⟩ := Option.map_eq_some_iff.1 hformer
    exact ⟨header, List.mem_of_find?_eq_some hfind,
      List.find?_some (p := fun header : Text × Text => strcasecmp header.1 name) hfind, rfl⟩
  · intro _ _ toName hto
    rw [hnone] at hto
    cases hto

/-- A header that is other than those of the request is not one that is deleted. -/
lemma isOther_of_named (hname : (request.ifName <|> request.toName) = some name)
    {header : Text × Text} (hother : request.isOther header) :
    strcasecmp header.1 name = false := by
  rw [Request.isOther, List.all_eq_true] at hother
  have hmem : name ∈ request.ifName.toList ++ request.toName.toList := by
    cases hif : request.ifName with
    | none => simpa [hif] using hname
    | some ifName => simp_all
  simpa using hother name hmem

/-- A header that gets the value that is given. -/
lemma Does.moved_of_some (h : Does core request event name oldValue done)
    (list : HeaderList core) {value : Text} (hvalue : request.toValue = some value) :
    Moved request (list.headers event) (list.headers (performed core event done)) := by
  have hnamed := h.named
  rw [h.headers_performed list (.inr (by rw [hvalue]; rfl)) (some value) (by rw [hvalue]; rfl)]
  set target : Text × Text := (request.toName.getD name, value) with htarget
  have htargetName : (request.toName <|> request.ifName) = some target.1 := by
    cases hto : request.toName with
    | none => simpa [htarget, hto] using hnamed
    | some toName => simp [htarget, hto]
  refine ⟨⟨target.1, htargetName, value, by simp [hvalue], target, by simp [htarget],
    strcasecmp_self _, rfl⟩,
    fun ifName hif toName hto hrenamed header hheader => ?_, ?_, ?_⟩
  · have hname : name = ifName := by simpa [Option.mem_def.1 hif] using hnamed.symm
    subst hname
    rcases List.mem_append.1 hheader with hheader | hheader
    · simpa using (List.mem_filter.1 hheader).2
    · cases List.mem_singleton.1 hheader
      simpa [htarget, Option.mem_def.1 hto] using hrenamed
  · have htargetOther : request.isOther target = false := by
      by_contra hother
      rw [Bool.not_eq_false] at hother
      rw [Request.isOther, List.all_eq_true] at hother
      have hmem : target.1 ∈ request.ifName.toList ++ request.toName.toList := by
        cases hto : request.toName <;> simp_all
      simpa [strcasecmp_self] using hother _ hmem
    rw [List.filter_append, List.filter_filter]
    simp only [Option.toList_some, List.map_cons, List.map_nil, ← htarget, List.filter_cons,
      htargetOther]
    simp only [Bool.false_eq_true, if_false, List.filter_nil, List.append_nil]
    refine List.filter_congr fun header _ => ?_
    cases hother : request.isOther header
    · rfl
    · rw [isOther_of_named hnamed hother]
      rfl
  · have hkeeps : request.keeps = fun header => !strcasecmp header.1 name := by
      funext header
      rw [Request.keeps, hnamed]
      rfl
    rw [hkeeps]
    exact List.sublist_append_left ..

/-- **What `set-event-header` does.**  When its condition holds, the children are rendered with the
headers that are asked for, and nothing is read that has been freed, exactly when the value is given
or the name is not. -/
theorem setEventHeader_moves_iff (list : HeaderList core)
    (h : operations core (tag.request core event) event = .ok done) :
    ∃ after, eventHeader core tag event = .ok after ∧
      ((Moved (tag.request core event) (list.headers event) (list.headers after) ∧
          ReadsNothingFreed done) ↔
        tag.attr "to-value".toList ≠ none ∨ tag.attr "to-name".toList = none) := by
  refine ⟨performed core event done, by rw [eventHeader_eq_operations, h]; rfl, ?_⟩
  obtain ⟨name, oldValue, hdoes⟩ := operations_eq_ok h
  have hvalue : tag.attr "to-value".toList ≠ none ↔ (tag.request core event).toValue ≠ none :=
    not_congr Option.map_eq_none_iff.symm
  have hname : tag.attr "to-name".toList = none ↔ (tag.request core event).toName = none :=
    Option.map_eq_none_iff.symm
  rw [hvalue, hname]
  generalize tag.request core event = request at hdoes ⊢
  obtain ⟨values, hdone⟩ := hdoes.operations
  constructor
  · rintro ⟨hmoved, hreads⟩
    by_contra hnot
    rw [not_or, not_ne_iff] at hnot
    obtain ⟨hnone, hsome⟩ := hnot
    have hto := Option.isSome_iff_ne_none.2 hsome
    cases hif : request.ifName with
    | none =>
      obtain ⟨_, -, value, hformer, -⟩ := hmoved.present
      simp [hnone, Request.former, hif] at hformer
    | some ifName =>
      obtain ⟨old, hold⟩ := Option.isSome_iff_exists.1 (hdoes.found (by rw [hif]; rfl))
      rw [hdone, if_pos (.inl hto), readsNothingFreed_iff, readsNothingFreed_move, hnone,
        hold] at hreads
      exact hreads name old rfl (strcasecmp_self name)
  · rintro (hsome | hnone)
    · obtain ⟨value, hvalue⟩ := Option.ne_none_iff_exists'.1 hsome
      refine ⟨hdoes.moved_of_some list hvalue, ?_⟩
      rw [hdone, if_pos (.inr (by rw [hvalue]; rfl)), readsNothingFreed_iff, readsNothingFreed_move,
        hvalue]
      nofun
    · cases hvalue : request.toValue with
      | none =>
        refine ⟨hdoes.moved_of_none list hnone hvalue, ?_⟩
        rw [hdone, hnone, hvalue, if_neg (by simp), readsNothingFreed_iff]
        exact List.Pairwise.nil
      | some value =>
        refine ⟨hdoes.moved_of_some list hvalue, ?_⟩
        rw [hdone, if_pos (.inr (by rw [hvalue]; rfl)), readsNothingFreed_iff,
          readsNothingFreed_move, hvalue]
        nofun

/-- Events that are lists of headers, and nothing to expand. -/
def plainCore : Core (List (Text × Text)) where
  getHeader event name := (event.find? fun header => strcasecmp header.1 name).map Prod.snd
  delHeader event name := event.filter fun header => !strcasecmp header.1 name
  addHeader event name value := event ++ value.toList.map (name, ·)
  expandHeaders _ text := text
  freedValue _ _ := []
  exec _ := none

def plainHeaders : HeaderList plainCore where
  headers event := event
  get _ _ := rfl
  del _ _ := rfl
  add _ _ _ := rfl

/-- The header `a` becomes the header `b`. -/
def renameTag (toValue : List (Text × Text)) : Opening where
  name := "xml-odbc-do".toList
  attrs := [("if-name".toList, "a".toList), ("to-name".toList, "b".toList)] ++ toValue
  named := nofun

def twoHeaders : List (Text × Text) := [("a".toList, "1".toList), ("x".toList, "2".toList)]

/-- And it gets the value `3`. -/
def valueTag : Opening := renameTag [("to-value".toList, "3".toList)]

theorem setEventHeader_moves_iff_renaming : ∃ done after,
    operations plainCore (valueTag.request plainCore twoHeaders) twoHeaders = .ok done ∧
      eventHeader plainCore valueTag twoHeaders = .ok after ∧
        Moved (valueTag.request plainCore twoHeaders) twoHeaders after ∧
          ReadsNothingFreed done := by
  obtain ⟨after, hafter, hmoves⟩ := setEventHeader_moves_iff plainHeaders
    (rfl : operations plainCore (valueTag.request plainCore twoHeaders) twoHeaders = .ok _)
  exact ⟨_, after, rfl, hafter, hmoves.2 (.inl (by decide))⟩

/-- The former value is read when its header has been deleted. -/
theorem renaming_reads_freed :
    ¬ ∀ (Event : Type) (core : Core Event) (list : HeaderList core) (tag : Opening) (event : Event)
      (done : List Operation), operations core (tag.request core event) event = .ok done →
        Moved (tag.request core event) (list.headers event)
          (list.headers (performed core event done)) ∧ ReadsNothingFreed done := by
  intro h
  have hreads := (h _ plainCore plainHeaders (renameTag []) twoHeaders _ rfl).2
  exact readsNothingFreed_move.1 hreads "a".toList "1".toList rfl (strcasecmp_self _)

end FreeswitchContrib.XmlOdbc
