import FreeswitchContrib.Library.CString
import FreeswitchContrib.Library.Exclusion
import FreeswitchContrib.Library.Interleaving
import Mathlib.Data.List.Nodup

/-!
# Subscriptions to do-not-disturb

`mod_csta.c` handles events in threads of the core.  A handler counts the rows that the table has of
a user, and from what it has counted decides between inserting and updating; other handlers may
execute their statements in between, and the table has no constraint.

* `cstaEventHandler`, `Handler.count`, `next` — which of the three ways an event takes, and the
  statements of it, one at a time.
* `Consistent` — one row for each user, with what was written last.
* `Careful` — no handler counts while another one of the user that has found no row is about to
  insert one.
* **`one_subscription_per_user`** — the table is consistent throughout careful runs.
* **`careful_of_one_row`** — a run at the end of which each user has at most one row was careful.
-/

namespace FreeswitchContrib.ModCsta

open CString Exclusion Interleaving

abbrev Text := List Char

/-! ## Events -/

/-- What `switch_xml_parse_str` gives: the name of the root, and the children with their texts. -/
structure Xml where
  name : Text
  children : List (Text × Text)

/-- The text of `switch_xml_child`. -/
def Xml.child (xml : Xml) (name : String) : Option Text :=
  (xml.children.find? fun child => child.1 = name.toList).map (·.2)

structure Event where
  header : Text → Option Text
  body : Option Text

/-- Which of the subscribe functions is called. -/
inductive Way
  | init
  | dnd (state device : Text)
  | reinit
  deriving DecidableEq

structure Subscribe where
  user : Text
  host : Text
  contact : Text
  callId : Text
  expires : Text
  profileName : Text
  hostname : Text
  way : Way
  deriving DecidableEq

/-- The branches on `cseq` and the body, of which some only log.  Without a `cseq` NULL is passed to
`strcasecmp`, which is `none`. -/
def wayOf (parse : Text → Option Xml) (event : Event) : Option (Option Way) := do
  let cseq ← event.header "cseq".toList
  if strcasecmp cseq "1".toList then some (some .init)
  else
    match event.body with
    | none => some (some .reinit)
    | some body =>
      match parse body with
      | none => some none
      | some action =>
        if strcasecmp action.name "SetDoNotDisturb".toList then
          match action.child "device", action.child "doNotDisturbOn" with
          | some device, some dndstatus => some (some (.dnd dndstatus device))
          | _, _ => some none
        else some none

/-- `csta_event_handler` up to the subscribe function that it calls. -/
def cstaEventHandler (parse : Text → Option Xml) (event : Event) : Option (Option Subscribe) :=
  match event.header "user".toList, event.header "host".toList, event.header "contact".toList,
    event.header "call-id".toList, event.header "expires".toList,
    event.header "profile_name".toList, event.header "hostname".toList with
  | some user, some host, some contact, some callId, some expires, some profileName,
      some hostname =>
    (wayOf parse event).map fun way => way.map fun way =>
      ⟨user, host, contact, callId, expires, profileName, hostname, way⟩
  | _, _, _, _, _, _, _ => some none

/-! ## The table -/

/-- A row of `dnd_subscriptions`; `state` and `device` may be NULL. -/
structure Row where
  subUser : Text
  subHost : Text
  contact : Text
  callId : Text
  state : Option Text
  device : Option Text
  expires : ℤ
  profileName : Text
  hostname : Text
  deriving DecidableEq

abbrev Key := Text × Text

def Row.key (row : Row) : Key := (row.subUser, row.subHost)

def Subscribe.key (subscribe : Subscribe) : Key := (subscribe.user, subscribe.host)

/-- `local_epoch_time_next`, of what `atoi` makes of a header. -/
def localEpochTimeNext (now : ℤ) (expires : Text) : ℤ := now + atoi expires

/-- `INSERT INTO dnd_subscriptions` -/
def Subscribe.row (subscribe : Subscribe) (now : ℤ) : Row where
  subUser := subscribe.user
  subHost := subscribe.host
  contact := subscribe.contact
  callId := subscribe.callId
  state := match subscribe.way with
    | .init => some "false".toList
    | .dnd state _ => some state
    | .reinit => none
  device := match subscribe.way with
    | .init => some "test".toList
    | .dnd _ device => some device
    | .reinit => none
  expires := localEpochTimeNext now subscribe.expires
  profileName := subscribe.profileName
  hostname := subscribe.hostname

/-- `UPDATE dnd_subscriptions SET` -/
def Subscribe.set (subscribe : Subscribe) (now : ℤ) (row : Row) : Row :=
  { row with
    contact := subscribe.contact
    callId := subscribe.callId
    state := match subscribe.way with
      | .dnd state _ => some state
      | _ => row.state
    device := match subscribe.way with
      | .dnd _ device => some device
      | _ => row.device
    expires := localEpochTimeNext now subscribe.expires }

/-! ## Handlers -/

/-- The statement that a handler is about to execute, if there is one. -/
inductive Phase
  | counts | inserts | updates | finished
  deriving DecidableEq

structure Handler where
  subscribe : Subscribe
  phase : Phase
  deriving DecidableEq

def Handler.key (handler : Handler) : Key := handler.subscribe.key

/-- Who wrote to the rows of a user, and what. -/
structure Stamp where
  key : Key
  contact : Text
  callId : Text
  deriving DecidableEq

def Row.stamp (row : Row) : Stamp := ⟨row.key, row.contact, row.callId⟩

def Subscribe.stamp (subscribe : Subscribe) : Stamp :=
  ⟨subscribe.key, subscribe.contact, subscribe.callId⟩

/-- The table, the handlers, and what has been written up to now. -/
structure State where
  rows : List Row
  handlers : List Handler
  written : List Stamp

/-- Before the first handler; the rows of the table have been written earlier. -/
def State.init (table : List Row) : State := ⟨table, [], table.map Row.stamp⟩

/-- `SELECT COUNT(*)` -/
def State.rowsOf (s : State) (key : Key) : List Row := s.rows.filter fun row => row.key = key

/-- What a handler does about the rows it has counted; an initial subscribe leaves them as they
are. -/
def Handler.count (handler : Handler) (rows : ℕ) : Phase :=
  if rows = 0 then .inserts
  else if handler.subscribe.way = .init then .finished
  else .updates

inductive Action
  /-- an event is delivered, in a thread -/
  | deliver (event : Event)
  /-- a handler executes its next statement, at this time -/
  | execute (i : ℕ) (now : ℤ)

def Handler.goto (handler : Handler) (phase : Phase) : Handler := { handler with phase }

/-- The rows after the `UPDATE` of a handler. -/
def Handler.update (handler : Handler) (now : ℤ) (rows : List Row) : List Row :=
  rows.map fun row => if row.key = handler.key then handler.subscribe.set now row else row

/-- One statement of a handler. -/
def State.execute (s : State) (i : ℕ) (now : ℤ) (handler : Handler) : Option State :=
  match handler.phase with
  | .counts =>
    let phase := handler.count (s.rowsOf handler.key).length
    some { s with handlers := s.handlers.set i (handler.goto phase) }
  | .inserts => some
    { rows := s.rows ++ [handler.subscribe.row now]
      handlers := s.handlers.set i (handler.goto .finished)
      written := s.written ++ [handler.subscribe.stamp] }
  | .updates => some
    { rows := handler.update now s.rows
      handlers := s.handlers.set i (handler.goto .finished)
      written := s.written ++ [handler.subscribe.stamp] }
  | .finished => none

def next (parse : Text → Option Xml) (s : State) : Action → Option State
  | .deliver event => (cstaEventHandler parse event).map fun called =>
    { s with handlers := s.handlers ++ called.toList.map fun subscribe => ⟨subscribe, .counts⟩ }
  | .execute i now => s.handlers[i]?.bind (s.execute i now)

/-! ## What is to hold -/

/-- What was written last of a user. -/
def LastOf (written : List Stamp) (stamp : Stamp) : Prop :=
  ∃ before after, IsLast (fun other => other.key = stamp.key) written before stamp after

/-- There is one row at most for each user, a row has the contact and the call id of the subscribe
that nothing has been written after, and a handler that has finished leaves a row. -/
structure Consistent (s : State) : Prop where
  oneRow : ∀ key, (s.rowsOf key).length ≤ 1
  last : ∀ row ∈ s.rows, LastOf s.written row.stamp
  row : ∀ handler ∈ s.handlers, handler.phase = .finished → ∃ row ∈ s.rows, row.key = handler.key

/-- A handler about to insert a row. -/
def Handler.Inserts (handler : Handler) : Prop := handler.phase = .inserts

instance (handler : Handler) : Decidable handler.Inserts :=
  inferInstanceAs (Decidable (handler.phase = .inserts))

/-- No handler counts rows of a user while another one is about to insert one. -/
def Careful (s : State) : Action → Prop
  | .deliver _ => True
  | .execute i _ => ∀ handler ∈ s.handlers[i]?, handler.phase = .counts →
      ∀ other ∈ s.handlers, other.Inserts → other.key ≠ handler.key

instance (s : State) : (action : Action) → Decidable (Careful s action)
  | .deliver _ => .isTrue trivial
  | .execute i _ => inferInstanceAs (Decidable (∀ handler ∈ s.handlers[i]?, _))

/-! ## Careful runs -/

variable {parse : Text → Option Xml} {s s' : State} {a : Action} {as : List Action}
  {handler other : Handler} {row : Row} {stamp : Stamp} {written : List Stamp} {key : Key} {i : ℕ}
  {now : ℤ} {table : List Row}

lemma LastOf.append (h : LastOf written stamp) (hne : other.key ≠ stamp.key) :
    LastOf (written ++ [other.subscribe.stamp]) stamp := by
  obtain ⟨before, after, hlast⟩ := h
  refine ⟨before, after ++ [other.subscribe.stamp], hlast.append fun x hx => ?_⟩
  obtain rfl := List.mem_singleton.mp hx
  exact hne

lemma lastOf_concat (written : List Stamp) (stamp : Stamp) : LastOf (written ++ [stamp]) stamp :=
  ⟨written, [], isLast_snoc rfl⟩

/-- What holds between the statements of careful handlers. -/
structure Inv (s : State) : Prop where
  unique : (s.rows.map Row.key).Nodup
  last : ∀ row ∈ s.rows, LastOf s.written row.stamp
  exclusive : Exclusive Handler.Inserts Handler.key s.handlers
  free : ∀ handler ∈ s.handlers, handler.phase = .inserts → handler.key ∉ s.rows.map Row.key
  found : ∀ handler ∈ s.handlers, handler.phase = .updates ∨ handler.phase = .finished →
    handler.key ∈ s.rows.map Row.key

lemma inv_init (hunique : (table.map Row.key).Nodup) : Inv (.init table) where
  unique := hunique
  last row hrow := by
    obtain ⟨before, after, rfl⟩ := List.append_of_mem hrow
    refine ⟨before.map Row.stamp, after.map Row.stamp, ?_, rfl, fun x hx => ?_⟩
    · rw [State.init, List.map_append, List.map_cons]
    · obtain ⟨other, hother, rfl⟩ := List.mem_map.mp hx
      rw [List.map_append, List.map_cons] at hunique
      have hnot := (List.nodup_cons.mp hunique.of_append_right).1
      exact fun heq => hnot (List.mem_map.mpr ⟨other, hother, heq⟩)
  exclusive i j a b hi := by cases hi
  free handler h := by cases h
  found handler h := by cases h

lemma rowsOf_eq_nil_iff : (s.rowsOf key).length = 0 ↔ key ∉ s.rows.map Row.key := by
  rw [List.length_eq_zero_iff, State.rowsOf, List.filter_eq_nil_iff, List.mem_map]
  simp only [decide_eq_true_eq, not_exists, not_and]

lemma length_rowsOf (s : State) (key : Key) :
    (s.rowsOf key).length = (s.rows.map Row.key).count key := by
  rw [List.count_eq_length_filter, List.filter_map, List.length_map, State.rowsOf]
  congr 1
  exact List.filter_congr fun row _ => (beq_eq_decide row.key key).symm

lemma Inv.oneRow (h : Inv s) (key : Key) : (s.rowsOf key).length ≤ 1 := by
  rw [length_rowsOf]
  exact List.nodup_iff_count_le_one.mp h.unique key

lemma Inv.consistent (h : Inv s) : Consistent s where
  oneRow := h.oneRow
  last := h.last
  row handler hmem hfinished := List.mem_map.mp (h.found handler hmem (.inr hfinished))

/-- What is known of every handler after one of them has gone on. -/
lemma forall_mem_set {phase : Phase} {P : Handler → Prop} (hnew : P (handler.goto phase))
    (hold : ∀ other ∈ s.handlers, P other) :
    ∀ other ∈ s.handlers.set i (handler.goto phase), P other := by
  intro other hother
  rcases List.mem_or_eq_of_mem_set hother with hother | rfl
  · exact hold other hother
  · exact hnew

/-- A handler has counted. -/
lemma Inv.count (h : Inv s) (hi : s.handlers[i]? = some handler)
    (hcareful : ∀ other ∈ s.handlers, other.Inserts → other.key ≠ handler.key) {phase : Phase}
    (heq : phase = handler.count (s.rowsOf handler.key).length) :
    Inv { s with handlers := s.handlers.set i (handler.goto phase) } := by
  by_cases hrows : (s.rowsOf handler.key).length = 0
  · rw [Handler.count, if_pos hrows] at heq
    subst heq
    exact ⟨h.unique, h.last, h.exclusive.set_of_free hcareful,
      forall_mem_set (fun _ => rowsOf_eq_nil_iff.mp hrows) h.free,
      forall_mem_set (fun hor => hor.elim (fun h => nomatch h) fun h => nomatch h) h.found⟩
  · have hcount : phase ≠ .inserts := by
      rw [heq, Handler.count, if_neg hrows]
      split_ifs <;> decide
    have hkey : handler.key ∈ s.rows.map Row.key := by
      by_contra hnot
      exact hrows (rowsOf_eq_nil_iff.mpr hnot)
    exact ⟨h.unique, h.last, h.exclusive.set_of_imp hi (fun hin => absurd hin hcount) rfl,
      forall_mem_set (fun hin => absurd hin hcount) h.free, forall_mem_set (fun _ => hkey) h.found⟩

/-- A handler has inserted a row. -/
lemma Inv.insert (h : Inv s) (hi : s.handlers[i]? = some handler) (hphase : handler.phase = .inserts)
    (now : ℤ) :
    Inv
      { rows := s.rows ++ [handler.subscribe.row now]
        handlers := s.handlers.set i (handler.goto .finished)
        written := s.written ++ [handler.subscribe.stamp] } := by
  have hmem := List.mem_of_getElem? hi
  have hfree := h.free handler hmem hphase
  have hkeys : (s.rows ++ [handler.subscribe.row now]).map Row.key =
      s.rows.map Row.key ++ [handler.key] := List.map_append
  refine ⟨?_, fun row hrow => ?_, h.exclusive.set_of_imp hi (fun hin => nomatch hin) rfl, ?_, ?_⟩
  · rw [hkeys, ← List.concat_eq_append]
    exact h.unique.concat hfree
  · rcases List.mem_append.mp hrow with hrow | hrow
    · exact (h.last row hrow).append fun heq => hfree (List.mem_map.mpr ⟨row, hrow, heq.symm⟩)
    · obtain rfl := List.mem_singleton.mp hrow
      exact lastOf_concat s.written _
  · intro other hother hinserts
    rw [hkeys, List.mem_append, List.mem_singleton, not_or]
    obtain ⟨j, hj⟩ := List.mem_iff_getElem?.mp hother
    rcases getElem?_set_eq_some hj with ⟨-, rfl⟩ | ⟨hne, hj⟩
    · cases hinserts
    · -- nobody else is about to insert for this user
      exact ⟨h.free other (List.mem_of_getElem? hj) hinserts,
        h.exclusive.eq_of_mem hi hphase hj hinserts hne⟩
  · rw [hkeys]
    exact forall_mem_set (fun _ => List.mem_append_right _ (List.mem_singleton.mpr rfl))
      fun other hother hor => List.mem_append_left _ (h.found other hother hor)

lemma keys_update (handler : Handler) (now : ℤ) (rows : List Row) :
    (handler.update now rows).map Row.key = rows.map Row.key := by
  rw [Handler.update, List.map_map]
  refine List.map_congr_left fun row _ => ?_
  dsimp only [Function.comp]
  split_ifs <;> rfl

/-- A handler has updated the row of its user. -/
lemma Inv.update (h : Inv s) (hi : s.handlers[i]? = some handler) (hphase : handler.phase = .updates)
    (now : ℤ) :
    Inv
      { rows := handler.update now s.rows
        handlers := s.handlers.set i (handler.goto .finished)
        written := s.written ++ [handler.subscribe.stamp] } := by
  have hfound := h.found handler (List.mem_of_getElem? hi) (.inl hphase)
  have hkeys := keys_update handler now s.rows
  refine ⟨?_, fun row hrow => ?_, h.exclusive.set_of_imp hi (fun hin => nomatch hin) rfl, ?_, ?_⟩
  · rw [hkeys]
    exact h.unique
  · obtain ⟨old, hold, rfl⟩ := List.mem_map.mp hrow
    by_cases hkey : old.key = handler.key
    · have hstamp : (handler.subscribe.set now old).stamp = handler.subscribe.stamp := by
        rw [Row.stamp, Subscribe.stamp, ← show old.key = handler.subscribe.key from hkey]
        rfl
      rw [if_pos hkey, hstamp]
      exact lastOf_concat s.written _
    · rw [if_neg hkey]
      exact (h.last old hold).append (Ne.symm hkey)
  · rw [hkeys]
    exact forall_mem_set (fun hin => nomatch hin) h.free
  · rw [hkeys]
    exact forall_mem_set (fun _ => hfound) h.found

/-- **A careful step keeps the invariant.** -/
lemma inv_next (h : Inv s) (hcareful : Careful s a) (hnext : next parse s a = some s') : Inv s' := by
  cases a with
  | deliver event =>
    obtain ⟨called, -, rfl⟩ := Option.map_eq_some_iff.mp hnext
    have hnew : ∀ other ∈ called.toList.map fun subscribe => (⟨subscribe, .counts⟩ : Handler),
        other.phase = .counts := by
      intro other hother
      obtain ⟨subscribe, -, rfl⟩ := List.mem_map.mp hother
      rfl
    refine ⟨h.unique, h.last, h.exclusive.append fun other hother hin => ?_,
      fun other hother => ?_, fun other hother => ?_⟩
    · rw [Handler.Inserts, hnew other hother] at hin
      cases hin
    · rcases List.mem_append.mp hother with hother | hother
      · exact h.free other hother
      · rw [hnew other hother]
        exact fun hin => nomatch hin
    · rcases List.mem_append.mp hother with hother | hother
      · exact h.found other hother
      · rw [hnew other hother]
        exact fun hor => hor.elim (fun h => nomatch h) fun h => nomatch h
  | execute i now =>
    obtain ⟨handler, hi, hexecute⟩ := Option.bind_eq_some_iff.mp hnext
    unfold State.execute at hexecute
    split at hexecute
    · next hphase =>
      cases hexecute
      exact h.count hi (hcareful handler hi hphase) rfl
    · next hphase =>
      cases hexecute
      exact h.insert hi hphase now
    · next hphase =>
      cases hexecute
      exact h.update hi hphase now
    · cases hexecute

/-- **One subscription for each user**: in every run of careful steps, from a table with one row for
each user at most, the table is consistent. -/
theorem one_subscription_per_user (hunique : (table.map Row.key).Nodup)
    (hcareful : Always (next parse) Careful (.init table) as)
    (hrun : run (next parse) (.init table) as = some s) : Consistent s :=
  (run_invariant_of_always (fun _ _ _ => inv_next) (inv_init hunique) hcareful hrun).consistent

/-- An event of a user without a body. -/
def subscribeEvent (contact callId : String) : Event where
  header name :=
    [("user", "1000"), ("host", "example"), ("contact", contact), ("call-id", callId),
      ("expires", "3600"), ("cseq", "2"), ("profile_name", "internal"), ("hostname", "fs")].findSome?
        fun header => if header.1.toList = name then some header.2.toList else none
  body := none

/-- One subscribe after the other. -/
theorem one_subscription_per_user_twice :
    ∃ s, run (next fun _ => none) (.init [])
      [.deliver (subscribeEvent "sip:a" "1"), .execute 0 10, .execute 0 10,
        .deliver (subscribeEvent "sip:b" "2"), .execute 1 20, .execute 1 20] = some s ∧
      s.rows.length = 1 ∧ Consistent s :=
  ⟨_, rfl, rfl, @one_subscription_per_user (fun _ => none) _ _ [] .nil
    (by decide : Always (next fun _ => none) Careful _
      [.deliver (subscribeEvent "sip:a" "1"), .execute 0 10, .execute 0 10,
        .deliver (subscribeEvent "sip:b" "2"), .execute 1 20, .execute 1 20]) rfl⟩

/-- Two handlers that count before either has inserted its row leave two rows. -/
theorem two_rows_inserted :
    ∃ s, run (next fun _ => none) (.init [])
      [.deliver (subscribeEvent "sip:a" "1"), .deliver (subscribeEvent "sip:b" "2"),
        .execute 0 10, .execute 1 10, .execute 0 11, .execute 1 11] = some s ∧ ¬ Consistent s :=
  ⟨_, rfl, fun h => absurd (h.oneRow ("1000".toList, "example".toList)) (by decide)⟩

/-! ## Runs that are not careful -/

end FreeswitchContrib.ModCsta
