import FreeswitchContrib.Library.CString
import FreeswitchContrib.Library.Freeing
import FreeswitchContrib.XmlRadius.ReceivedPairs

/-!
# What a search of `mod_xml_radius` cleans up

`xml_radius_search` creates the tree of its answer at once, an event when it has the headers, and
locks the configuration before it asks the RADIUS library.  Some of its exits return at once and the
others go through one label, which destroys the event and unlocks, whether that was reached before
or after.

* `attributes` — the attributes of the request, in the order in which they are added.
* `search` — the function, with what it locks, creates and frees.
* `CleansUp` — what was set up is cleaned up once, and nothing else.
* **`cleans_up_iff`** — a search that gets as far as the lock does so, and no other.
-/

namespace FreeswitchContrib.XmlRadius

open CString Freeing
open XmlOdbc (Text)

/-! ## The search -/

inductive Object
  /-- `xml_out` -/
  | tree
  /-- the copy that `rad_event` is of the event -/
  | event
  /-- what `rad_event` points to before it is set -/
  | stack
  deriving DecidableEq

inductive Operation
  | memory (operation : Freeing.Operation Object)
  | rdlock
  | unlock
  deriving DecidableEq

/-- The attributes of a request. -/
inductive Attribute
  | acctSessionId
  | userName
  | digestResponse
  | digestRealm
  | digestNonce
  | digestCnonce
  | digestMethod
  | digestUri
  | digestAlgorithm
  | digestUserName
  | digestQop
  | digestNonceCount

/-- `switch_event_get_header` -/
def getHeader (headers : List Header) (name : Text) : Option Text :=
  (headers.find? fun header => strcasecmp header.1 name).map (·.2)

/-- The headers without which there is no request; without an algorithm it is `MD5`. -/
def requiredHeaders : List Text :=
  ["Core-UUID".toList, "sip_auth_response".toList, "sip_auth_realm".toList,
    "sip_auth_nonce".toList, "sip_auth_method".toList, "sip_auth_uri".toList,
    "sip_auth_username".toList]

def sufficient (headers : List Header) : Bool :=
  requiredHeaders.all fun name => (getHeader headers name).isSome

/-- What is added to the request. -/
def attributes (headers : List Header) : List (Attribute × Text) :=
  let get name := (getHeader headers name).getD []
  let optional (pw : Attribute) name := ((getHeader headers name).map (pw, ·)).toList
  [(.acctSessionId, get "Core-UUID".toList),
    (.userName, get "sip_auth_username".toList ++ '@' :: get "sip_auth_realm".toList),
    (.digestResponse, get "sip_auth_response".toList),
    (.digestRealm, get "sip_auth_realm".toList),
    (.digestNonce, get "sip_auth_nonce".toList)] ++
  optional .digestCnonce "sip_auth_cnonce".toList ++
  [(.digestMethod, get "sip_auth_method".toList),
    (.digestUri, get "sip_auth_uri".toList),
    (.digestAlgorithm, (getHeader headers "sip_auth_algorithm".toList).getD "MD5".toList),
    (.digestUserName, get "sip_auth_username".toList)] ++
  optional .digestQop "sip_auth_qop".toList ++
  optional .digestNonceCount "sip_auth_nc".toList

/-- What the functions return that are called. -/
structure Outcomes where
  /-- whether `switch_event_dup` succeeds -/
  eventDup : Bool
  /-- whether `my_radius_init` returns a handle -/
  radiusInit : Bool
  /-- whether `rc_avpair_add` returns a pair -/
  avpairAdd : Attribute → Text → Bool
  /-- what `rad_event` is before it is set: null or not -/
  stack : Option Object

/-- The arguments of a search. -/
structure Call where
  /-- whether there is a binding -/
  binding : Bool
  sectionName : Text
  /-- the headers of the event, if there is one -/
  event : Option (List Header)

structure Result where
  operations : List Operation
  /-- what is returned -/
  xmlOut : Option Object

/-- From the label `cleanup` on, with what `rad_event` is. -/
def cleanup (operations : List Operation) (radEvent : Option Object) (ret : Bool) : Result :=
  let operations := operations ++ [.memory (.free radEvent), .unlock]
  if ret then ⟨operations ++ [.memory (.free (some .tree))], none⟩ else ⟨operations, some .tree⟩

/-- `xml_radius_search`; what `rc_auth` returns decides about the template alone. -/
def search (call : Call) (outcomes : Outcomes) : Result :=
  let created := [.memory (.new .tree)]
  if call.binding = false then ⟨created, none⟩
  else if call.sectionName ≠ "directory".toList ∧ call.sectionName ≠ "dialplan".toList then
    ⟨created, none⟩
  else
    match call.event with
    | none => cleanup created outcomes.stack true
    | some headers =>
      if sufficient headers = false then ⟨created, none⟩
      else if outcomes.eventDup = false then ⟨created, none⟩
      else
        let locked := created ++ [.memory (.new .event), .rdlock]
        if outcomes.radiusInit = false then cleanup locked (some .event) true
        else if (attributes headers).all fun a => outcomes.avpairAdd a.1 a.2 then
          cleanup locked (some .event) false
        else cleanup locked (some .event) true

/-! ## The statement -/

def Operation.memory? : Operation → Option (Freeing.Operation Object)
  | memory operation => some operation
  | _ => none

/-- As many read locks are given back as were taken, the event that was created is destroyed once
and no other, and the tree is freed once if it is not returned. -/
structure CleansUp (result : Result) : Prop where
  depth : result.operations.count .rdlock = result.operations.count .unlock
  memory : FreesOnce result.xmlOut.toFinset (result.operations.filterMap Operation.memory?)

/-! ## The exits -/

variable {call : Call} {outcomes : Outcomes}

/-- Whoever returns at once keeps the tree. -/
lemma not_cleansUp_created : ¬ CleansUp ⟨[.memory (.new .tree)], none⟩ := by
  intro h
  have hcount := h.memory.count .tree List.mem_cons_self
  exact absurd hcount (by decide)

/-- Without an event there is no lock to give back. -/
lemma not_cleansUp_unlocked (radEvent : Option Object) :
    ¬ CleansUp (cleanup [.memory (.new .tree)] radEvent true) := by
  intro h
  have hdepth : 0 = 1 := h.depth
  exact absurd hdepth Nat.zero_ne_one

/-- The label cleans up what was set up before it. -/
lemma cleansUp_locked (ret : Bool) :
    CleansUp (cleanup [.memory (.new .tree), .memory (.new .event), .rdlock] (some .event) ret) := by
  have hset : FreesOnce {Object.event, .tree} [.new Object.tree, .new .event] :=
    (FreesOnce.nil.new (a := Object.tree) (by decide)).new (a := Object.event) (by decide)
  have hevent := hset.free (a := Object.event) (by decide)
  rw [Finset.erase_insert (by decide)] at hevent
  cases ret with
  | true =>
    have htree := hevent.free (a := Object.tree) (by decide)
    rw [Finset.erase_singleton] at htree
    exact ⟨rfl, htree⟩
  | false => exact ⟨rfl, hevent⟩

/-- There is an event with the headers that a request needs. -/
def HasRequest (call : Call) : Prop :=
  ∃ headers, call.event = some headers ∧
    ∀ name ∈ requiredHeaders, (getHeader headers name).isSome

lemma sufficient_iff (headers : List Header) :
    sufficient headers ↔ ∀ name ∈ requiredHeaders, (getHeader headers name).isSome :=
  List.all_eq_true

/-- **A search cleans up what it sets up** exactly where it comes to lock the configuration. -/
theorem cleans_up_iff (call : Call) (outcomes : Outcomes) :
    CleansUp (search call outcomes) ↔
      call.binding ∧
        (call.sectionName = "directory".toList ∨ call.sectionName = "dialplan".toList) ∧
        HasRequest call ∧ outcomes.eventDup := by
  unfold search
  dsimp only
  by_cases hbinding : call.binding = false
  · rw [if_pos hbinding]
    refine iff_of_false not_cleansUp_created fun h => ?_
    exact Bool.false_ne_true (hbinding.symm.trans h.1)
  rw [if_neg hbinding]
  by_cases hsection : call.sectionName ≠ "directory".toList ∧ call.sectionName ≠ "dialplan".toList
  · rw [if_pos hsection]
    refine iff_of_false not_cleansUp_created fun h => ?_
    exact not_or.mpr hsection h.2.1
  rw [if_neg hsection]
  cases hevent : call.event with
  | none =>
    refine iff_of_false (not_cleansUp_unlocked outcomes.stack) fun h => ?_
    obtain ⟨headers, hheaders, -⟩ := h.2.2.1
    cases hevent.symm.trans hheaders
  | some headers =>
    dsimp only
    by_cases hsufficient : sufficient headers = false
    · rw [if_pos hsufficient]
      refine iff_of_false not_cleansUp_created fun h => ?_
      obtain ⟨headers', hheaders, hall⟩ := h.2.2.1
      cases hevent.symm.trans hheaders
      exact Bool.false_ne_true (hsufficient.symm.trans ((sufficient_iff headers).mpr hall))
    rw [if_neg hsufficient]
    by_cases hdup : outcomes.eventDup = false
    · rw [if_pos hdup]
      refine iff_of_false not_cleansUp_created fun h => ?_
      exact Bool.false_ne_true (hdup.symm.trans h.2.2.2)
    rw [if_neg hdup]
    refine iff_of_true ?_ ⟨Bool.eq_true_of_not_eq_false hbinding, ?_, ⟨headers, hevent, ?_⟩,
      Bool.eq_true_of_not_eq_false hdup⟩
    · split_ifs
      · exact cleansUp_locked true
      · exact cleansUp_locked false
      · exact cleansUp_locked true
    · rw [not_and_or, not_ne_iff, not_ne_iff] at hsection
      exact hsection
    · exact (sufficient_iff headers).mp (Bool.eq_true_of_not_eq_false hsufficient)

/-- Every call succeeds, and `rad_event` happens to be null before it is set. -/
def noFailure : Outcomes := ⟨true, true, fun _ _ => true, none⟩

/-- An event without digest headers leaves the tree behind. -/
theorem tree_left_behind :
    ¬ CleansUp (search ⟨true, "directory".toList, some []⟩ noFailure) := not_cleansUp_created

end FreeswitchContrib.XmlRadius
