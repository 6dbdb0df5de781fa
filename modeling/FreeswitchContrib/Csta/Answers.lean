import FreeswitchContrib.Csta.Locks
import Mathlib.Logic.Function.Iterate

/-!
# Answers to the requests

Every handler of a request returns, unless a `MonitorStart` has no id left to choose, and answers
the request once, unless it is a transfer of a call that has not two devices.

* `Running` — programs that only come to an end early at a dangling pointer.
* `searchXRefID_finds` — the search for an id ends where one of the ids is free.
* **`answered_once_iff`** — when exactly a request gets one answer.
-/

namespace Csta

open Faulting Tallying

/-! ## Handlers that return -/

/-- It only ends early at a dangling pointer. -/
abbrev Running {α : Type} (m : Handler α) : Prop :=
  Sat (· = Fault.danglingPointer) (fun _ => True) m fun _ _ => True

/-- Where it does not come to a dangling pointer either, the program returns. -/
lemma returns {α : Type} {m : Handler α} {P P' : FreeSWITCH → Prop}
    {Q Q' : α → FreeSWITCH → Prop} (hsafe : Safe P m Q)
    (hrunning : Sat (· = Fault.danglingPointer) P' m Q') {s : FreeSWITCH} (hs : P s)
    (hs' : P' s) : ∃ a s', m.run s = .ok (a, s') := by
  cases hrun : m.run s with
  | error fault => exact absurd (hrunning.error hs' hrun) (hsafe.error hs hrun)
  | ok result => exact ⟨result.1, result.2, rfl⟩

section

variable {p pCall : ℕ} {sender : ℕ} {invokeID : ℤ}

lemma running_pure {α : Type} {a : α} : Running (pure a) := sat_pure fun _ _ => trivial

lemma running_bind {α β : Type} {m : Handler α} {f : α → Handler β} (hm : Running m)
    (hf : ∀ a, Running (f a)) : Running (m >>= f) := sat_bind hm hf

lemma running_get : Running (get : Handler FreeSWITCH) := sat_get fun _ _ => trivial

lemma running_modify {f : FreeSWITCH → FreeSWITCH} : Running (modify f) :=
  sat_modify fun _ _ => trivial

lemma running_deref {ω : Type} {heap : FreeSWITCH → ℕ → Option ω} : Running (deref heap p) :=
  running_bind running_get fun s => by
    cases heap s p with
    | some object => exact running_pure
    | none => exact sat_throw fun _ _ => rfl

lemma running_deleteConnection : Running (deleteConnection p pCall) := by
  refine running_bind running_deref fun object => ?_
  cases object.connections.find? pCall with
  | none => exact running_pure
  | some pConnection =>
    refine running_bind running_deref fun _ => running_bind running_deref fun _ => ?_
    exact running_bind running_modify fun _ => running_bind running_modify fun _ => running_modify

end

/-! ## Devices that may be new -/

/-- The allocator gives away what is not in use. -/
structure Place.Free (place : Place) (s : FreeSWITCH) : Prop where
  device : s.devices place.device = none
  call : s.calls place.call = none
  connection : s.connections place.connection = none

/-- The devices and their map are these, and so is the last id of a monitor. -/
structure Holds (devices : ℕ → Option FreeSwitchDevice) (map : OrderedMap String ℕ) (last : ℕ)
    (s : FreeSWITCH) : Prop where
  devices : s.devices = devices
  map : s.deviceMap = map
  last : s.lastXRefID = last

/-- A monitor of a device of the module has this id. -/
def Used (devices : ℕ → Option FreeSwitchDevice) (map : OrderedMap String ℕ)
    (crossRefID : String) : Prop :=
  ∃ k p object, map.find? k = some p ∧ devices p = some object ∧
    (object.monitoringSessions.find? crossRefID).isSome

section

variable {devices : ℕ → Option FreeSwitchDevice} {map : OrderedMap String ℕ} {last : ℕ}
  {place : Place}

lemma holds_perform {effect : Effect} {allowed : Fault → Prop} :
    Sat allowed (Holds devices map last) (perform effect) fun _ => Holds devices map last :=
  sat_modify fun _ hs => ⟨hs.devices, hs.map, hs.last⟩

lemma holds_device {p : ℕ} :
    Sat (· = Fault.danglingPointer) (Holds devices map last) (device p) fun object s =>
      Holds devices map last s ∧ devices p = some object := by
  refine sat_bind_of (Q := fun _ => Holds devices map last) (sat_get fun s hs => ⟨hs, hs⟩)
    fun s hs => ?_
  cases hp : s.devices p with
  | none => exact sat_throw fun _ _ => rfl
  | some object => exact sat_pure fun _ hs' => ⟨hs', hs.devices ▸ hp⟩

/-- A device that is new has no monitors. -/
lemma prepareDevice_holds {name : String} {type : DeviceType}
    (hplace : devices place.device = none) :
    Sat (· = Fault.danglingPointer) (Holds devices map last) (prepareDevice place name type)
      fun p s => ∃ devices' map', Holds devices' map' last s ∧
        (∀ id, Used devices' map' id ↔ Used devices map id) ∧
        (map.find? (type2Prefix type ++ name) = some p ∧ devices' = devices ∨
          ∃ object, devices' p = some object ∧ object.strDevice = type2Prefix type ++ name) := by
  refine sat_bind_of (Q := fun _ => Holds devices map last) (sat_get fun s hs => ⟨hs, hs⟩)
    fun s hs => ?_
  rw [hs.map]
  cases hfind : map.find? (type2Prefix type ++ name) with
  | some p => exact sat_pure fun _ hs' => ⟨devices, map, hs', fun _ => Iff.rfl, .inl ⟨rfl, rfl⟩⟩
  | none =>
    refine sat_bind (Q := fun _ => Holds devices map last) (sat_bind_of
      (Q := fun _ => Holds devices map last) (sat_get fun s hs => ⟨hs, hs⟩) fun s hs => ?_)
      fun _ => ?_
    · rw [hs.devices, hplace]
      exact sat_pure fun _ hs' => hs'
    · intro s hs
      refine ⟨_, _, ⟨rfl, rfl, hs.last⟩, fun id => ?_,
        .inr ⟨_, Function.update_self _ _ _, rfl⟩⟩
      dsimp only
      rw [hs.devices, hs.map]
      constructor
      · rintro ⟨k, p, object, hk, hp, hid⟩
        rw [OrderedMap.find?_insert] at hk
        by_cases hnew : p = place.device
        · subst hnew
          rw [Function.update_self] at hp
          cases hp
          cases hid
        · rw [Function.update_of_ne hnew] at hp
          split_ifs at hk
          · exact absurd (Option.some.inj hk).symm hnew
          · exact ⟨k, p, object, hk, hp, hid⟩
      · rintro ⟨k, p, object, hk, hp, hid⟩
        have hne : p ≠ place.device := by
          rintro rfl
          rw [hplace] at hp
          cases hp
        have hkey : k ≠ type2Prefix type ++ name := by
          rintro rfl
          rw [hfind] at hk
          cases hk
        refine ⟨k, p, object, ?_, ?_, hid⟩
        · rw [OrderedMap.find?_insert, if_neg hkey]
          exact hk
        · rw [Function.update_of_ne hne]
          exact hp

end

/-! ## The search for an id -/

/-- The id that comes after this one. -/
def nextXRefID (last : ℕ) : ℕ := if last + 1 > 100000 then 1 else last + 1

/-- What the search tries: the name of the device, and then the numbers. -/
def triedID (crossRefID : String) (last : ℕ) : ℕ → String
  | 0 => crossRefID
  | n + 1 => toString (nextXRefID^[n + 1] last)

lemma triedID_succ (crossRefID : String) (last n : ℕ) :
    triedID (toString (nextXRefID last)) (nextXRefID last) n = triedID crossRefID last (n + 1) := by
  cases n with
  | zero => rfl
  | succ n => rfl

lemma iterate_nextXRefID {last i : ℕ} (h : last + i ≤ 100000) : nextXRefID^[i] last = last + i := by
  induction i with
  | zero => rfl
  | succ i ih =>
    rw [Function.iterate_succ_apply', ih (by omega), nextXRefID, if_neg (by omega), add_assoc]

/-- The numbers come round. -/
lemma exists_iterate_nextXRefID (last : ℕ) {k : ℕ} (hk : 1 ≤ k) (hk' : k ≤ 100000) :
    ∃ i, i < 100000 ∧ nextXRefID^[i + 1] last = k := by
  have hone (i : ℕ) (hi : i < 100000) : nextXRefID^[i] 1 = i + 1 :=
    (iterate_nextXRefID (by omega)).trans (add_comm 1 i)
  by_cases hlast : last < k
  · refine ⟨k - last - 1, by omega, ?_⟩
    rw [iterate_nextXRefID (by omega)]
    omega
  · by_cases hbig : last + 1 > 100000
    · refine ⟨k - 1, by omega, ?_⟩
      rw [Function.iterate_succ_apply, nextXRefID, if_pos hbig, hone _ (by omega)]
      omega
    · refine ⟨(k - 1) + (100000 - last), by omega, ?_⟩
      have hend : nextXRefID^[100000 - last] last = 100000 :=
        (iterate_nextXRefID (by omega)).trans (by omega)
      have hround : nextXRefID 100000 = 1 := if_pos (by omega)
      rw [add_right_comm, Function.iterate_add_apply, hend, Function.iterate_succ_apply, hround,
        hone _ (by omega)]
      omega

section

variable {devices : ℕ → Option FreeSwitchDevice} {map : OrderedMap String ℕ} {last : ℕ}

lemma anyMonitoredWithID_holds {crossRefID : String} {entries : List (String × ℕ)} :
    Sat (· = Fault.danglingPointer) (Holds devices map last)
      (anyMonitoredWithID crossRefID entries) fun used s => Holds devices map last s ∧
        (used = true ↔ ∃ entry ∈ entries, ∃ object, devices entry.2 = some object ∧
          (object.monitoringSessions.find? crossRefID).isSome) := by
  induction entries with
  | nil => exact sat_pure fun _ hs => ⟨hs, by simp⟩
  | cons entry rest ih =>
    refine sat_bind_of holds_device fun object hobject => ?_
    refine sat_ite (fun hused => sat_pure fun _ hs => ⟨hs, ?_⟩) fun hused => ?_
    · exact iff_of_true rfl ⟨entry, List.mem_cons_self, object, hobject, hused⟩
    · refine ih.mono (fun _ hs => hs) fun used s hs => ⟨hs.1, hs.2.trans ?_⟩
      constructor
      · rintro ⟨other, hmem, hother⟩
        exact ⟨other, List.mem_cons_of_mem _ hmem, hother⟩
      · rintro ⟨other, hmem, object', hobject', hused'⟩
        rcases List.mem_cons.1 hmem with rfl | hmem
        · rw [hobject] at hobject'
          cases hobject'
          exact absurd hused' hused
        · exact ⟨other, hmem, object', hobject', hused'⟩

lemma isXRefIDUsed_holds {crossRefID : String} :
    Sat (· = Fault.danglingPointer) (Holds devices map last) (isXRefIDUsed crossRefID)
      fun used s => Holds devices map last s ∧ (used = true ↔ Used devices map crossRefID) := by
  refine sat_bind holds_perform fun _ => ?_
  refine sat_bind_of (Q := fun _ => Holds devices map last) (sat_get fun s hs => ⟨hs, hs⟩)
    fun s hs => ?_
  rw [hs.map]
  refine sat_bind_of anyMonitoredWithID_holds fun used hused => ?_
  refine sat_bind holds_perform fun _ => sat_pure fun s hs => ⟨hs, hused.trans ?_⟩
  constructor
  · rintro ⟨⟨k, p⟩, hmem, object, hobject, hid⟩
    exact ⟨k, p, object, OrderedMap.mem_entries.1 hmem, hobject, hid⟩
  · rintro ⟨k, p, object, hk, hobject, hid⟩
    exact ⟨(k, p), OrderedMap.mem_entries.2 hk, object, hobject, hid⟩

lemma getNextXRefID_holds :
    Sat (· = Fault.danglingPointer) (Holds devices map last) getNextXRefID fun crossRefID s =>
      Holds devices map (nextXRefID last) s ∧ crossRefID = toString (nextXRefID last) := by
  refine sat_bind_of (Q := fun _ => Holds devices map last) (sat_get fun s hs => ⟨hs, hs⟩)
    fun s hs => ?_
  rw [hs.last]
  exact sat_bind (sat_modify fun s hs => ⟨hs.devices, hs.map, rfl⟩) fun _ =>
    sat_pure fun s hs => ⟨hs, rfl⟩

/-- What the search can find: the name of the device or a number. -/
def Candidate (name crossRefID : String) : Prop :=
  crossRefID = name ∨ ∃ k : ℕ, 1 ≤ k ∧ k ≤ 100000 ∧ crossRefID = toString k

lemma nextXRefID_candidate (name : String) (last : ℕ) :
    Candidate name (toString (nextXRefID last)) := by
  refine .inr ⟨nextXRefID last, ?_, ?_, rfl⟩
  · unfold nextXRefID
    split_ifs <;> omega
  · unfold nextXRefID
    split_ifs <;> omega

/-- **The search for an id** ends where one of those that it tries is free. -/
theorem searchXRefID_finds {name crossRefID : String} {n : ℕ} (h : Candidate name crossRefID) :
    Sat (fun fault => fault = .danglingPointer ∨
        ∀ j < n, Used devices map (triedID crossRefID last j))
      (Holds devices map last) (searchXRefID n crossRefID) fun found _ =>
        Candidate name found ∧ ¬ Used devices map found := by
  induction n generalizing crossRefID last with
  | zero => exact sat_throw fun _ _ => .inr (by simp)
  | succ n ih =>
    refine sat_bind_of (isXRefIDUsed_holds.allow fun _ => .inl) fun used hused => ?_
    refine sat_ite (fun hu => ?_) fun hu => sat_pure fun _ _ => ⟨h, mt hused.2 hu⟩
    refine sat_bind_of (getNextXRefID_holds.allow fun _ => .inl) fun next hnext => ?_
    subst hnext
    refine (ih (nextXRefID_candidate name last)).allow fun fault hfault => hfault.imp_right ?_
    intro hall j hj
    cases j with
    | zero => exact hused.1 hu
    | succ j =>
      rw [← triedID_succ]
      exact hall j (by omega)

/-- After so many ids each of them has been tried. -/
lemma exists_triedID {name crossRefID : String} (h : Candidate name crossRefID) (last : ℕ) :
    ∃ j, j < 100002 ∧ triedID name last j = crossRefID := by
  rcases h with rfl | ⟨k, hk, hk', rfl⟩
  · exact ⟨0, by omega, rfl⟩
  · obtain ⟨i, hi, hik⟩ := exists_iterate_nextXRefID last hk hk'
    exact ⟨i + 1, by omega, congrArg toString hik⟩

/-- The id of the device that is to be monitored. -/
def DeviceID.strDevice (object : DeviceID) : String :=
  type2Prefix (device2Type object) ++ deviceNumber (device2Type object) object.callNr

lemma monitorStart_finds {place : Place} {sender : ℕ} {invokeID : ℤ} {monitorObject : DeviceID}
    (hplace : devices place.device = none) (hnames : ∀ k p, map.find? k = some p →
      ∀ object, devices p = some object → object.strDevice = k)
    (hobject : ¬ (monitorObject.callNr = "" ∨ device2Type monitorObject = .unknown)) :
    Sat (fun fault => fault = .danglingPointer ∨
        ∀ j < 100002, Used devices map (triedID monitorObject.strDevice last j))
      (Holds devices map last) (monitorStart place sender invokeID monitorObject)
      fun _ _ => ∃ id, Candidate monitorObject.strDevice id ∧ ¬ Used devices map id := by
  unfold monitorStart
  refine sat_ite (fun h => absurd h hobject) fun _ => sat_bind holds_perform fun _ => ?_
  refine sat_bind ((prepareDevice_holds hplace).allow fun _ => .inl) fun p => ?_
  rintro s ⟨devices', map', hs, hused, hname⟩
  refine (?_ : Sat _ (Holds devices' map' last) _ _) s hs
  refine sat_bind_of (holds_device.allow fun _ => .inl) fun object hdevice => ?_
  have hstr : object.strDevice = monitorObject.strDevice := by
    rcases hname with ⟨hfind, rfl⟩ | ⟨object', hobject', hstr⟩
    · exact hnames _ _ hfind object hdevice
    · rw [hobject'] at hdevice
      cases hdevice
      exact hstr
  rw [hstr]
  refine sat_bind_of (Q := fun _ _ => True) (((searchXRefID_finds (.inl rfl)).allow
    fun fault hfault => hfault.imp_right fun hall j hj => (hused _).1 (hall j hj)).mono
      (fun _ hs => hs) fun _ _ hs => ⟨trivial, hs⟩) fun id hid => ?_
  have hrest : Running (do
      if ← addMonitor p sender id then
        respond sender (.monitorStart invokeID id)
        perform .unlock
      else
        respond sender (.universalError invokeID .invalidMonitorObject)
        perform .unlock) := by
    refine running_bind (running_bind running_deref fun _ => ?_) fun added => ?_
    · exact sat_ite (fun _ => running_pure) fun _ =>
        running_bind running_modify fun _ => running_pure
    · exact sat_ite (fun _ => running_bind running_modify fun _ => running_modify) fun _ =>
        running_bind running_modify fun _ => running_modify
  exact (hrest.allow fun _ => .inl).mono (fun _ hs => hs) fun _ _ _ =>
    ⟨id, hid.1, mt (hused id).2 hid.2⟩

end

/-! ## When a request gets one answer -/

def Action.IsRequest : Action → Prop
  | .monitorStart _ _ _ => True
  | .snapshotDevice _ _ _ => True
  | .snapshotCall _ _ _ _ => True
  | .makeCall _ _ _ => True
  | .makeCallOriginated _ _ => True
  | .answerCall _ _ _ _ _ => True
  | .playMessage _ _ _ _ => True
  | .recordMessage _ _ _ _ _ _ => True
  | .stopMessage _ _ _ _ _ => True
  | .clearConnection _ _ _ _ _ => True
  | .singleStepTransferCall _ _ _ _ _ => True
  | .deflectCall _ _ _ _ => True
  | _ => False

/-- The session that has sent the request, and its `InvokeID`. -/
def Action.asks : Action → Option (ℕ × ℤ)
  | .monitorStart sender invokeID _ => some (sender, invokeID)
  | .snapshotDevice sender invokeID _ => some (sender, invokeID)
  | .snapshotCall sender invokeID _ _ => some (sender, invokeID)
  | .makeCall sender invokeID _ => some (sender, invokeID)
  | .answerCall sender invokeID _ _ _ => some (sender, invokeID)
  | .playMessage sender invokeID _ _ => some (sender, invokeID)
  | .recordMessage sender invokeID _ _ _ _ => some (sender, invokeID)
  | .stopMessage sender invokeID _ _ _ => some (sender, invokeID)
  | .clearConnection sender invokeID _ _ _ => some (sender, invokeID)
  | .singleStepTransferCall sender invokeID _ _ _ => some (sender, invokeID)
  | .deflectCall sender invokeID _ _ => some (sender, invokeID)
  | _ => none

/-- The request that is to be answered: a `MakeCall` is when its call has been originated. -/
def Action.due (s : FreeSWITCH) : Action → Option (ℕ × ℤ)
  | .makeCall _ _ _ => none
  | .makeCallOriginated n _ =>
    s.pendingMakeCalls[n]?.map fun pending => (pending.sender, pending.invokeID)
  | action => action.asks

/-- The request that is due gets its answer, and nothing else does.  What has been asked and is not
answered is waiting. -/
structure AnsweredOnce (action : Action) (s s' : FreeSWITCH) : Prop where
  answers : ∀ sender invokeID, s'.answers sender invokeID =
    s.answers sender invokeID + if action.due s = some (sender, invokeID) then 1 else 0
  waiting : ∀ sender invokeID,
    s'.waiting sender invokeID + (if action.due s = some (sender, invokeID) then 1 else 0) =
      s.waiting sender invokeID + if action.asks = some (sender, invokeID) then 1 else 0

/-- The call of the request has one device besides the one that it names, or the first of the others
has no session any more. -/
def OneAnswer (core : Transfer) : List (String × ℕ) → Prop
  | [] => False
  | (id, _) :: rest => rest = [] ∨ core.located id = false

/-- The loop over the other devices sends one answer, where the call and the device are found. -/
def FreeSWITCH.TransfersOnce (s : FreeSWITCH) (activeCall : ConnectionID) (core : Transfer) :
    Prop :=
  ∀ pCall call p, s.callMap.find? activeCall.callID = some pCall → s.calls pCall = some call →
    call.devices.find? activeCall.deviceID.callNr = some p →
      OneAnswer core (call.devices.entries.filter fun entry => entry.2 ≠ p)

/-- What a request needs to get one answer. -/
def Action.AnswersOnce (s : FreeSWITCH) : Action → Prop
  | .monitorStart _ _ monitorObject =>
    (monitorObject.callNr = "" ∨ device2Type monitorObject = .unknown) ∨
      ∃ id, Candidate monitorObject.strDevice id ∧ ¬ Used s.devices s.deviceMap id
  | .singleStepTransferCall _ _ activeCall _ core => s.TransfersOnce activeCall core
  | .deflectCall _ _ callToBeDiverted core => s.TransfersOnce callToBeDiverted core
  | _ => True

/-- One for the request, where there is one. -/
def Tally.one : Option (ℕ × ℤ) → ℕ × ℤ → ℤ
  | none => 0
  | some request => Pi.single request 1

lemma Tally.one_apply (asked : Option (ℕ × ℤ)) (request : ℕ × ℤ) :
    Tally.one asked request = if asked = some request then 1 else 0 := by
  cases asked with
  | none => rfl
  | some asked =>
    by_cases h : request = asked
    · subst h
      simp [Tally.one]
    · simp [Tally.one, h, Ne.symm h]

variable {s s' : FreeSWITCH} {action : Action} {place : Place}

lemma AnsweredOnce.of_tally {w : Tally} (h : s'.tally = s.tally + w)
    (hanswers : w.2.2.1 = Tally.one (action.due s))
    (hwaiting : w.2.2.2 = Tally.one action.asks - Tally.one (action.due s)) :
    AnsweredOnce action s s' := by
  constructor
  · intro sender invokeID
    have hcount := congrFun (congrArg (fun t : Tally => t.2.2.1) h) (sender, invokeID)
    simp only [Prod.snd_add, Prod.fst_add, Pi.add_apply, hanswers, FreeSWITCH.tally_answers,
      Tally.one_apply] at hcount
    split_ifs at hcount ⊢ <;> omega
  · intro sender invokeID
    have hcount := congrFun (congrArg (fun t : Tally => t.2.2.2) h) (sender, invokeID)
    simp only [Prod.snd_add, Pi.add_apply, Pi.sub_apply, hwaiting, FreeSWITCH.tally_waiting,
      Tally.one_apply] at hcount
    split_ifs at hcount ⊢ <;> omega

/-- A request of which the tally does not depend on the state. -/
lemma AnsweredOnce.of_leaves {w : Tally} (htally : action.tally = some w)
    (hrequest : action.IsRequest) (hrun : (handle place action).run s = .ok ((), s')) :
    AnsweredOnce action s s' := by
  have h := counted_eq (handle_leaves htally action.admitted_counted) hrun
  cases action with
  | makeCall sender invokeID device =>
    cases htally
    exact .of_tally h rfl (sub_zero _).symm
  | monitorStart => cases htally; exact .of_tally h rfl (sub_self _).symm
  | snapshotDevice => cases htally; exact .of_tally h rfl (sub_self _).symm
  | snapshotCall => cases htally; exact .of_tally h rfl (sub_self _).symm
  | answerCall => cases htally; exact .of_tally h rfl (sub_self _).symm
  | playMessage => cases htally; exact .of_tally h rfl (sub_self _).symm
  | clearConnection => cases htally; exact .of_tally h rfl (sub_self _).symm
  | recordMessage => cases htally
  | stopMessage => cases htally
  | makeCallOriginated => cases htally
  | singleStepTransferCall => cases htally
  | deflectCall => cases htally
  | _ => exact hrequest.elim

section

variable {sender : ℕ} {invokeID : ℤ} {connectionID : ConnectionID} {located inProgress : Bool}

end

section

variable {sender : ℕ} {invokeID : ℤ} {activeCall : ConnectionID} {core : Transfer}

end

/-- A handler that only ends early at a dangling pointer returns. -/
lemma handle_returns {P : FreeSWITCH → Prop} {Q : Unit → FreeSWITCH → Prop} (hs : Kept False s)
    (h : Sat (· = Fault.danglingPointer) P (handle place action) Q) (hP : P s) :
    ∃ s', (handle place action).run s = .ok ((), s') := by
  obtain ⟨_, s', hrun⟩ := returns (handle_keeps hs.2 False.elim) h ⟨rfl, hs.1⟩ hP
  exact ⟨s', hrun⟩

/-- The names of the devices are those in the map. -/
lemma strDevice_of_find? (hs : Kept False s) {k : String} {p : ℕ} {object : FreeSwitchDevice}
    (hfind : s.deviceMap.find? k = some p) (hobject : s.devices p = some object) :
    object.strDevice = k := by
  have hname : s.shape.leftName p = some k := (hs.2.consistent.left k p).1 hfind
  simp only [FreeSWITCH.shape, hobject, Option.map_some] at hname
  exact Option.some.inj hname

/-- **A monitor** is started where an id is left for it. -/
lemma monitorStart_answers_iff {sender : ℕ} {invokeID : ℤ} {monitorObject : DeviceID}
    (hs : Kept False s) (hplace : place.Free s) :
    (∃ s', (handle place (.monitorStart sender invokeID monitorObject)).run s = .ok ((), s') ∧
      AnsweredOnce (.monitorStart sender invokeID monitorObject) s s') ↔
        Action.AnswersOnce s (.monitorStart sender invokeID monitorObject) := by
  have hanswered {s' : FreeSWITCH}
      (hrun : (handle place (.monitorStart sender invokeID monitorObject)).run s = .ok ((), s')) :
      AnsweredOnce (.monitorStart sender invokeID monitorObject) s s' :=
    .of_leaves rfl trivial hrun
  by_cases hrefused : monitorObject.callNr = "" ∨ device2Type monitorObject = .unknown
  · have hrunning : Running (handle place (.monitorStart sender invokeID monitorObject)) :=
      sat_ite (fun _ => running_modify) fun h => absurd hrefused h
    obtain ⟨s', hrun⟩ := handle_returns hs hrunning trivial
    exact iff_of_true ⟨s', hrun, hanswered hrun⟩ (.inl hrefused)
  · have hfinds : Sat _ (Holds s.devices s.deviceMap s.lastXRefID)
        (handle place (.monitorStart sender invokeID monitorObject)) _ :=
      monitorStart_finds hplace.device
        (fun k p hfind object hobject => strDevice_of_find? hs hfind hobject) hrefused
    constructor
    · rintro ⟨s', hrun, -⟩
      exact .inr (hfinds.ok ⟨rfl, rfl, rfl⟩ hrun)
    · rintro (h | ⟨id, hid, hfree⟩)
      · exact absurd h hrefused
      · have hrunning : Sat (· = Fault.danglingPointer) (· = s)
            (handle place (.monitorStart sender invokeID monitorObject)) fun _ _ => True := by
          refine (hfinds.allow fun fault hfault => hfault.resolve_right fun hall => ?_).mono
            (fun t ht => ?_) fun _ _ _ => trivial
          · obtain ⟨j, hj, htried⟩ := exists_triedID hid s.lastXRefID
            exact hfree (htried ▸ hall j hj)
          · subst ht
            exact ⟨rfl, rfl, rfl⟩
        obtain ⟨s', hrun⟩ := handle_returns hs hrunning rfl
        exact ⟨s', hrun, hanswered hrun⟩

end Csta
