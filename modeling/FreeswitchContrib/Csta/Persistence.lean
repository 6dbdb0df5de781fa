import FreeswitchContrib.Csta.NoLeaks

/-!
# What the handlers do not change about devices and connections

A device that is there keeps its type, it is given no monitor except by `AddMonitor`, and what is
put into its map is a connection that has just been made.  A connection comes to be null in
`OnChannelHangup` only.

* `Persistent` — properties that such operations keep.
* **`handle_persists`** — every handler keeps them, but for these two functions.
-/

namespace Csta

open Faulting

/-- A property of the devices and the connections that the operations on them keep. -/
class Persistent (I : FreeSWITCH → Prop) : Prop where
  other : ∀ {s s' : FreeSWITCH}, s'.devices = s.devices → s'.connections = s.connections →
    I s → I s'
  newDevice : ∀ {s : FreeSWITCH} {p : ℕ} {object : FreeSwitchDevice}, s.devices p = none →
    object.monitoringSessions = .empty → object.connections = .empty →
      I s → I { s with devices := Function.update s.devices p (some object) }
  setDevice : ∀ {s : FreeSWITCH} {p : ℕ} {old object : FreeSwitchDevice},
    s.devices p = some old → object.deviceType = old.deviceType →
      (∀ id, (object.monitoringSessions.find? id).isSome →
        (old.monitoringSessions.find? id).isSome) →
      (∀ pCall x, object.connections.find? pCall = some x → old.connections.find? pCall = some x ∨
        ∃ connection, s.connections x = some connection ∧ connection.state ≠ .null) →
      I s → I { s with devices := Function.update s.devices p (some object) }
  setConnection : ∀ {s : FreeSWITCH} {x : ℕ} {object : FreeSwitchConnection},
    (object.state = .null → ∃ old, s.connections x = some old ∧ old.state = .null) →
      I s → I { s with connections := Function.update s.connections x (some object) }
  freeConnection : ∀ {s : FreeSWITCH} {x : ℕ},
    I s → I { s with connections := Function.update s.connections x none }

/-- The property holds where the program returns. -/
abbrev Persists (I : FreeSWITCH → Prop) {α : Type} (m : Handler α) : Prop :=
  Sat (fun _ => True) I m fun _ => I

set_option linter.unusedSectionVars false

variable {I : FreeSWITCH → Prop} [Persistent I]

/-! ## Operations -/

section

variable {p pCall : ℕ} {uuid : String} {place : Place}

lemma persists_pure {α : Type} {a : α} : Persists I (pure a) := sat_pure fun _ hs => hs

lemma persists_throw {α : Type} {fault : Fault} : Persists I (throw fault : Handler α) :=
  sat_throw fun _ _ => trivial

lemma persists_bind {α β : Type} {m : Handler α} {f : α → Handler β} (hm : Persists I m)
    (hf : ∀ a, Persists I (f a)) : Persists I (m >>= f) := sat_bind hm hf

lemma persists_ite {α : Type} {c : Prop} [Decidable c] {m m' : Handler α} (h : Persists I m)
    (h' : Persists I m') : Persists I (if c then m else m') := sat_ite (fun _ => h) fun _ => h'

lemma persists_get : Persists I (get : Handler FreeSWITCH) := sat_get fun _ hs => hs

/-- A change of anything but the devices and the connections. -/
lemma persists_modify {f : FreeSWITCH → FreeSWITCH} (hdevices : ∀ s, (f s).devices = s.devices)
    (hconnections : ∀ s, (f s).connections = s.connections) :
    Persists I (modify f : Handler PUnit) :=
  sat_modify fun s hs => Persistent.other (hdevices s) (hconnections s) hs

lemma perform_persists (effect : Effect) : Persists I (perform effect) :=
  persists_modify (fun _ => rfl) fun _ => rfl

lemma deref_persists {ω : Type} {heap : FreeSWITCH → ℕ → Option ω} : Persists I (deref heap p) :=
  persists_bind persists_get fun s => by
    cases heap s p with
    | some object => exact persists_pure
    | none => exact persists_throw

/-- What is behind the pointer is what it is said to be. -/
lemma deref_finds {ω : Type} {P : FreeSWITCH → Prop} {heap : FreeSWITCH → ℕ → Option ω} :
    Sat (fun _ => True) P (deref heap p) fun object s => P s ∧ heap s p = some object := by
  refine sat_bind (Q := fun t s => t = s ∧ P s) (sat_get fun s hs => ⟨rfl, hs⟩) fun t => ?_
  cases h : heap t p with
  | none => exact sat_throw fun _ _ => trivial
  | some object => exact sat_pure fun s ⟨ht, hs⟩ => ⟨hs, ht ▸ h⟩

lemma setCall_persists {object : FreeSwitchCall} : Persists I (setCall p object) :=
  persists_modify (fun _ => rfl) fun _ => rfl

lemma checkFree_finds {ω : Type} {P : FreeSWITCH → Prop} {heap : FreeSWITCH → ℕ → Option ω} :
    Sat (fun _ => True) P (checkFree heap p) fun _ s => P s ∧ heap s p = none := by
  refine sat_bind (Q := fun t s => t = s ∧ P s) (sat_get fun s hs => ⟨rfl, hs⟩) fun t => ?_
  cases h : heap t p with
  | some object => exact sat_throw fun _ _ => trivial
  | none => exact sat_pure fun s ⟨ht, hs⟩ => ⟨hs, ht ▸ h⟩

lemma findConnection_persists : Persists I (findConnection p pCall) :=
  persists_bind deref_persists fun _ => persists_pure

lemma searchConnection_persists {entries : List (ℕ × ℕ)} :
    Persists I (searchConnection uuid entries) := by
  induction entries with
  | nil => exact persists_pure
  | cons entry rest ih =>
    exact persists_bind deref_persists fun _ => persists_ite persists_pure ih

lemma findConnectionByUUID_persists : Persists I (findConnectionByUUID p uuid) :=
  persists_bind deref_persists fun _ => searchConnection_persists

/-- The state of a connection is set to one that is not null. -/
lemma setState_persists {pConnection : ℕ} {state : ConnectionState} (h : state ≠ .null) :
    Persists I (setState pConnection state) :=
  persists_bind deref_persists fun _ => sat_modify fun _ hs =>
    Persistent.setConnection (fun hnull => absurd hnull h) hs

lemma addConnection_persists {channel : String} {direction : Direction} :
    Persists I (addConnection place p uuid channel pCall direction) := by
  refine persists_bind (checkFree_finds.mono (fun _ hs => hs) fun _ _ hs => hs.1) fun _ => ?_
  refine persists_bind deref_persists fun callObject => ?_
  refine sat_bind deref_finds fun deviceObject => ?_
  refine sat_bind (Q := fun _ s => I s ∧ s.devices p = some deviceObject ∧
    ∃ connection, s.connections place.connection = some connection ∧ connection.state ≠ .null)
    (sat_modify fun s hs => ?_) fun _ => ?_
  · exact ⟨Persistent.setConnection nofun hs.1, hs.2, _, Function.update_self _ _ _, nofun⟩
  refine sat_bind (Q := fun _ s => I s ∧ s.devices p = some deviceObject ∧
    ∃ connection, s.connections place.connection = some connection ∧ connection.state ≠ .null)
    (sat_modify fun s hs => ?_) fun _ => ?_
  · exact ⟨Persistent.other (s := s) rfl rfl hs.1, hs.2⟩
  refine sat_bind (Q := fun _ => I) (sat_modify fun s hs => ?_) fun _ => persists_pure
  refine Persistent.setDevice hs.2.1 rfl (fun _ hid => hid) (fun k x hx => ?_) hs.1
  rw [OrderedMap.find?_insert] at hx
  split_ifs at hx with hk
  · exact .inr (Option.some.inj hx ▸ hs.2.2)
  · exact .inl hx

lemma deleteConnection_persists : Persists I (deleteConnection p pCall) := by
  refine sat_bind deref_finds fun deviceObject => ?_
  cases deviceObject.connections.find? pCall with
  | none => exact sat_pure fun _ hs => hs.1
  | some pConnection =>
    refine sat_bind (Q := fun _ s => I s ∧ s.devices p = some deviceObject)
      (deref_finds.mono (fun _ hs => hs) fun _ _ hs => hs.1) fun _ => ?_
    refine sat_bind (Q := fun _ s => I s ∧ s.devices p = some deviceObject)
      (deref_finds.mono (fun _ hs => hs) fun _ _ hs => hs.1) fun callObject => ?_
    refine sat_bind (Q := fun _ s => I s ∧ s.devices p = some deviceObject)
      (sat_modify fun s hs => ⟨Persistent.freeConnection hs.1, hs.2⟩) fun _ => ?_
    refine sat_bind (Q := fun _ => I) (sat_modify fun s hs => ?_) fun _ => setCall_persists
    refine Persistent.setDevice hs.2 rfl (fun _ hid => hid) (fun k x hx => .inl ?_) hs.1
    rw [OrderedMap.find?_erase] at hx
    split_ifs at hx
    exact hx

lemma sendEvent_persists {event : CSTAEvent} : Persists I (sendEvent p event) :=
  persists_bind deref_persists fun _ => sat_forM fun _ _ => perform_persists _

lemma sendIfMonitored_persists {event : CSTAEvent} : Persists I (sendIfMonitored p event) :=
  persists_bind deref_persists fun _ => persists_ite persists_pure sendEvent_persists

lemma prepareDevice_persists {name : String} {type : DeviceType} :
    Persists I (prepareDevice place name type) := by
  refine persists_bind persists_get fun s => ?_
  cases s.deviceMap.find? (type2Prefix type ++ name) with
  | some p => exact persists_pure
  | none =>
    refine sat_bind checkFree_finds fun _ => ?_
    refine sat_bind (Q := fun _ => I) (sat_modify fun s hs =>
      Persistent.newDevice hs.2 rfl rfl hs.1) fun _ => ?_
    exact persists_bind (persists_modify (fun _ => rfl) fun _ => rfl) fun _ => persists_pure

lemma getCall_persists : Persists I (getCall uuid) :=
  persists_bind persists_get fun _ => persists_pure

lemma newCall_persists : Persists I (newCall place uuid) :=
  persists_bind (checkFree_finds.mono (fun _ hs => hs) fun _ _ hs => hs.1) fun _ =>
    persists_bind setCall_persists fun _ =>
      persists_bind (persists_modify (fun _ => rfl) fun _ => rfl) fun _ => persists_pure

lemma findCallerCalled_persists {profile : Option CallerProfile} :
    Persists I (findCallerCalled uuid profile) := by
  cases profile with
  | none => exact persists_bind (perform_persists _) fun _ => persists_pure
  | some profile =>
    exact persists_bind (perform_persists _) fun _ =>
      persists_bind (perform_persists _) fun _ => persists_pure

/-! ## PrepareCallData -/

lemma findOrCreateCall_persists {uuid2 : Option String} {bCreateCall : Bool} :
    Persists I (findOrCreateCall place uuid uuid2 bCreateCall) := by
  refine persists_bind getCall_persists fun found => ?_
  cases found with
  | some pCall => exact persists_pure
  | none =>
    refine persists_bind persists_get fun s => ?_
    cases uuid2.bind s.callMap.find? with
    | some pCall => exact persists_pure
    | none =>
      exact persists_ite (persists_bind newCall_persists fun _ => persists_pure) persists_pure

lemma findSubscriber_persists {channel : String} : Persists I (findSubscriber place channel) :=
  persists_ite persists_pure
    (persists_ite persists_pure (persists_bind prepareDevice_persists fun _ => persists_pure))

/-- The trunk's connection keeps its state when it is given its UUID and its channel. -/
lemma collectTrunk_persists {wanted : Wanted} {channel : String} {pConnection : ℕ}
    {found : CallData} : Persists I (collectTrunk wanted uuid channel p pConnection found) := by
  refine sat_bind deref_finds fun object => ?_
  refine sat_ite (fun _ => ?_) fun _ => sat_pure fun _ hs => hs.1
  exact sat_bind (Q := fun _ => I) (sat_modify fun s hs =>
    Persistent.setConnection (fun hnull => ⟨object, hs.2, hnull⟩) hs.1) fun _ => persists_pure

lemma collect_persists {wanted : Wanted} {channel : String} {found : CallData}
    {entry : String × ℕ} : Persists I (collect wanted pCall uuid channel found entry) := by
  refine persists_bind deref_persists fun object =>
    persists_ite persists_pure (persists_ite ?_ persists_pure)
  cases object.connections.find? pCall with
  | none =>
    exact persists_bind deref_persists fun _ =>
      persists_bind (perform_persists _) fun _ => persists_pure
  | some pConnection => exact collectTrunk_persists

lemma collectAll_persists {wanted : Wanted} {channel : String} {subscriber : Option ℕ} :
    Persists I (collectAll wanted pCall uuid channel subscriber) :=
  persists_ite (persists_bind deref_persists fun _ =>
    sat_foldlM (fun _ => I) (fun _ _ _ => collect_persists) _) persists_pure

lemma prepareCallData_persists {uuid2 : Option String} {channel : String}
    {bCreateCall : Bool} {wanted : Wanted} {profile : Option CallerProfile} :
    Persists I (prepareCallData place uuid uuid2 channel bCreateCall wanted profile) := by
  refine persists_bind findOrCreateCall_persists fun found => ?_
  cases found with
  | none => exact persists_pure
  | some pCall =>
    refine persists_bind findSubscriber_persists fun subscriber => ?_
    cases subscriber with
    | none => exact persists_pure
    | some subscriber =>
      refine persists_bind collectAll_persists fun data => ?_
      cases data.device with
      | none => exact persists_pure
      | some pDevice =>
        refine persists_bind findConnection_persists fun _ => ?_
        exact persists_bind (persists_ite findCallerCalled_persists persists_pure)
          fun _ => persists_pure

end

/-! ## Handlers of events -/

section

variable {place : Place} {event : Event} {profile : Option CallerProfile}

lemma unlock_persists : Persists I (perform .unlock) := perform_persists _

lemma deviceIdOf_persists {found : Option ℕ} : Persists I (deviceIdOf found) := by
  cases found with
  | none => exact persists_pure
  | some p => exact persists_bind deref_persists fun _ => persists_pure

lemma foundOrAdded_persists {uuid channel : String} {prepared : Prepared} :
    Persists I (foundOrAdded place uuid channel prepared) := by
  unfold foundOrAdded
  cases prepared.pConnection with
  | none => exact addConnection_persists
  | some pConnection => exact persists_pure

lemma onChannelCreate_persists : Persists I (onChannelCreate place event) := by
  unfold onChannelCreate
  cases event.getHeader "Channel-Name" with
  | none => exact persists_pure
  | some channel =>
    refine persists_ite persists_pure (persists_bind (perform_persists _) fun _ => ?_)
    refine persists_bind prepareDevice_persists fun p => ?_
    refine persists_bind deref_persists fun object => ?_
    cases event.getHeader "Call-Direction" with
    | none => exact unlock_persists
    | some direction =>
      cases event.getHeader "Unique-ID" with
      | none => exact unlock_persists
      | some uuid =>
        refine persists_ite unlock_persists (persists_bind getCall_persists fun found => ?_)
        cases found with
        | some pCall => exact unlock_persists
        | none =>
          refine persists_bind newCall_persists fun _ => ?_
          refine persists_bind addConnection_persists fun _ => ?_
          exact persists_bind sendIfMonitored_persists fun _ => unlock_persists

/-- The handlers of the events of a leg do nothing where the call and the device are not found. -/
lemma prepared_persists {uuid channel : String} {uuid2 : Option String} {bCreateCall : Bool}
    {wanted : Wanted} {act : Prepared → Handler Unit} (h : ∀ prepared, Persists I (act prepared)) :
    Persists I (do
      perform .lock
      match ← prepareCallData place uuid uuid2 channel bCreateCall wanted profile with
      | none => perform .unlock
      | some prepared => act prepared) := by
  refine persists_bind (perform_persists _) fun _ => ?_
  refine persists_bind prepareCallData_persists fun found => ?_
  cases found with
  | none => exact unlock_persists
  | some prepared => exact h prepared

lemma onProgress_persists : Persists I (onProgress place event profile) := by
  unfold onProgress
  cases event.leg with
  | none => exact persists_pure
  | some leg =>
    refine prepared_persists fun prepared => persists_bind foundOrAdded_persists fun _ => ?_
    refine persists_bind (setState_persists (by split_ifs <;> nofun)) fun _ => ?_
    refine persists_bind deviceIdOf_persists fun _ => persists_bind deviceIdOf_persists fun _ => ?_
    refine persists_bind deref_persists fun _ => persists_bind deref_persists fun _ => ?_
    exact persists_bind (sat_forM fun _ _ => sendEvent_persists) fun _ => unlock_persists

lemma onChannelAnswer_persists : Persists I (onChannelAnswer place event profile) := by
  unfold onChannelAnswer
  cases event.leg with
  | none => exact persists_pure
  | some leg =>
    refine prepared_persists fun prepared => persists_bind foundOrAdded_persists fun _ => ?_
    refine persists_bind (setState_persists nofun) fun _ => ?_
    refine persists_bind deviceIdOf_persists fun _ => persists_bind deviceIdOf_persists fun _ => ?_
    refine persists_bind deviceIdOf_persists fun _ => persists_bind deref_persists fun _ => ?_
    refine persists_bind sendIfMonitored_persists fun _ => ?_
    exact persists_bind (sat_forM fun _ _ => sendIfMonitored_persists) fun _ => unlock_persists

lemma onDtmf_persists : Persists I (onDtmf place event) := by
  unfold onDtmf
  cases event.leg with
  | none => exact persists_pure
  | some leg =>
    refine prepared_persists fun prepared => ?_
    cases event.getHeader "DTMF-Digit" with
    | none => exact unlock_persists
    | some digit =>
      refine persists_bind deref_persists fun _ => persists_bind deref_persists fun _ => ?_
      refine persists_bind sendIfMonitored_persists fun _ => ?_
      exact persists_bind (sat_forM fun _ _ => sendIfMonitored_persists) fun _ => unlock_persists

lemma onFile_persists {kind : EventKind} {cause : Option EventCause} {file : String → String} :
    Persists I (onFile place event kind cause file) := by
  unfold onFile
  cases event.leg with
  | none => exact persists_pure
  | some leg =>
    refine prepared_persists fun prepared => ?_
    cases event.getHeader "Application-Data" with
    | none => exact unlock_persists
    | some data =>
      refine persists_bind deref_persists fun _ => persists_bind deref_persists fun _ => ?_
      exact persists_bind (sat_forM fun _ _ => sendIfMonitored_persists) fun _ => unlock_persists

end

section

variable {place : Place} {name : Option String} {session : CoreSession}

lemma enterCall_persists {type : DeviceType} {uuid channel : String} {direction : Direction} :
    Persists I (enterCall place name type session uuid channel direction) := by
  refine persists_bind ?_ fun given => persists_bind prepareDevice_persists fun _ => ?_
  · cases name with
    | none => exact persists_throw
    | some given => exact persists_pure
  · refine persists_bind (persists_bind getCall_persists fun found => ?_) fun _ =>
      persists_bind addConnection_persists fun _ => persists_pure
    cases found with
    | none => exact newCall_persists
    | some pCall => exact persists_pure

lemma firstTrunk_persists {entries : List (String × ℕ)} : Persists I (firstTrunk entries) := by
  induction entries with
  | nil => exact persists_pure
  | cons entry rest ih => exact persists_bind deref_persists fun _ => persists_ite persists_pure ih

lemma onCallQueued_persists : Persists I (onCallQueued place name session) := by
  refine persists_bind (perform_persists _) fun _ => ?_
  refine persists_bind enterCall_persists fun entered => ?_
  refine persists_bind (setState_persists nofun) fun _ => persists_bind deref_persists fun _ => ?_
  refine persists_bind deref_persists fun _ => ?_
  refine persists_bind (persists_ite firstTrunk_persists persists_pure) fun _ => ?_
  exact persists_bind (sat_forM fun _ _ => sendIfMonitored_persists) fun _ => unlock_persists

lemma onCallNetworkIncoming_persists : Persists I (onCallNetworkIncoming place name session) :=
  persists_bind (perform_persists _) fun _ => persists_bind enterCall_persists fun _ =>
    persists_bind deref_persists fun _ => persists_bind sendIfMonitored_persists fun _ =>
      unlock_persists

lemma onCallNetworkOutgoing_persists : Persists I (onCallNetworkOutgoing place name session) :=
  persists_bind (perform_persists _) fun _ => persists_bind enterCall_persists fun _ =>
    unlock_persists

end

lemma isSome_erased {ids : List String} {monitors : OrderedMap String ℕ} {id : String}
    (h : ((ids.foldl OrderedMap.erase monitors).find? id).isSome) :
    (monitors.find? id).isSome := by
  induction ids generalizing monitors with
  | nil => exact h
  | cons other rest ih =>
    have hrest := ih h
    rw [OrderedMap.find?_erase] at hrest
    split_ifs at hrest
    · cases hrest
    · exact hrest

lemma removeMonitor_persists {session p : ℕ} : Persists I (removeMonitor session p) :=
  sat_bind deref_finds fun _ => sat_modify fun _ hs =>
    Persistent.setDevice hs.2 rfl (fun _ hid => isSome_erased hid) (fun _ _ hx => .inl hx) hs.1

lemma onSessionFinished_persists {session : ℕ} : Persists I (onSessionFinished session) :=
  persists_bind (perform_persists _) fun _ => persists_bind persists_get fun _ =>
    persists_bind (sat_forM fun _ _ => removeMonitor_persists) fun _ => unlock_persists

/-! ## Requests -/

section

variable {place : Place} {sender : ℕ} {invokeID : ℤ}

lemma respond_persists {response : Response} : Persists I (respond sender response) :=
  perform_persists _

lemma refuse_persists {error : ErrorCode} : Persists I (refuse sender invokeID error) :=
  persists_bind unlock_persists fun _ => respond_persists

lemma answered_persists {response : Response} :
    Persists I (do respond sender response; perform .unlock) :=
  persists_bind respond_persists fun _ => unlock_persists

lemma anyMonitoredWithID_persists {crossRefID : String} {entries : List (String × ℕ)} :
    Persists I (anyMonitoredWithID crossRefID entries) := by
  induction entries with
  | nil => exact persists_pure
  | cons entry rest ih => exact persists_bind deref_persists fun _ => persists_ite persists_pure ih

lemma searchXRefID_persists {n : ℕ} {crossRefID : String} :
    Persists I (searchXRefID n crossRefID) := by
  induction n generalizing crossRefID with
  | zero => exact persists_throw
  | succ n ih =>
    refine persists_bind (persists_bind (perform_persists _) fun _ =>
      persists_bind persists_get fun _ => persists_bind anyMonitoredWithID_persists fun _ =>
        persists_bind unlock_persists fun _ => persists_pure) fun _ => ?_
    exact persists_ite (persists_bind (persists_bind persists_get fun _ =>
      persists_bind (persists_modify (fun _ => rfl) fun _ => rfl) fun _ => persists_pure)
        fun _ => ih) persists_pure

lemma monitorStart_persists {monitorObject : DeviceID}
    (h : ∀ p id, Persists I (addMonitor p sender id)) :
    Persists I (monitorStart place sender invokeID monitorObject) := by
  refine persists_ite respond_persists (persists_bind (perform_persists _) fun _ => ?_)
  refine persists_bind prepareDevice_persists fun _ => persists_bind deref_persists fun _ => ?_
  refine persists_bind searchXRefID_persists fun _ => persists_bind (h _ _) fun _ => ?_
  exact persists_ite answered_persists answered_persists

lemma snapshotDevice_persists {snapshotObject : DeviceID} :
    Persists I (snapshotDevice place sender invokeID snapshotObject) := by
  refine persists_ite respond_persists (persists_bind (perform_persists _) fun _ => ?_)
  refine persists_bind prepareDevice_persists fun _ => persists_bind deref_persists fun _ => ?_
  refine persists_bind (sat_mapM fun _ _ => ?_) fun _ => answered_persists
  exact persists_bind deref_persists fun _ => persists_bind deref_persists fun _ => persists_pure

lemma snapshotMember_persists {pCall : ℕ} {uuid : String} {entry : String × ℕ} :
    Persists I (snapshotMember pCall uuid entry) := by
  refine persists_bind deref_persists fun object => ?_
  cases object.connections.find? pCall with
  | none => exact persists_bind (perform_persists _) fun _ => persists_pure
  | some pConnection => exact persists_bind deref_persists fun _ => persists_pure

lemma snapshotCall_persists {callID : String} {profile : Option CallerProfile} :
    Persists I (snapshotCall sender invokeID callID profile) := by
  refine persists_bind (perform_persists _) fun _ => persists_bind getCall_persists fun found => ?_
  cases found with
  | none => exact refuse_persists
  | some pCall =>
    refine persists_bind deref_persists fun _ => ?_
    refine persists_bind (sat_mapM fun _ _ => snapshotMember_persists) fun _ => ?_
    exact persists_bind findCallerCalled_persists fun _ => answered_persists

lemma setMakeCallOriginator_persists {value : Bool} {pDevice : Option ℕ} :
    Persists I (setMakeCallOriginator value pDevice) := by
  cases pDevice with
  | none => exact persists_pure
  | some p =>
    exact sat_bind deref_finds fun _ => sat_modify fun _ hs =>
      Persistent.setDevice hs.2 rfl (fun _ hid => hid) (fun _ _ hx => .inl hx) hs.1

lemma makeCall_persists {device : DeviceID} :
    Persists I (makeCall place sender invokeID device) := by
  refine persists_bind (persists_ite (persists_bind prepareDevice_persists fun _ => persists_pure)
    persists_pure) fun pDevice => persists_bind setMakeCallOriginator_persists fun _ => ?_
  exact persists_modify (fun _ => rfl) fun _ => rfl

lemma makeCallOriginated_persists {n : ℕ} {session : Option String} :
    Persists I (makeCallOriginated n session) := by
  refine persists_bind persists_get fun s => ?_
  cases s.pendingMakeCalls[n]? with
  | none => exact persists_pure
  | some pending =>
    refine persists_bind (persists_modify (fun _ => rfl) fun _ => rfl) fun _ => ?_
    cases session with
    | none => exact persists_bind respond_persists fun _ => setMakeCallOriginator_persists
    | some uuid =>
      exact persists_bind respond_persists fun _ =>
        persists_bind setMakeCallOriginator_persists fun _ => perform_persists _

lemma withConnection_persists {connectionID : ConnectionID} {act : ℕ → Handler Unit}
    (h : ∀ pConnection, Persists I (act pConnection)) :
    Persists I (withConnection sender invokeID connectionID act) := by
  refine persists_bind (perform_persists _) fun _ => persists_bind getCall_persists fun found => ?_
  cases found with
  | none => exact refuse_persists
  | some pCall =>
    refine persists_bind deref_persists fun object => ?_
    cases object.devices.find? connectionID.deviceID.callNr with
    | none => exact refuse_persists
    | some pDevice =>
      refine persists_bind findConnection_persists fun found => ?_
      cases found with
      | none => exact refuse_persists
      | some pConnection => exact h pConnection

lemma withSession_persists {error : ErrorCode} {located : Bool} {act : String → Handler Unit}
    (h : ∀ uuid, Persists I (act uuid)) (pConnection : ℕ) :
    Persists I (withSession sender invokeID error located act pConnection) :=
  persists_bind deref_persists fun _ => persists_bind (perform_persists _) fun _ =>
    persists_ite (h _) refuse_persists

lemma answerAndRelease_persists {service : Service} {accepted : Bool} (uuid : String) :
    Persists I (answerAndRelease sender invokeID service accepted uuid) :=
  persists_bind (perform_persists _) fun _ => persists_bind (perform_persists _) fun _ =>
    unlock_persists

section

variable {connectionID : ConnectionID} {located : Bool}

lemma answerCall_persists {answered : Bool} :
    Persists I (answerCall sender invokeID connectionID located answered) :=
  withConnection_persists (withSession_persists answerAndRelease_persists)

lemma playMessage_persists {broadcast : Bool} :
    Persists I (playMessage sender invokeID connectionID broadcast) :=
  withConnection_persists fun _ => persists_bind deref_persists fun _ => answered_persists

lemma recordMessage_persists {inProgress eventCreated : Bool} :
    Persists I (recordMessage sender invokeID connectionID located inProgress eventCreated) :=
  withConnection_persists (withSession_persists fun _ =>
    persists_ite refuse_persists (answerAndRelease_persists _))

lemma stopMessage_persists {inProgress : Bool} :
    Persists I (stopMessage sender invokeID connectionID located inProgress) :=
  withConnection_persists (withSession_persists fun _ =>
    persists_ite (answerAndRelease_persists _) refuse_persists)

lemma clearConnection_persists {hungUp : Bool} :
    Persists I (clearConnection sender invokeID connectionID located hungUp) :=
  withConnection_persists (withSession_persists answerAndRelease_persists)

end

lemma transferOthers_persists {done : Response} {core : Transfer} {p pCall : ℕ} {u : String}
    {entries : List (String × ℕ)} :
    Persists I (transferOthers sender invokeID done core p pCall u entries) := by
  induction entries with
  | nil => exact persists_pure
  | cons entry rest ih =>
    refine persists_ite ih (persists_bind findConnection_persists fun found => ?_)
    cases found with
    | none =>
      exact persists_bind (perform_persists _) fun _ =>
        persists_bind refuse_persists fun _ => persists_pure
    | some pConnection =>
      refine persists_bind deref_persists fun _ => persists_bind (perform_persists _) fun _ => ?_
      refine persists_ite ?_ (persists_bind refuse_persists fun _ => persists_pure)
      exact persists_bind respond_persists fun _ => persists_bind (perform_persists _) fun _ => ih

lemma transfer_persists {activeCall : ConnectionID} {core : Transfer} {done : String → Response} :
    Persists I (transfer sender invokeID activeCall core done) := by
  refine persists_bind (perform_persists _) fun _ => persists_bind getCall_persists fun found => ?_
  cases found with
  | none => exact refuse_persists
  | some pCall =>
    refine persists_bind deref_persists fun object => ?_
    cases object.devices.find? activeCall.deviceID.callNr with
    | none => exact refuse_persists
    | some p =>
      refine persists_bind transferOthers_persists fun finished => ?_
      refine persists_ite (persists_bind deleteConnection_persists fun _ => unlock_persists) ?_
      exact persists_pure

end

lemma singleStepTransferCall_persists {sender : ℕ} {invokeID : ℤ} {activeCall : ConnectionID}
    {transferredTo : DeviceID} {core : Transfer} :
    Persists I (singleStepTransferCall sender invokeID activeCall transferredTo core) :=
  transfer_persists

lemma deflectCall_persists {sender : ℕ} {invokeID : ℤ} {callToBeDiverted : ConnectionID}
    {core : Transfer} : Persists I (deflectCall sender invokeID callToBeDiverted core) :=
  transfer_persists

/-! ## A hangup -/

section

variable {place : Place} {event : Event}

lemma hangupCause_persists {cause : Option String} : Persists I (hangupCause cause) := by
  cases cause with
  | none => exact persists_throw
  | some cause =>
    exact persists_ite persists_pure (persists_ite persists_pure (persists_ite persists_pure
      (persists_ite persists_pure persists_pure)))

lemma clearQueue_persists {pCall : ℕ} {uuid : String} {cause : Option EventCause}
    {pQueue : Option ℕ} : Persists I (clearQueue pCall uuid cause pQueue) := by
  cases pQueue with
  | none => exact persists_pure
  | some q =>
    exact persists_bind deref_persists fun _ => persists_bind sendIfMonitored_persists fun _ =>
      deleteConnection_persists

lemma deleteIfEmpty_persists {pCall : ℕ} : Persists I (deleteIfEmpty pCall) :=
  persists_bind deref_persists fun _ =>
    persists_ite (persists_modify (fun _ => rfl) fun _ => rfl) persists_pure

/-- The states of the connections do not matter to the property. -/
lemma onChannelHangup_persists (h : ∀ {s : FreeSWITCH} {x : ℕ} {object : FreeSwitchConnection},
    I s → I { s with connections := Function.update s.connections x (some object) }) :
    Persists I (onChannelHangup place event) := by
  unfold onChannelHangup
  cases event.leg with
  | none => exact persists_pure
  | some leg =>
    refine prepared_persists fun prepared => persists_bind deref_persists fun _ => ?_
    refine persists_bind deref_persists fun _ => persists_bind hangupCause_persists fun _ => ?_
    refine persists_bind (sat_foldlM (fun _ => I) (fun pQueue entry _ => ?_) _) fun _ => ?_
    · refine persists_bind findConnectionByUUID_persists fun found => ?_
      cases found with
      | none => exact persists_bind (perform_persists _) fun _ => persists_pure
      | some pConnection =>
        refine persists_bind deref_persists fun _ => persists_bind deref_persists fun _ => ?_
        refine sat_bind (Q := fun _ => I) (sat_modify fun _ hs => h hs) fun _ => ?_
        exact persists_bind sendIfMonitored_persists fun _ => persists_pure
    · refine persists_bind deleteConnection_persists fun _ => ?_
      refine persists_bind clearQueue_persists fun _ => ?_
      exact persists_bind deleteIfEmpty_persists fun _ => unlock_persists

end

/-! ## All handlers -/

/-- The two functions that the property does not answer for. -/
def Action.Undisturbing (I : FreeSWITCH → Prop) : Action → Prop
  | .monitorStart sender _ _ => ∀ p id, Persists I (addMonitor p sender id)
  | .channelHangup event => ∀ place, Persists I (onChannelHangup place event)
  | _ => True

/-- **Every handler** keeps the property. -/
theorem handle_persists {place : Place} {action : Action} (h : action.Undisturbing I) :
    Persists I (handle place action) := by
  cases action with
  | channelCreate => exact onChannelCreate_persists
  | progress => exact onProgress_persists
  | channelAnswer => exact onChannelAnswer_persists
  | channelHangup => exact h place
  | dtmf => exact onDtmf_persists
  | playback => exact onFile_persists
  | record => exact onFile_persists
  | callQueued => exact onCallQueued_persists
  | callNetworkIncoming => exact onCallNetworkIncoming_persists
  | callNetworkOutgoing => exact onCallNetworkOutgoing_persists
  | sessionFinished => exact onSessionFinished_persists
  | monitorStart => exact monitorStart_persists h
  | snapshotDevice => exact snapshotDevice_persists
  | snapshotCall => exact snapshotCall_persists
  | makeCall => exact makeCall_persists
  | makeCallOriginated => exact makeCallOriginated_persists
  | answerCall => exact answerCall_persists
  | playMessage => exact playMessage_persists
  | recordMessage => exact recordMessage_persists
  | stopMessage => exact stopMessage_persists
  | clearConnection => exact clearConnection_persists
  | singleStepTransferCall => exact singleStepTransferCall_persists
  | deflectCall => exact deflectCall_persists

end Csta
