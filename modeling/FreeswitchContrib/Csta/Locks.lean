import FreeswitchContrib.Csta.NoLeaks
import FreeswitchContrib.Csta.Records

/-!
# Locks of the handlers

The mutex is as deep at the end of a handler as it was at its start, and every session that has been
located is released, but for two ways out of the requests to record and to stop a message.

* `Stands` — the maps are these, and so is the tally.
* `transfer_tally` — what a transfer adds depends on the other devices of its call.
* **`locks_released_iff`** — when exactly a handler releases what it has locked.
-/

namespace Csta

open Faulting Tallying

/-- The maps are these, and so is the tally. -/
abbrev Stands (S : Shape) (n : Tally) (s : FreeSWITCH) : Prop := At S s ∧ s.tally = n

variable {S : Shape} {p pCall x : ℕ} {u : String} {n : Tally}

/-! ## Steps that leave the maps -/

lemma stands_of_leaves {α : Type} {m : Handler α} {w : Tally} {result : α → Prop}
    (hw : Leaves Counted m w) (hm : Quiet S m result) :
    Safe (Stands S n) m fun a s => Stands S (n + w) s ∧ result a :=
  (hw.with hm n).mono (fun _ hs => hs) fun _ _ hs => ⟨⟨hs.1.1, hs.2⟩, hs.1.2⟩

lemma stands_of_silent {α : Type} {m : Handler α} {result : α → Prop} (hw : Leaves Counted m 0)
    (hm : Quiet S m result) : Safe (Stands S n) m fun a s => Stands S n s ∧ result a := by
  have h := stands_of_leaves (n := n) hw hm
  rw [add_zero] at h
  exact h

lemma perform_stands {effect : Effect} (hevent : effect.isEvent = false)
    (h : ∀ device call, effect ≠ .withoutConnection device call) :
    Safe (Stands S n) (perform effect) fun _ => Stands S (n + effect.tally) := by
  have hw : Leaves Counted (perform effect) effect.tally := perform_leaves _ hevent
  exact (hw.with (perform_quiet h) n).mono (fun _ hs => hs) fun _ _ hs => hs

lemma refuse_stands {sender : ℕ} {invokeID : ℤ} {error : ErrorCode} :
    Safe (Stands S n) (refuse sender invokeID error) fun _ =>
      Stands S (n + (.answer sender invokeID - .mutex)) := by
  have hw : Leaves Counted (refuse sender invokeID error) (.answer sender invokeID - .mutex) :=
    refuse_leaves
  exact (hw.with refuse_quiet n).mono (fun _ hs => hs) fun _ _ hs => hs

lemma unlock_tally (n : Tally) :
    Safe (fun s => s.tally = n) (perform .unlock) fun _ s => s.tally = n - .mutex := by
  have hw : Leaves Counted (perform .unlock) (-.mutex) := unlock_leaves
  have hsafe : Safe (fun _ => True) (perform .unlock) fun _ _ => True :=
    sat_modify fun _ _ => trivial
  exact (hw.with hsafe n).mono (fun _ hs => ⟨trivial, hs⟩) fun _ _ hs =>
    hs.2.trans (sub_eq_add_neg _ _).symm

/-! ## Requests about a connection -/

/-- The call and its device that the request is about are there. -/
def Connected (S : Shape) (connectionID : ConnectionID) : Prop :=
  ∃ pCall p, S.rightAt connectionID.callID = some pCall ∧
    S.member pCall connectionID.deviceID.callNr = some p

section

variable {sender : ℕ} {invokeID : ℤ} {connectionID : ConnectionID}

lemma refuse_tally {error : ErrorCode} :
    Safe (Stands S (n + .mutex)) (refuse sender invokeID error) fun _ s =>
      s.tally = n + .answer sender invokeID :=
  refuse_stands.mono (fun _ hs => hs) fun _ _ hs => hs.2.trans (by abel)

lemma withConnection_refuses {act : ℕ → Handler Unit} (hS : S.Consistent)
    (h : ¬ Connected S connectionID) :
    Safe (Stands S n) (withConnection sender invokeID connectionID act) fun _ s =>
      s.tally = n + .answer sender invokeID := by
  refine sat_bind (perform_stands rfl fun _ _ => by simp) fun _ => ?_
  refine sat_bind_of (stands_of_silent getCall_leaves (getCall_quiet _)) fun found hfound => ?_
  subst hfound
  cases hcall : S.rightAt connectionID.callID with
  | none => exact refuse_tally
  | some pCall =>
    refine sat_bind_of (stands_of_silent call_leaves
      (call_quiet (rightName_of_rightAt hS hcall))) fun object hobject => ?_
    rw [hobject.2]
    cases hmember : S.member pCall connectionID.deviceID.callNr with
    | none => exact refuse_tally
    | some p => exact absurd ⟨pCall, p, hcall, hmember⟩ h

/-- The connection that is found is handed on. -/
lemma withConnection_acts {act : ℕ → Handler Unit} {Q : Unit → FreeSWITCH → Prop}
    (hS : S.Consistent) (h : Connected S connectionID)
    (hact : ∀ x pCall, S.target x = some pCall → Safe (Stands S (n + .mutex)) (act x) Q) :
    Safe (Stands S n) (withConnection sender invokeID connectionID act) Q := by
  obtain ⟨pCall, p, hcall, hmember⟩ := h
  have hp := hS.member_name _ _ _ hmember
  obtain ⟨x, hlink⟩ := Option.isSome_iff_exists.1 ((hS.link_isSome_iff hp).2 hmember)
  refine sat_bind (perform_stands rfl fun _ _ => by simp) fun _ => ?_
  refine sat_bind_of (stands_of_silent getCall_leaves (getCall_quiet _)) fun found hfound => ?_
  subst hfound
  rw [hcall]
  refine sat_bind_of (stands_of_silent call_leaves
    (call_quiet (rightName_of_rightAt hS hcall))) fun object hobject => ?_
  rw [hobject.2, hmember]
  refine sat_bind_of (stands_of_silent findConnection_leaves (findConnection_quiet hp))
    fun found hfound => ?_
  subst hfound
  rw [hlink]
  exact hact x pCall (hS.link_target _ _ _ hlink)

/-- The session that has been located is still held when the handler returns. -/
def Keeps (sender : ℕ) (invokeID : ℤ) (n : Tally) (s : FreeSWITCH) : Prop :=
  ∃ uuid, s.tally = n + .answer sender invokeID + .session uuid

lemma withSession_keeps {error : ErrorCode} {act : String → Handler Unit}
    (hx : S.target x = some pCall)
    (hact : ∀ uuid, act uuid = refuse sender invokeID .genericError) :
    Safe (Stands S (n + .mutex)) (withSession sender invokeID error true act x)
      fun _ => Keeps sender invokeID n := by
  refine sat_bind_of (stands_of_silent connection_leaves (connection_quiet hx)) fun object _ => ?_
  refine sat_bind (perform_stands rfl fun _ _ => by simp) fun _ => ?_
  rw [if_pos rfl, hact]
  refine refuse_stands.mono (fun _ hs => hs) fun _ s hs => ⟨object.strUUID, hs.2.trans ?_⟩
  rw [Effect.tally, if_pos rfl]
  abel

/-- A record or broadcast is in progress. -/
lemma recordMessage_keeps_session {eventCreated : Bool} (hS : S.Consistent)
    (h : Connected S connectionID) :
    Safe (Stands S n) (recordMessage sender invokeID connectionID true true eventCreated)
      fun _ => Keeps sender invokeID n :=
  withConnection_acts hS h fun _ _ hx => withSession_keeps hx fun _ => rfl

/-- No record or broadcast is running. -/
lemma stopMessage_keeps_session (hS : S.Consistent) (h : Connected S connectionID) :
    Safe (Stands S n) (stopMessage sender invokeID connectionID true false)
      fun _ => Keeps sender invokeID n :=
  withConnection_acts hS h fun _ _ hx => withSession_keeps hx fun _ => rfl

end

/-! ## Transfers -/

/-- How many answers the loop over the other devices of the call sends. -/
def answersOf (core : Transfer) (pTransferringDevice : ℕ) : List (String × ℕ) → ℕ
  | [] => 0
  | (id, p) :: rest =>
    if p = pTransferringDevice then answersOf core pTransferringDevice rest
    else if core.located id then answersOf core pTransferringDevice rest + 1
    else 1

lemma transferOthers_tally {sender : ℕ} {invokeID : ℤ} {done : Response} {core : Transfer}
    {pTransferringDevice : ℕ} {entries : List (String × ℕ)} (hS : S.Consistent)
    (hdone : done.invokeID = invokeID)
    (h : ∀ entry ∈ entries, S.member pCall entry.1 = some entry.2) :
    Safe (Stands S n) (transferOthers sender invokeID done core pTransferringDevice pCall u entries)
      fun finished => Stands S (n + answersOf core pTransferringDevice entries •
        Tally.answer sender invokeID - if finished then 0 else .mutex) := by
  induction entries generalizing n with
  | nil => exact sat_pure fun _ hs => ⟨hs.1, hs.2.trans (by simp [answersOf])⟩
  | cons entry rest ih =>
    obtain ⟨id, p⟩ := entry
    have hrest {n : Tally} := ih (n := n) fun entry hmem => h entry (List.mem_cons_of_mem _ hmem)
    have hmember : S.member pCall id = some p := h _ List.mem_cons_self
    have hp := hS.member_name _ _ _ hmember
    obtain ⟨x, hlink⟩ := Option.isSome_iff_exists.1 ((hS.link_isSome_iff hp).2 hmember)
    rw [answersOf]
    by_cases hsame : p = pTransferringDevice
    · rw [transferOthers, if_pos hsame, if_pos hsame]
      exact hrest
    rw [transferOthers, if_neg hsame, if_neg hsame]
    refine sat_bind_of (stands_of_silent findConnection_leaves (findConnection_quiet hp))
      fun found hfound => ?_
    subst hfound
    rw [hlink]
    refine sat_bind_of (stands_of_silent connection_leaves
      (connection_quiet (hS.link_target _ _ _ hlink))) fun object _ => ?_
    refine sat_bind (perform_stands rfl fun _ _ => by simp) fun _ => ?_
    cases hlocated : core.located id with
    | true =>
      refine sat_bind (perform_stands rfl fun _ _ => by simp) fun _ => ?_
      refine sat_bind (perform_stands rfl fun _ _ => by simp) fun _ => ?_
      refine hrest.mono (fun _ hs => hs) fun finished s hs => ⟨hs.1, hs.2.trans ?_⟩
      have hid : Response.invokeID
          (if core.transferred id then done else .universalError invokeID .genericError) =
            invokeID := by
        split_ifs
        · exact hdone
        · rfl
      simp only [Effect.tally, hid, if_true, succ_nsmul]
      abel
    | false =>
      refine sat_bind refuse_stands fun _ => sat_pure fun s hs => ⟨hs.1, hs.2.trans ?_⟩
      simp only [Effect.tally, Bool.false_eq_true, if_false, one_nsmul]
      abel

lemma transfer_refuses {sender : ℕ} {invokeID : ℤ} {activeCall : ConnectionID} {core : Transfer}
    {done : String → Response} (hS : S.Consistent) (h : ¬ Connected S activeCall) :
    Safe (Stands S n) (transfer sender invokeID activeCall core done) fun _ s =>
      s.tally = n + .answer sender invokeID := by
  refine sat_bind (perform_stands rfl fun _ _ => by simp) fun _ => ?_
  refine sat_bind_of (stands_of_silent getCall_leaves (getCall_quiet _)) fun found hfound => ?_
  subst hfound
  cases hcall : S.rightAt activeCall.callID with
  | none => exact refuse_tally
  | some pCall =>
    refine sat_bind_of (stands_of_silent call_leaves
      (call_quiet (rightName_of_rightAt hS hcall))) fun object hobject => ?_
    rw [hobject.2]
    cases hmember : S.member pCall activeCall.deviceID.callNr with
    | none => exact refuse_tally
    | some p => exact absurd ⟨pCall, p, hcall, hmember⟩ h

/-- The number of answers to a transfer. -/
lemma transfer_tally {sender : ℕ} {invokeID : ℤ} {activeCall : ConnectionID} {core : Transfer}
    {done : String → Response} {devices : OrderedMap String ℕ} (hS : S.Consistent)
    (hdone : ∀ uuid, (done uuid).invokeID = invokeID)
    (hcall : S.rightAt activeCall.callID = some pCall)
    (hdevices : ∀ k, devices.find? k = S.member pCall k)
    (hmember : S.member pCall activeCall.deviceID.callNr = some p) :
    Safe (Stands S n) (transfer sender invokeID activeCall core done) fun _ s =>
      s.tally = n + answersOf core p devices.entries • Tally.answer sender invokeID := by
  have hu := rightName_of_rightAt hS hcall
  refine sat_bind (perform_stands rfl fun _ _ => by simp) fun _ => ?_
  refine sat_bind_of (stands_of_silent getCall_leaves (getCall_quiet _)) fun found hfound => ?_
  subst hfound
  rw [hcall]
  refine sat_bind_of (stands_of_silent call_leaves (call_quiet hu)) fun object hobject => ?_
  have hentries : object.devices.entries = devices.entries :=
    OrderedMap.ext_find? fun k => (hobject.2 k).trans (hdevices k).symm
  rw [hobject.2, hmember, hentries]
  refine sat_bind (transferOthers_tally hS (hdone _) fun entry hmem =>
    (hdevices entry.1).symm.trans (OrderedMap.mem_entries.1 hmem)) fun finished => ?_
  cases finished with
  | false =>
    refine sat_pure fun s hs => hs.2.trans ?_
    simp only [Effect.tally, Bool.false_eq_true, if_false]
    abel
  | true =>
    have hp := hS.member_name _ _ _ hmember
    have hw : Leaves Counted (deleteConnection p pCall) 0 := deleteConnection_leaves
    refine sat_bind (hw.with (deleteConnection_disconnects hS hp hu) _)
      fun _ => (unlock_tally _).mono (fun _ hs => hs.2) fun _ s hs => hs.trans ?_
    simp only [Effect.tally, if_true]
    abel

/-! ## When the locks are released -/

/-- The session that the core has handed over locked, without having been asked to locate it. -/
def Action.originated (s : FreeSWITCH) : Action → Option String
  | .makeCallOriginated n session => if n < s.pendingMakeCalls.length then session else none
  | _ => none

/-- The requests to record or to stop a message that are refused because of the state of the session
return without releasing it. -/
def Action.Releases (s : FreeSWITCH) : Action → Prop
  | .recordMessage _ _ connectionID located inProgress _ =>
    ¬ (Connected s.shape connectionID ∧ located = true ∧ inProgress = true)
  | .stopMessage _ _ connectionID located inProgress =>
    ¬ (Connected s.shape connectionID ∧ located = true ∧ inProgress = false)
  | _ => True

/-- The mutex is as deep as before, and the sessions that have been located or handed over are
released. -/
def Released (originated : Option String) (s s' : FreeSWITCH) : Prop :=
  s'.depth = s.depth ∧
    ∀ uuid, s'.held uuid + (if originated = some uuid then 1 else 0) = s.held uuid

lemma Released.of_tally {s s' : FreeSWITCH} {w : Tally} (h : s'.tally = s.tally + w)
    (hdepth : w.1 = 0) (hheld : w.2.1 = 0) : Released none s s' := by
  refine ⟨?_, fun uuid => ?_⟩
  · rw [← FreeSWITCH.tally_depth, h, Prod.fst_add, hdepth, add_zero, FreeSWITCH.tally_depth]
  · rw [← FreeSWITCH.tally_held, h, Prod.snd_add, Prod.fst_add, Pi.add_apply, hheld,
      Pi.zero_apply, add_zero, FreeSWITCH.tally_held, if_neg (by simp), add_zero]

lemma Keeps.not_released {s s' : FreeSWITCH} {sender : ℕ} {invokeID : ℤ}
    (h : Keeps sender invokeID s.tally s') : ¬ Released none s s' := by
  obtain ⟨uuid, huuid⟩ := h
  rintro ⟨-, hheld⟩
  have huuid' := hheld uuid
  rw [← FreeSWITCH.tally_held, huuid, if_neg (by simp), add_zero, ← FreeSWITCH.tally_held] at huuid'
  simp [Tally.answer, Tally.session] at huuid'

lemma answersOf_released (k : ℕ) (sender : ℕ) (invokeID : ℤ) :
    (k • Tally.answer sender invokeID).1 = 0 ∧ (k • Tally.answer sender invokeID).2.1 = 0 := by
  constructor
  · rw [Prod.smul_fst]
    exact nsmul_zero k
  · rw [Prod.smul_snd, Prod.smul_fst]
    exact nsmul_zero k

lemma transfer_released {s s' : FreeSWITCH} {sender : ℕ} {invokeID : ℤ}
    {activeCall : ConnectionID} {core : Transfer} {done : String → Response} (hs : Kept False s)
    (hdone : ∀ uuid, (done uuid).invokeID = invokeID)
    (hrun : (transfer sender invokeID activeCall core done).run s = .ok ((), s')) :
    Released none s s' := by
  by_cases hconnected : Connected s.shape activeCall
  · obtain ⟨pCall, p, hcall, hmember⟩ := hconnected
    obtain ⟨call, hobject, -⟩ := Option.bind_eq_some_iff.1 hmember
    have hdevices (k : String) : call.devices.find? k = s.shape.member pCall k := by
      simp only [FreeSWITCH.shape, hobject, Option.bind_some]
    have htally := (transfer_tally hs.2.consistent hdone hcall hdevices hmember).ok
      ⟨⟨rfl, hs.1⟩, rfl⟩ hrun
    exact .of_tally htally (answersOf_released _ _ _).1 (answersOf_released _ _ _).2
  · have htally := (transfer_refuses hs.2.consistent hconnected).ok ⟨⟨rfl, hs.1⟩, rfl⟩ hrun
    exact .of_tally htally rfl rfl

lemma singleStepTransferCall_released {s s' : FreeSWITCH} {sender : ℕ} {invokeID : ℤ}
    {activeCall : ConnectionID} {transferredTo : DeviceID} {core : Transfer} (hs : Kept False s)
    (hrun : (singleStepTransferCall sender invokeID activeCall transferredTo core).run s =
      .ok ((), s')) : Released none s s' :=
  transfer_released hs (by intro _; rfl) hrun

lemma deflectCall_released {s s' : FreeSWITCH} {sender : ℕ} {invokeID : ℤ}
    {callToBeDiverted : ConnectionID} {core : Transfer} (hs : Kept False s)
    (hrun : (deflectCall sender invokeID callToBeDiverted core).run s = .ok ((), s')) :
    Released none s s' :=
  transfer_released hs (by intro _; rfl) hrun

/-- The session of the call that has been originated is released as well. -/
lemma makeCallOriginated_released {s s' : FreeSWITCH} {n : ℕ} {session : Option String}
    (hrun : (makeCallOriginated n session).run s = .ok ((), s')) :
    Released (Action.originated s (.makeCallOriginated n session)) s s' := by
  cases hn : s.pendingMakeCalls[n]? with
  | none =>
    have hsame : s' = s := (makeCallOriginated_nothing hn).ok rfl hrun
    have hlength : ¬ n < s.pendingMakeCalls.length := by
      rw [not_lt]
      exact List.getElem?_eq_none_iff.1 hn
    rw [hsame, Action.originated, if_neg hlength]
    exact ⟨rfl, fun uuid => add_zero _⟩
  | some pending =>
    obtain ⟨hlength, -⟩ := List.getElem?_eq_some_iff.1 hn
    have htally := (makeCallOriginated_tally session hn).ok rfl hrun
    rw [Action.originated, if_pos hlength]
    cases session with
    | none =>
      refine .of_tally (w := .answer pending.sender pending.invokeID - pending.tally) ?_ rfl rfl
      rw [htally, Option.map_none, Option.getD_none]
      abel
    | some uuid =>
      rw [Option.map_some, Option.getD_some] at htally
      refine ⟨?_, fun uuid' => ?_⟩
      · rw [← FreeSWITCH.tally_depth, ← FreeSWITCH.tally_depth, htally]
        simp [PendingMakeCall.tally, Tally.waiting, Tally.answer, Tally.session]
      · rw [← FreeSWITCH.tally_held, ← FreeSWITCH.tally_held, htally]
        by_cases huuid : uuid = uuid'
        · subst huuid
          simp [PendingMakeCall.tally, Tally.waiting, Tally.answer, Tally.session]
        · simp [PendingMakeCall.tally, Tally.waiting, Tally.answer, Tally.session, huuid,
            Ne.symm huuid]

/-- A handler with this tally. -/
lemma released_of_leaves {m : Handler Unit} {w : Tally} {s s' : FreeSWITCH} (h : Leaves Counted m w)
    (hrun : m.run s = .ok ((), s')) (hdepth : w.1 = 0) (hheld : w.2.1 = 0) : Released none s s' :=
  .of_tally (counted_eq h hrun) hdepth hheld

/-- A request that would keep the session is refused before it is located. -/
lemma released_of_not_connected {sender : ℕ} {invokeID : ℤ} {connectionID : ConnectionID}
    {act : ℕ → Handler Unit} {s s' : FreeSWITCH} (hs : Kept False s)
    (h : ¬ Connected s.shape connectionID)
    (hrun : (withConnection sender invokeID connectionID act).run s = .ok ((), s')) :
    Released none s s' :=
  .of_tally ((withConnection_refuses hs.2.consistent h).ok ⟨⟨rfl, hs.1⟩, rfl⟩ hrun) rfl rfl

lemma recordMessage_released_iff {sender : ℕ} {invokeID : ℤ} {connectionID : ConnectionID}
    {located inProgress eventCreated : Bool} {s s' : FreeSWITCH} (hs : Kept False s)
    (hrun : (recordMessage sender invokeID connectionID located inProgress eventCreated).run s =
      .ok ((), s')) :
    Released none s s' ↔
      ¬ (Connected s.shape connectionID ∧ located = true ∧ inProgress = true) := by
  by_cases hprogress : located = true ∧ inProgress = true
  · obtain ⟨rfl, rfl⟩ := hprogress
    by_cases hconnected : Connected s.shape connectionID
    · have hkeeps := (recordMessage_keeps_session hs.2.consistent hconnected).ok
        ⟨⟨rfl, hs.1⟩, rfl⟩ hrun
      simp [hkeeps.not_released, hconnected]
    · simp [released_of_not_connected hs hconnected hrun, hconnected]
  · simp [released_of_leaves (recordMessage_leaves hprogress) hrun rfl rfl, hprogress]

lemma stopMessage_released_iff {sender : ℕ} {invokeID : ℤ} {connectionID : ConnectionID}
    {located inProgress : Bool} {s s' : FreeSWITCH} (hs : Kept False s)
    (hrun : (stopMessage sender invokeID connectionID located inProgress).run s = .ok ((), s')) :
    Released none s s' ↔
      ¬ (Connected s.shape connectionID ∧ located = true ∧ inProgress = false) := by
  by_cases hprogress : located = true ∧ inProgress = false
  · obtain ⟨rfl, rfl⟩ := hprogress
    by_cases hconnected : Connected s.shape connectionID
    · have hkeeps := (stopMessage_keeps_session hs.2.consistent hconnected).ok
        ⟨⟨rfl, hs.1⟩, rfl⟩ hrun
      simp [hkeeps.not_released, hconnected]
    · simp [released_of_not_connected hs hconnected hrun, hconnected]
  · simp [released_of_leaves (stopMessage_leaves hprogress) hrun rfl rfl, hprogress]

/-- **When the locks are released**: a handler that returns has left the mutex as deep as it was and
has released every session, unless it refuses to record or to stop a message for the state in which
it has found the session. -/
theorem locks_released_iff {actions : List (Place × Action)} {s s' : FreeSWITCH} {place : Place}
    {action : Action} (h : run .init actions = .ok s)
    (hstep : (handle place action).run s = .ok ((), s')) :
    Released (action.originated s) s s' ↔ action.Releases s := by
  have hs := kept_of_run h
  cases htally : action.tally with
  | some w =>
    obtain ⟨hdepth, hheld⟩ := Action.tally_released htally
    have hreleased :=
      released_of_leaves (handle_leaves htally action.admitted_counted) hstep hdepth hheld
    cases action with
    | makeCallOriginated => cases htally
    | recordMessage => cases htally
    | stopMessage => cases htally
    | _ => exact iff_of_true hreleased trivial
  | none =>
    cases action with
    | recordMessage => exact recordMessage_released_iff hs hstep
    | stopMessage => exact stopMessage_released_iff hs hstep
    | makeCallOriginated => exact iff_of_true (makeCallOriginated_released hstep) trivial
    | singleStepTransferCall =>
      exact iff_of_true (singleStepTransferCall_released hs hstep) trivial
    | deflectCall => exact iff_of_true (deflectCall_released hs hstep) trivial
    | _ => cases htally

/-- A subscriber has taken up the phone. -/
def oneLeg : List (Place × Action) :=
  [(⟨0, 0, 0⟩, .channelCreate (legEvent "sofia/internal/100@pbx" "a" ""))]

def oneLegConnection : ConnectionID := ⟨⟨.dialable, "100"⟩, "a"⟩

theorem locks_released_iff_stopped : ∃ s s', run .init oneLeg = .ok s ∧
    (handle ⟨1, 1, 1⟩ (.stopMessage 1 5 oneLegConnection true true)).run s = .ok ((), s') ∧
      Released none s s' :=
  ⟨_, _, rfl, rfl, (locks_released_iff (rfl : run .init oneLeg = .ok _)
    (rfl : (handle ⟨1, 1, 1⟩ (.stopMessage 1 5 oneLegConnection true true)).run _ =
      .ok ((), _))).2 fun h => absurd h.2.2 (by decide)⟩

/-- A message is to be recorded while a broadcast is in progress. -/
theorem record_in_progress_keeps_session :
    ¬ ∀ (actions : List (Place × Action)) (s s' : FreeSWITCH) (place : Place) (action : Action),
      run .init actions = .ok s → (handle place action).run s = .ok ((), s') →
        Released (action.originated s) s s' := by
  intro h
  have hreleased := h oneLeg _ _ ⟨1, 1, 1⟩ (.recordMessage 1 5 oneLegConnection true true true)
    rfl rfl
  exact absurd (hreleased.2 "a") (by decide)

end Csta
