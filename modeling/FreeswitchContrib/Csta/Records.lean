import FreeswitchContrib.Csta.Requests
import FreeswitchContrib.Library.Tallying
import Mathlib.Algebra.Group.Pi.Basic
import Mathlib.Algebra.Group.Prod
import Mathlib.Algebra.BigOperators.Group.List.Basic
import Mathlib.Data.Int.Basic
import Mathlib.Tactic.Abel

/-!
# What the handlers leave in the record

The locks that are taken and released, and the answers to the requests, counted for each session and
each request.

* `FreeSWITCH.tally` — how deep the mutex is held, which sessions are held, what has been answered
  and what is still to be.
* The handlers of events leave it as it is, and most of the requests add their answer.
-/

namespace Csta

open Faulting Tallying

/-- The request that a response answers. -/
def Response.invokeID : Response → ℤ
  | .universalError invokeID _ => invokeID
  | .done invokeID _ => invokeID
  | .monitorStart invokeID _ => invokeID
  | .snapshotDevice invokeID _ => invokeID
  | .snapshotCall invokeID _ _ _ => invokeID
  | .makeCall invokeID _ => invokeID
  | .singleStepTransferCall invokeID _ => invokeID

/-- The depth of the mutex, the sessions that are held, the answers, and the requests of which the
call is being originated. -/
abbrev Tally := ℤ × (String → ℤ) × (ℕ × ℤ → ℤ) × (ℕ × ℤ → ℤ)

namespace Tally

def mutex : Tally := (1, 0, 0, 0)

def session (uuid : String) : Tally := (0, Pi.single uuid 1, 0, 0)

def answer (sender : ℕ) (invokeID : ℤ) : Tally := (0, 0, Pi.single (sender, invokeID) 1, 0)

def waiting (sender : ℕ) (invokeID : ℤ) : Tally := (0, 0, 0, Pi.single (sender, invokeID) 1)

end Tally

def Effect.tally : Effect → Tally
  | .lock => .mutex
  | .unlock => -.mutex
  | .locate uuid found => if found then .session uuid else 0
  | .rwunlock uuid => -.session uuid
  | .event _ _ _ => 0
  | .respond sender response => .answer sender response.invokeID
  | .withoutConnection _ _ => 0

def PendingMakeCall.tally (pending : PendingMakeCall) : Tally :=
  .waiting pending.sender pending.invokeID

def FreeSWITCH.tally (s : FreeSWITCH) : Tally :=
  (s.effects.map Effect.tally).sum + (s.pendingMakeCalls.map PendingMakeCall.tally).sum

/-! ## What the tally counts -/

def FreeSWITCH.depth (s : FreeSWITCH) : ℤ := s.effects.count .lock - s.effects.count .unlock

/-- How often the session has been located and not been released. -/
def FreeSWITCH.held (s : FreeSWITCH) (uuid : String) : ℤ :=
  s.effects.count (.locate uuid true) - s.effects.count (.rwunlock uuid)

def Effect.answers (sender : ℕ) (invokeID : ℤ) : Effect → Bool
  | .respond session response => session == sender && response.invokeID == invokeID
  | _ => false

/-- How many answers to this request the session has been sent. -/
def FreeSWITCH.answers (s : FreeSWITCH) (sender : ℕ) (invokeID : ℤ) : ℕ :=
  s.effects.countP (Effect.answers sender invokeID)

/-- How many calls are being originated for this request. -/
def FreeSWITCH.waiting (s : FreeSWITCH) (sender : ℕ) (invokeID : ℤ) : ℕ :=
  s.pendingMakeCalls.countP fun pending =>
    pending.sender == sender && pending.invokeID == invokeID

lemma sum_effects_depth (effects : List Effect) :
    (effects.map Effect.tally).sum.1 = effects.count .lock - effects.count .unlock := by
  induction effects with
  | nil => rfl
  | cons effect rest ih =>
    rw [List.map_cons, List.sum_cons, Prod.fst_add, ih]
    cases effect with
    | locate uuid found => cases found <;> simp [Effect.tally, Tally.session]
    | _ => simp [Effect.tally, Tally.mutex, Tally.session, Tally.answer] <;> omega

lemma sum_effects_held (effects : List Effect) (uuid : String) :
    (effects.map Effect.tally).sum.2.1 uuid =
      effects.count (.locate uuid true) - effects.count (.rwunlock uuid) := by
  induction effects with
  | nil => rfl
  | cons effect rest ih =>
    rw [List.map_cons, List.sum_cons, Prod.snd_add, Prod.fst_add, Pi.add_apply, ih]
    cases effect with
    | locate uuid' found =>
      by_cases huuid : uuid' = uuid
      · subst huuid
        cases found with
        | false => simp [Effect.tally]
        | true =>
          simp [Effect.tally, Tally.session]
          omega
      · cases found <;> simp [Effect.tally, Tally.session, huuid, Ne.symm huuid]
    | rwunlock uuid' =>
      by_cases huuid : uuid' = uuid
      · subst huuid
        simp [Effect.tally, Tally.session]
        omega
      · simp [Effect.tally, Tally.session, huuid, Ne.symm huuid]
    | _ => simp [Effect.tally, Tally.mutex, Tally.answer]

lemma sum_effects_answers (effects : List Effect) (sender : ℕ) (invokeID : ℤ) :
    (effects.map Effect.tally).sum.2.2.1 (sender, invokeID) =
      effects.countP (Effect.answers sender invokeID) := by
  induction effects with
  | nil => rfl
  | cons effect rest ih =>
    rw [List.map_cons, List.sum_cons, Prod.snd_add, Prod.snd_add, Prod.fst_add, Pi.add_apply, ih,
      List.countP_cons]
    cases effect with
    | respond session response =>
      by_cases hanswer : sender = session ∧ invokeID = response.invokeID
      · obtain ⟨rfl, rfl⟩ := hanswer
        simp [Effect.tally, Effect.answers, Tally.answer]
        omega
      · have hne : (sender, invokeID) ≠ (session, response.invokeID) := fun heq =>
          hanswer (Prod.ext_iff.1 heq)
        have hnot : ¬ (session = sender ∧ response.invokeID = invokeID) := fun heq =>
          hanswer ⟨heq.1.symm, heq.2.symm⟩
        simp [Effect.tally, Effect.answers, Tally.answer, hne, hnot]
    | locate uuid found =>
      cases found <;> simp [Effect.tally, Effect.answers, Tally.session]
    | _ => simp [Effect.tally, Effect.answers, Tally.mutex, Tally.session]

/-- What is pending counts as nothing else. -/
lemma sum_pending (pendings : List PendingMakeCall) :
    (pendings.map PendingMakeCall.tally).sum = (0, 0, 0, fun request =>
      (pendings.countP fun pending =>
        pending.sender == request.1 && pending.invokeID == request.2 : ℤ)) := by
  induction pendings with
  | nil => rfl
  | cons pending rest ih =>
    rw [List.map_cons, List.sum_cons, ih]
    refine Prod.ext rfl (Prod.ext (add_zero _) (Prod.ext (add_zero _) (funext fun request => ?_)))
    obtain ⟨sender, invokeID⟩ := request
    by_cases hrequest : sender = pending.sender ∧ invokeID = pending.invokeID
    · obtain ⟨rfl, rfl⟩ := hrequest
      simp [PendingMakeCall.tally, Tally.waiting]
      omega
    · have hne : (sender, invokeID) ≠ (pending.sender, pending.invokeID) := fun heq =>
        hrequest (Prod.ext_iff.1 heq)
      have hnot : ¬ (pending.sender = sender ∧ pending.invokeID = invokeID) := fun heq =>
        hrequest ⟨heq.1.symm, heq.2.symm⟩
      simp [PendingMakeCall.tally, Tally.waiting, hne, hnot]

lemma sum_effects_waiting (effects : List Effect) :
    (effects.map Effect.tally).sum.2.2.2 = 0 := by
  induction effects with
  | nil => rfl
  | cons effect rest ih =>
    rw [List.map_cons, List.sum_cons, Prod.snd_add, Prod.snd_add, Prod.snd_add, ih, add_zero]
    cases effect with
    | locate uuid found => cases found <;> rfl
    | _ => rfl

namespace FreeSWITCH

variable (s : FreeSWITCH)

lemma tally_depth : s.tally.1 = s.depth := by
  rw [tally, sum_pending, Prod.fst_add, sum_effects_depth]
  exact add_zero _

lemma tally_held (uuid : String) : s.tally.2.1 uuid = s.held uuid := by
  rw [tally, sum_pending, Prod.snd_add, Prod.fst_add, Pi.add_apply, sum_effects_held]
  exact add_zero _

lemma tally_answers (sender : ℕ) (invokeID : ℤ) :
    s.tally.2.2.1 (sender, invokeID) = s.answers sender invokeID := by
  rw [tally, sum_pending, Prod.snd_add, Prod.snd_add, Prod.fst_add, Pi.add_apply,
    sum_effects_answers]
  exact add_zero _

lemma tally_waiting (sender : ℕ) (invokeID : ℤ) :
    s.tally.2.2.2 (sender, invokeID) = s.waiting sender invokeID := by
  rw [tally, sum_pending, Prod.snd_add, Prod.snd_add, Prod.snd_add, Pi.add_apply,
    sum_effects_waiting]
  exact zero_add _

end FreeSWITCH

lemma tally_eraseIdx {s : FreeSWITCH} {n : ℕ} {pending : PendingMakeCall}
    (h : s.pendingMakeCalls[n]? = some pending) :
    FreeSWITCH.tally { s with pendingMakeCalls := s.pendingMakeCalls.eraseIdx n } =
      s.tally - pending.tally := by
  obtain ⟨hn, hpending⟩ := List.getElem?_eq_some_iff.1 h
  have hperm := ((List.getElem_cons_eraseIdx_perm hn).map PendingMakeCall.tally).sum_eq
  rw [List.map_cons, List.sum_cons, hpending] at hperm
  simp only [FreeSWITCH.tally, ← hperm]
  abel

/-! ## Properties that the operations keep -/

def Effect.isEvent : Effect → Bool
  | .event _ _ _ => true
  | _ => false

/-- A property of the states with a tally that the operations keep: what is performed adds to the
tally, the monitors of every device are `good`, and events only go to such monitors. -/
class Invariant (I : Tally → FreeSWITCH → Prop) where
  good : OrderedMap String ℕ → Prop
  good_empty : good .empty
  good_erase : ∀ {monitors : OrderedMap String ℕ} (id : String),
    good monitors → good (monitors.erase id)
  perform : ∀ {n s} {effect : Effect}, effect.isEvent = false → I n s →
    I (n + effect.tally) { s with effects := s.effects ++ [effect] }
  send : ∀ {n s} {monitors : OrderedMap String ℕ} {entry : String × ℕ} {event : CSTAEvent},
    good monitors → entry ∈ monitors.entries → I n s →
      I n { s with effects := s.effects ++ [.event entry.2 event entry.1] }
  device : ∀ {n s p object}, I n s → s.devices p = some object → good object.monitoringSessions
  setDevice : ∀ {n s} {p : ℕ} {object : FreeSwitchDevice}, good object.monitoringSessions →
    I n s → I n { s with devices := Function.update s.devices p (some object) }
  other : ∀ {n} {s s' : FreeSWITCH}, s'.devices = s.devices → s'.effects = s.effects →
    s'.pendingMakeCalls = s.pendingMakeCalls → I n s → I n s'
  wait : ∀ {n s} {pending : PendingMakeCall}, I n s →
    I (n + pending.tally) { s with pendingMakeCalls := s.pendingMakeCalls ++ [pending] }
  resume : ∀ {n s i} {pending : PendingMakeCall}, s.pendingMakeCalls[i]? = some pending → I n s →
    I (n - pending.tally) { s with pendingMakeCalls := s.pendingMakeCalls.eraseIdx i }

/-- The property that says what has been counted. -/
abbrev Counted (n : Tally) (s : FreeSWITCH) : Prop := s.tally = n

instance : Invariant Counted where
  good _ := True
  good_empty := trivial
  good_erase _ _ := trivial
  perform _ hs := by
    subst hs
    simp only [Counted, FreeSWITCH.tally, List.map_append, List.map_cons, List.map_nil,
      List.sum_append, List.sum_cons, List.sum_nil]
    abel
  send _ _ hs := by
    subst hs
    simp only [Counted, FreeSWITCH.tally, List.map_append, List.map_cons, List.map_nil,
      List.sum_append, List.sum_cons, List.sum_nil, Effect.tally, add_zero]
  device _ _ := trivial
  setDevice _ hs := hs
  other _ heffects hpending hs := by
    subst hs
    rw [Counted, FreeSWITCH.tally, heffects, hpending, FreeSWITCH.tally]
  wait hs := by
    subst hs
    simp only [Counted, FreeSWITCH.tally, List.map_append, List.map_cons, List.map_nil,
      List.sum_append, List.sum_cons, List.sum_nil]
    abel
  resume hpending hs := by
    subst hs
    exact tally_eraseIdx hpending

open Invariant

set_option linter.unusedSectionVars false

variable {I : Tally → FreeSWITCH → Prop} [Invariant I]

/-- The property is kept, with this added to the tally. -/
abbrev Leaves (I : Tally → FreeSWITCH → Prop) {α : Type} (m : Handler α) (w : Tally) : Prop :=
  Adds I m w

/-- A monitor of this session may be added. -/
def Admits (I : Tally → FreeSWITCH → Prop) [Invariant I] (session : ℕ) : Prop :=
  ∀ (monitors : OrderedMap String ℕ) (id : String),
    good I monitors → good I (monitors.insert id session)

lemma counted_eq {m : Handler Unit} {w : Tally} {s s' : FreeSWITCH} (h : Leaves Counted m w)
    (hrun : m.run s = .ok ((), s')) : s'.tally = s.tally + w := (h s.tally).ok rfl hrun

lemma admits_counted (session : ℕ) : Admits Counted session := fun _ _ _ => trivial

/-! ## Operations -/

section

variable {p pCall : ℕ} {uuid : String}

lemma perform_leaves (effect : Effect) (h : effect.isEvent = false) :
    Leaves I (perform effect) effect.tally :=
  adds_modify fun _ _ hs => Invariant.perform h hs

lemma lock_leaves : Leaves I (perform .lock) .mutex := perform_leaves _ rfl

lemma unlock_leaves : Leaves I (perform .unlock) (-.mutex) := perform_leaves _ rfl

/-- A change of objects that are no devices. -/
lemma modify_leaves {f : FreeSWITCH → FreeSWITCH} (hdevices : ∀ s, (f s).devices = s.devices)
    (heffects : ∀ s, (f s).effects = s.effects)
    (hpending : ∀ s, (f s).pendingMakeCalls = s.pendingMakeCalls) :
    Leaves I (modify f : Handler PUnit) 0 :=
  adds_modify fun n s hs => by
    rw [add_zero]
    exact Invariant.other (hdevices s) (heffects s) (hpending s) hs

lemma deref_leaves {ω : Type} {heap : FreeSWITCH → ℕ → Option ω} : Leaves I (deref heap p) 0 :=
  adds_after adds_get fun s => by
    cases heap s p with
    | some object => exact adds_pure
    | none => exact adds_throw

lemma device_leaves : Leaves I (device p) 0 := deref_leaves

/-- The monitors of a device. -/
lemma device_good (n : Tally) : Sat (fun _ => True) (I n) (device p) fun object s =>
    I n s ∧ good I object.monitoringSessions := by
  refine sat_bind_of (Q := fun _ => I n) (sat_get fun s hs => ⟨hs, hs⟩) fun s hs => ?_
  cases hp : s.devices p with
  | none => exact sat_throw fun _ _ => trivial
  | some object => exact sat_pure fun _ hs' => ⟨hs', Invariant.device hs hp⟩

lemma call_leaves : Leaves I (call p) 0 := deref_leaves

lemma connection_leaves : Leaves I (connection p) 0 := deref_leaves

lemma setDevice_leaves {object : FreeSwitchDevice} (h : good I object.monitoringSessions) :
    Leaves I (setDevice p object) 0 :=
  adds_modify fun n _ hs => by
    rw [add_zero]
    exact Invariant.setDevice h hs

lemma setCall_leaves {object : FreeSwitchCall} : Leaves I (setCall p object) 0 :=
  modify_leaves (fun _ => rfl) (fun _ => rfl) fun _ => rfl

lemma setConnection_leaves {object : FreeSwitchConnection} : Leaves I (setConnection p object) 0 :=
  modify_leaves (fun _ => rfl) (fun _ => rfl) fun _ => rfl

lemma checkFree_leaves {ω : Type} {heap : FreeSWITCH → ℕ → Option ω} :
    Leaves I (checkFree heap p) 0 :=
  adds_after adds_get fun s => by
    cases heap s p with
    | some object => exact adds_throw
    | none => exact adds_pure

lemma findConnection_leaves : Leaves I (findConnection p pCall) 0 :=
  adds_after device_leaves fun _ => adds_pure

lemma searchConnection_leaves {entries : List (ℕ × ℕ)} :
    Leaves I (searchConnection uuid entries) 0 := by
  induction entries with
  | nil => exact adds_pure
  | cons entry rest ih => exact adds_after call_leaves fun _ => adds_ite adds_pure ih

lemma findConnectionByUUID_leaves : Leaves I (findConnectionByUUID p uuid) 0 :=
  adds_after device_leaves fun _ => searchConnection_leaves

lemma addConnection_leaves {place : Place} {channel : String} {direction : Direction} :
    Leaves I (addConnection place p uuid channel pCall direction) 0 :=
  adds_after checkFree_leaves fun _ => adds_after call_leaves fun _ =>
    adds_after_of device_good fun _ hgood => adds_after setConnection_leaves fun _ =>
      adds_after setCall_leaves fun _ => adds_after (setDevice_leaves hgood) fun _ => adds_pure

lemma deleteConnection_leaves : Leaves I (deleteConnection p pCall) 0 := by
  refine adds_after_of device_good fun object hgood => ?_
  cases object.connections.find? pCall with
  | none => exact adds_pure
  | some pConnection =>
    refine adds_after connection_leaves fun _ => adds_after call_leaves fun _ => ?_
    exact adds_after (modify_leaves (fun _ => rfl) (fun _ => rfl) fun _ => rfl) fun _ =>
      adds_after (setDevice_leaves hgood) fun _ => setCall_leaves

lemma sendEvent_leaves {event : CSTAEvent} : Leaves I (sendEvent p event) 0 :=
  adds_after_of device_good fun _ hgood => adds_forM fun _ hmem => adds_modify fun _ _ hs => by
    rw [add_zero]
    exact Invariant.send hgood hmem hs

lemma sendIfMonitored_leaves {event : CSTAEvent} : Leaves I (sendIfMonitored p event) 0 :=
  adds_after device_leaves fun _ => adds_ite adds_pure sendEvent_leaves

lemma prepareDevice_leaves {place : Place} {name : String} {type : DeviceType} :
    Leaves I (prepareDevice place name type) 0 := by
  refine adds_after adds_get fun s => ?_
  cases s.deviceMap.find? (type2Prefix type ++ name) with
  | some p => exact adds_pure
  | none =>
    refine adds_after checkFree_leaves fun _ => ?_
    refine adds_after (setDevice_leaves good_empty) fun _ => ?_
    exact adds_after (modify_leaves (fun _ => rfl) (fun _ => rfl) fun _ => rfl) fun _ => adds_pure

lemma getCall_leaves : Leaves I (getCall uuid) 0 := adds_after adds_get fun _ => adds_pure

lemma newCall_leaves {place : Place} : Leaves I (newCall place uuid) 0 :=
  adds_after checkFree_leaves fun _ => adds_after setCall_leaves fun _ =>
    adds_after (modify_leaves (fun _ => rfl) (fun _ => rfl) fun _ => rfl) fun _ => adds_pure

/-- The session is released at once. -/
lemma findCallerCalled_leaves {profile : Option CallerProfile} :
    Leaves I (findCallerCalled uuid profile) 0 := by
  cases profile with
  | none => exact adds_after (perform_leaves _ rfl) fun _ => adds_pure
  | some profile =>
    have hlocate : Leaves I (perform (.locate uuid true)) (.session uuid) := perform_leaves _ rfl
    have hrelease : Leaves I (perform (.rwunlock uuid)) (-.session uuid) := perform_leaves _ rfl
    have h := adds_bind hlocate fun _ => adds_bind hrelease fun _ =>
      (adds_pure : Leaves I (pure (profile.callerIdNumber,
        withoutHost (withoutSip profile.destinationNumber.toList))) 0)
    rw [add_zero, add_neg_cancel] at h
    exact h

/-! ## PrepareCallData -/

lemma findOrCreateCall_leaves {place : Place} {uuid2 : Option String} {bCreateCall : Bool} :
    Leaves I (findOrCreateCall place uuid uuid2 bCreateCall) 0 := by
  refine adds_after getCall_leaves fun found => ?_
  cases found with
  | some pCall => exact adds_pure
  | none =>
    refine adds_after adds_get fun s => ?_
    cases uuid2.bind s.callMap.find? with
    | some pCall => exact adds_pure
    | none => exact adds_ite (adds_after newCall_leaves fun _ => adds_pure) adds_pure

lemma findSubscriber_leaves {place : Place} {channel : String} :
    Leaves I (findSubscriber place channel) 0 :=
  adds_ite adds_pure (adds_ite adds_pure (adds_after prepareDevice_leaves fun _ => adds_pure))

lemma collectTrunk_leaves {wanted : Wanted} {channel : String} {pConnection : ℕ}
    {found : CallData} : Leaves I (collectTrunk wanted uuid channel p pConnection found) 0 :=
  adds_after connection_leaves fun _ =>
    adds_ite (adds_after setConnection_leaves fun _ => adds_pure) adds_pure

lemma collect_leaves {wanted : Wanted} {channel : String} {found : CallData}
    {entry : String × ℕ} : Leaves I (collect wanted pCall uuid channel found entry) 0 := by
  refine adds_after device_leaves fun object => adds_ite adds_pure (adds_ite ?_ adds_pure)
  cases object.connections.find? pCall with
  | none => exact adds_after call_leaves fun _ => adds_after (perform_leaves _ rfl) fun _ => adds_pure
  | some pConnection => exact collectTrunk_leaves

lemma collectAll_leaves {wanted : Wanted} {channel : String} {subscriber : Option ℕ} :
    Leaves I (collectAll wanted pCall uuid channel subscriber) 0 :=
  adds_ite (adds_after call_leaves fun _ => adds_foldlM (fun _ _ => collect_leaves) _ _) adds_pure

lemma prepareCallData_leaves {place : Place} {uuid2 : Option String} {channel : String}
    {bCreateCall : Bool} {wanted : Wanted} {profile : Option CallerProfile} :
    Leaves I (prepareCallData place uuid uuid2 channel bCreateCall wanted profile) 0 := by
  refine adds_after findOrCreateCall_leaves fun found => ?_
  cases found with
  | none => exact adds_pure
  | some pCall =>
    refine adds_after findSubscriber_leaves fun subscriber => ?_
    cases subscriber with
    | none => exact adds_pure
    | some subscriber =>
      refine adds_after collectAll_leaves fun data => ?_
      cases data.device with
      | none => exact adds_pure
      | some pDevice =>
        refine adds_after findConnection_leaves fun _ => ?_
        exact adds_after (adds_ite findCallerCalled_leaves adds_pure) fun _ => adds_pure

end

/-! ## Handlers of events -/

/-- What a handler does under the mutex releases it. -/
lemma locked_leaves {α : Type} {act : PUnit → Handler α} {w : Tally}
    (h : ∀ a, Leaves I (act a) (w - .mutex)) : Leaves I (perform .lock >>= act) w := by
  have hboth := adds_bind lock_leaves h
  rw [add_sub_cancel] at hboth
  exact hboth

lemma released_leaves : Leaves I (perform .unlock) (0 - .mutex) := by
  rw [zero_sub]
  exact unlock_leaves

section

variable {place : Place} {event : Event} {profile : Option CallerProfile}

lemma deviceIdOf_leaves {found : Option ℕ} : Leaves I (deviceIdOf found) 0 := by
  cases found with
  | none => exact adds_pure
  | some p => exact adds_after device_leaves fun _ => adds_pure

lemma setState_leaves {pConnection : ℕ} {state : ConnectionState} :
    Leaves I (setState pConnection state) 0 :=
  adds_after connection_leaves fun _ => setConnection_leaves

lemma foundOrAdded_leaves {uuid channel : String} {prepared : Prepared} :
    Leaves I (foundOrAdded place uuid channel prepared) 0 := by
  unfold foundOrAdded
  cases prepared.pConnection with
  | none => exact addConnection_leaves
  | some pConnection => exact adds_pure

lemma onChannelCreate_leaves : Leaves I (onChannelCreate place event) 0 := by
  unfold onChannelCreate
  cases event.getHeader "Channel-Name" with
  | none => exact adds_pure
  | some channel =>
    refine adds_ite adds_pure (locked_leaves fun _ => adds_after prepareDevice_leaves fun p => ?_)
    refine adds_after device_leaves fun object => ?_
    cases event.getHeader "Call-Direction" with
    | none => exact released_leaves
    | some direction =>
      cases event.getHeader "Unique-ID" with
      | none => exact released_leaves
      | some uuid =>
        refine adds_ite released_leaves (adds_after getCall_leaves fun found => ?_)
        cases found with
        | some pCall => exact released_leaves
        | none =>
          refine adds_after newCall_leaves fun _ => adds_after addConnection_leaves fun _ => ?_
          exact adds_after sendIfMonitored_leaves fun _ => released_leaves

/-- The handlers of the events of a leg do nothing where the call and the device are not found. -/
lemma prepared_leaves {uuid channel : String} {uuid2 : Option String} {bCreateCall : Bool}
    {wanted : Wanted} {act : Prepared → Handler Unit}
    (h : ∀ prepared, Leaves I (act prepared) (0 - .mutex)) :
    Leaves I (do
      perform .lock
      match ← prepareCallData place uuid uuid2 channel bCreateCall wanted profile with
      | none => perform .unlock
      | some prepared => act prepared) 0 := by
  refine locked_leaves fun _ => adds_after prepareCallData_leaves fun found => ?_
  cases found with
  | none => exact released_leaves
  | some prepared => exact h prepared

lemma onProgress_leaves : Leaves I (onProgress place event profile) 0 := by
  unfold onProgress
  cases event.leg with
  | none => exact adds_pure
  | some leg =>
    refine prepared_leaves fun prepared => adds_after foundOrAdded_leaves fun _ => ?_
    refine adds_after setState_leaves fun _ => adds_after deviceIdOf_leaves fun _ => ?_
    refine adds_after deviceIdOf_leaves fun _ => adds_after device_leaves fun _ => ?_
    refine adds_after call_leaves fun _ => ?_
    exact adds_after (adds_forM fun _ _ => sendEvent_leaves) fun _ => released_leaves

lemma onChannelAnswer_leaves : Leaves I (onChannelAnswer place event profile) 0 := by
  unfold onChannelAnswer
  cases event.leg with
  | none => exact adds_pure
  | some leg =>
    refine prepared_leaves fun prepared => adds_after foundOrAdded_leaves fun _ => ?_
    refine adds_after setState_leaves fun _ => adds_after deviceIdOf_leaves fun _ => ?_
    refine adds_after deviceIdOf_leaves fun _ => adds_after deviceIdOf_leaves fun _ => ?_
    refine adds_after call_leaves fun _ => adds_after sendIfMonitored_leaves fun _ => ?_
    exact adds_after (adds_forM fun _ _ => sendIfMonitored_leaves) fun _ => released_leaves

lemma hangupCause_leaves {cause : Option String} : Leaves I (hangupCause cause) 0 := by
  cases cause with
  | none => exact adds_throw
  | some cause =>
    exact adds_ite adds_pure (adds_ite adds_pure (adds_ite adds_pure (adds_ite adds_pure adds_pure)))

lemma hangUpDevice_leaves {pDevice n : ℕ} {uuid : String} {cleared : CSTAEvent}
    {pQueue : Option ℕ} {entry : String × ℕ} :
    Leaves I (hangUpDevice pDevice uuid n cleared pQueue entry) 0 := by
  refine adds_after findConnectionByUUID_leaves fun found => ?_
  cases found with
  | none => exact adds_after (perform_leaves _ rfl) fun _ => adds_pure
  | some pConnection =>
    refine adds_after device_leaves fun _ => adds_after connection_leaves fun _ => ?_
    refine adds_after setConnection_leaves fun _ => ?_
    exact adds_after sendIfMonitored_leaves fun _ => adds_pure

lemma clearQueue_leaves {pCall : ℕ} {uuid : String} {cause : Option EventCause}
    {pQueue : Option ℕ} : Leaves I (clearQueue pCall uuid cause pQueue) 0 := by
  cases pQueue with
  | none => exact adds_pure
  | some q =>
    exact adds_after device_leaves fun _ => adds_after sendIfMonitored_leaves fun _ =>
      deleteConnection_leaves

lemma deleteIfEmpty_leaves {pCall : ℕ} : Leaves I (deleteIfEmpty pCall) 0 :=
  adds_after call_leaves fun _ =>
    adds_ite (modify_leaves (fun _ => rfl) (fun _ => rfl) fun _ => rfl) adds_pure

lemma onChannelHangup_leaves : Leaves I (onChannelHangup place event) 0 := by
  unfold onChannelHangup
  cases event.leg with
  | none => exact adds_pure
  | some leg =>
    refine prepared_leaves fun prepared => adds_after call_leaves fun _ => ?_
    refine adds_after device_leaves fun _ => adds_after hangupCause_leaves fun _ => ?_
    refine adds_after (adds_foldlM (fun _ _ => hangUpDevice_leaves) _ _) fun _ => ?_
    refine adds_after deleteConnection_leaves fun _ => adds_after clearQueue_leaves fun _ => ?_
    exact adds_after deleteIfEmpty_leaves fun _ => released_leaves

lemma onDtmf_leaves : Leaves I (onDtmf place event) 0 := by
  unfold onDtmf
  cases event.leg with
  | none => exact adds_pure
  | some leg =>
    refine prepared_leaves fun prepared => ?_
    cases event.getHeader "DTMF-Digit" with
    | none => exact released_leaves
    | some digit =>
      refine adds_after device_leaves fun _ => adds_after call_leaves fun _ => ?_
      refine adds_after sendIfMonitored_leaves fun _ => ?_
      exact adds_after (adds_forM fun _ _ => sendIfMonitored_leaves) fun _ => released_leaves

lemma onFile_leaves {kind : EventKind} {cause : Option EventCause} {file : String → String} :
    Leaves I (onFile place event kind cause file) 0 := by
  unfold onFile
  cases event.leg with
  | none => exact adds_pure
  | some leg =>
    refine prepared_leaves fun prepared => ?_
    cases event.getHeader "Application-Data" with
    | none => exact released_leaves
    | some data =>
      refine adds_after call_leaves fun _ => adds_after device_leaves fun _ => ?_
      exact adds_after (adds_forM fun _ _ => sendIfMonitored_leaves) fun _ => released_leaves

end

section

variable {place : Place} {name : Option String} {session : CoreSession}

lemma enterCall_leaves {type : DeviceType} {uuid channel : String} {direction : Direction} :
    Leaves I (enterCall place name type session uuid channel direction) 0 := by
  refine adds_after ?_ fun given => adds_after prepareDevice_leaves fun _ => ?_
  · cases name with
    | none => exact adds_throw
    | some given => exact adds_pure
  · refine adds_after (adds_after getCall_leaves fun found => ?_) fun _ =>
      adds_after addConnection_leaves fun _ => adds_pure
    cases found with
    | none => exact newCall_leaves
    | some pCall => exact adds_pure

lemma firstTrunk_leaves {entries : List (String × ℕ)} : Leaves I (firstTrunk entries) 0 := by
  induction entries with
  | nil => exact adds_pure
  | cons entry rest ih => exact adds_after device_leaves fun _ => adds_ite adds_pure ih

lemma onCallQueued_leaves : Leaves I (onCallQueued place name session) 0 := by
  refine locked_leaves fun _ => adds_after enterCall_leaves fun entered => ?_
  refine adds_after setState_leaves fun _ => adds_after device_leaves fun _ => ?_
  refine adds_after call_leaves fun _ => ?_
  refine adds_after (adds_ite firstTrunk_leaves adds_pure) fun _ => ?_
  exact adds_after (adds_forM fun _ _ => sendIfMonitored_leaves) fun _ => released_leaves

lemma onCallNetworkIncoming_leaves : Leaves I (onCallNetworkIncoming place name session) 0 :=
  locked_leaves fun _ => adds_after enterCall_leaves fun _ => adds_after device_leaves fun _ =>
    adds_after sendIfMonitored_leaves fun _ => released_leaves

lemma onCallNetworkOutgoing_leaves : Leaves I (onCallNetworkOutgoing place name session) 0 :=
  locked_leaves fun _ => adds_after enterCall_leaves fun _ => released_leaves

end

lemma good_erased {monitors : OrderedMap String ℕ} (ids : List String) (h : good I monitors) :
    good I (ids.foldl OrderedMap.erase monitors) := by
  induction ids generalizing monitors with
  | nil => exact h
  | cons id rest ih => exact ih (good_erase id h)

lemma removeMonitor_leaves {session p : ℕ} : Leaves I (removeMonitor session p) 0 :=
  adds_after_of device_good fun _ hgood => setDevice_leaves (good_erased _ hgood)

lemma onSessionFinished_leaves {session : ℕ} : Leaves I (onSessionFinished session) 0 :=
  locked_leaves fun _ => adds_after adds_get fun _ =>
    adds_after (adds_forM fun _ _ => removeMonitor_leaves) fun _ => released_leaves

/-! ## Requests -/

section

variable {place : Place} {sender : ℕ} {invokeID : ℤ}

lemma respond_leaves {response : Response} (h : response.invokeID = invokeID) :
    Leaves I (respond sender response) (.answer sender invokeID) := by
  rw [← h]
  exact perform_leaves _ rfl

lemma refuse_leaves {error : ErrorCode} :
    Leaves I (refuse sender invokeID error) (.answer sender invokeID - .mutex) := by
  have hrespond : Leaves I (respond sender (.universalError invokeID error))
      (.answer sender invokeID) := respond_leaves rfl
  have h := adds_bind unlock_leaves fun _ => hrespond
  rw [neg_add_eq_sub] at h
  exact h

/-- The answer goes out under the mutex. -/
lemma answered_leaves {response : Response} (h : response.invokeID = invokeID) :
    Leaves I (do respond sender response; perform .unlock) (.answer sender invokeID - .mutex) := by
  have hrespond : Leaves I (respond sender response) (.answer sender invokeID) := respond_leaves h
  have hboth := adds_bind hrespond fun _ => unlock_leaves
  rw [← sub_eq_add_neg] at hboth
  exact hboth

lemma anyMonitoredWithID_leaves {crossRefID : String} {entries : List (String × ℕ)} :
    Leaves I (anyMonitoredWithID crossRefID entries) 0 := by
  induction entries with
  | nil => exact adds_pure
  | cons entry rest ih => exact adds_after device_leaves fun _ => adds_ite adds_pure ih

lemma isXRefIDUsed_leaves {crossRefID : String} : Leaves I (isXRefIDUsed crossRefID) 0 := by
  refine locked_leaves fun _ => adds_after adds_get fun _ => ?_
  refine adds_after anyMonitoredWithID_leaves fun used => ?_
  have hreleased : Leaves I (perform .unlock) (0 - .mutex) := released_leaves
  have h := adds_bind hreleased fun _ => (adds_pure : Leaves I (pure used) 0)
  rw [add_zero] at h
  exact h

lemma getNextXRefID_leaves : Leaves I getNextXRefID 0 :=
  adds_after adds_get fun _ =>
    adds_after (modify_leaves (fun _ => rfl) (fun _ => rfl) fun _ => rfl) fun _ => adds_pure

lemma searchXRefID_leaves {n : ℕ} {crossRefID : String} :
    Leaves I (searchXRefID n crossRefID) 0 := by
  induction n generalizing crossRefID with
  | zero => exact adds_throw
  | succ n ih =>
    exact adds_after isXRefIDUsed_leaves fun _ =>
      adds_ite (adds_after getNextXRefID_leaves fun _ => ih) adds_pure

lemma addMonitor_leaves {p session : ℕ} {crossRefID : String} (h : Admits I session) :
    Leaves I (addMonitor p session crossRefID) 0 :=
  adds_after_of device_good fun _ hgood =>
    adds_ite adds_pure (adds_after (setDevice_leaves (h _ _ hgood)) fun _ => adds_pure)

lemma monitorStart_leaves {monitorObject : DeviceID} (h : Admits I sender) :
    Leaves I (monitorStart place sender invokeID monitorObject) (.answer sender invokeID) := by
  refine adds_ite (respond_leaves rfl) (locked_leaves fun _ => ?_)
  refine adds_after prepareDevice_leaves fun _ => adds_after device_leaves fun _ => ?_
  refine adds_after searchXRefID_leaves fun _ => adds_after (addMonitor_leaves h) fun _ => ?_
  exact adds_ite (answered_leaves rfl) (answered_leaves rfl)

lemma snapshotConnection_leaves {snapshotObject : DeviceID} {entry : ℕ × ℕ} :
    Leaves I (snapshotConnection snapshotObject entry) 0 :=
  adds_after connection_leaves fun _ => adds_after call_leaves fun _ => adds_pure

lemma snapshotDevice_leaves {snapshotObject : DeviceID} :
    Leaves I (snapshotDevice place sender invokeID snapshotObject) (.answer sender invokeID) := by
  refine adds_ite (respond_leaves rfl) (locked_leaves fun _ => ?_)
  refine adds_after prepareDevice_leaves fun _ => adds_after device_leaves fun _ => ?_
  exact adds_after (adds_mapM (fun _ => snapshotConnection_leaves) _) fun _ => answered_leaves rfl

lemma snapshotMember_leaves {pCall : ℕ} {uuid : String} {entry : String × ℕ} :
    Leaves I (snapshotMember pCall uuid entry) 0 := by
  refine adds_after device_leaves fun object => ?_
  cases object.connections.find? pCall with
  | none => exact adds_after (perform_leaves _ rfl) fun _ => adds_pure
  | some pConnection => exact adds_after connection_leaves fun _ => adds_pure

lemma snapshotCall_leaves {callID : String} {profile : Option CallerProfile} :
    Leaves I (snapshotCall sender invokeID callID profile) (.answer sender invokeID) := by
  refine locked_leaves fun _ => adds_after getCall_leaves fun found => ?_
  cases found with
  | none => exact refuse_leaves
  | some pCall =>
    refine adds_after call_leaves fun _ => ?_
    refine adds_after (adds_mapM (fun _ => snapshotMember_leaves) _) fun _ => ?_
    exact adds_after findCallerCalled_leaves fun _ => answered_leaves rfl

lemma setMakeCallOriginator_leaves (value : Bool) (pDevice : Option ℕ) :
    Leaves I (setMakeCallOriginator value pDevice) 0 := by
  cases pDevice with
  | none => exact adds_pure
  | some p => exact adds_after_of device_good fun _ hgood => setDevice_leaves hgood

lemma makeCall_leaves {device : DeviceID} :
    Leaves I (makeCall place sender invokeID device) (.waiting sender invokeID) := by
  refine adds_after (adds_ite (adds_after prepareDevice_leaves fun _ => adds_pure) adds_pure)
    fun pDevice => adds_after (setMakeCallOriginator_leaves _ _) fun _ => ?_
  exact adds_modify fun _ _ hs => Invariant.wait hs

lemma makeCallOriginated_nothing {s : FreeSWITCH} {n : ℕ} {session : Option String}
    (h : s.pendingMakeCalls[n]? = none) :
    Sat (fun _ => True) (· = s) (makeCallOriginated n session) fun _ s' => s' = s := by
  refine sat_bind (Q := fun t t' => t = s ∧ t' = s) (sat_get fun _ hs => ⟨hs, hs⟩) fun t => ?_
  refine sat_of (fun _ hs => hs.1) fun ht => ?_
  subst ht
  rw [h]
  exact sat_pure fun _ hs => hs.2

/-- The request of the call that has been originated is answered. -/
lemma makeCallOriginated_tally {s : FreeSWITCH} {n : ℕ} (session : Option String)
    {pending : PendingMakeCall} (h : s.pendingMakeCalls[n]? = some pending) :
    Sat (fun _ => True) (· = s) (makeCallOriginated n session) fun _ s' =>
      s'.tally = s.tally - pending.tally + (.answer pending.sender pending.invokeID -
        (session.map Tally.session).getD 0) := by
  refine sat_bind (Q := fun t t' => t = s ∧ t' = s) (sat_get fun _ hs => ⟨hs, hs⟩) fun t => ?_
  refine sat_of (fun _ hs => hs.1) fun ht => ?_
  subst ht
  rw [h]
  refine sat_bind (Q := fun _ t' => t'.tally = t.tally - pending.tally)
    (sat_modify fun t' ht' => by rw [ht'.2, tally_eraseIdx h]) fun _ => ?_
  cases session with
  | none =>
    have hrespond : Leaves Counted
        (respond pending.sender (.universalError pending.invokeID .genericError))
        (.answer pending.sender pending.invokeID) := respond_leaves rfl
    have hrest := adds_bind hrespond fun _ => setMakeCallOriginator_leaves false pending.pDevice
    rw [add_zero] at hrest
    rw [Option.map_none, Option.getD_none, sub_zero]
    exact hrest _
  | some uuid =>
    have hrespond : Leaves Counted
        (respond pending.sender (.makeCall pending.invokeID ⟨pending.callingDevice, uuid⟩))
        (.answer pending.sender pending.invokeID) := respond_leaves rfl
    have hrest := adds_bind hrespond fun _ =>
      adds_after (setMakeCallOriginator_leaves false pending.pDevice) fun _ =>
        perform_leaves (.rwunlock uuid) rfl
    rw [Option.map_some, Option.getD_some, sub_eq_add_neg]
    exact hrest _

/-- What is done with the connection answers the request and releases the mutex. -/
lemma withConnection_leaves {connectionID : ConnectionID} {act : ℕ → Handler Unit}
    (h : ∀ pConnection, Leaves I (act pConnection) (.answer sender invokeID - .mutex)) :
    Leaves I (withConnection sender invokeID connectionID act) (.answer sender invokeID) := by
  refine locked_leaves fun _ => adds_after getCall_leaves fun found => ?_
  cases found with
  | none => exact refuse_leaves
  | some pCall =>
    refine adds_after call_leaves fun object => ?_
    cases object.devices.find? connectionID.deviceID.callNr with
    | none => exact refuse_leaves
    | some pDevice =>
      refine adds_after findConnection_leaves fun found => ?_
      cases found with
      | none => exact refuse_leaves
      | some pConnection => exact h pConnection

/-- What is done with the session releases it, too. -/
lemma withSession_leaves {error : ErrorCode} {located : Bool} {act : String → Handler Unit}
    {pConnection : ℕ} (h : located = true → ∀ uuid,
      Leaves I (act uuid) (.answer sender invokeID - .session uuid - .mutex)) :
    Leaves I (withSession sender invokeID error located act pConnection)
      (.answer sender invokeID - .mutex) := by
  refine adds_after connection_leaves fun object => ?_
  cases located with
  | false => exact adds_after (perform_leaves _ rfl) fun _ => refuse_leaves
  | true =>
    have hboth := adds_bind (perform_leaves (.locate object.strUUID true) rfl) fun _ =>
      h rfl object.strUUID
    have hsum : Effect.tally (.locate object.strUUID true) +
        (Tally.answer sender invokeID - .session object.strUUID - .mutex) =
          Tally.answer sender invokeID - .mutex := by
      rw [Effect.tally, if_pos rfl]
      abel
    rw [hsum] at hboth
    exact hboth

lemma answerAndRelease_leaves {service : Service} {accepted : Bool} {uuid : String} :
    Leaves I (answerAndRelease sender invokeID service accepted uuid)
      (.answer sender invokeID - .session uuid - .mutex) := by
  have hanswer : Leaves I (answer sender invokeID service accepted) (.answer sender invokeID) :=
    respond_leaves (by cases accepted <;> rfl)
  have h := adds_bind hanswer fun _ => adds_bind (perform_leaves (.rwunlock uuid) rfl)
    fun _ => unlock_leaves
  have hsum : Tally.answer sender invokeID + (Effect.tally (.rwunlock uuid) + -.mutex) =
      Tally.answer sender invokeID - .session uuid - .mutex := by
    rw [Effect.tally]
    abel
  rw [hsum] at h
  exact h

variable {connectionID : ConnectionID} {located : Bool}

lemma answerCall_leaves {answered : Bool} :
    Leaves I (answerCall sender invokeID connectionID located answered)
      (.answer sender invokeID) :=
  withConnection_leaves fun _ => withSession_leaves fun _ _ => answerAndRelease_leaves

lemma playMessage_leaves {broadcast : Bool} :
    Leaves I (playMessage sender invokeID connectionID broadcast) (.answer sender invokeID) :=
  withConnection_leaves fun _ => adds_after connection_leaves fun _ =>
    answered_leaves (by cases broadcast <;> rfl)

lemma clearConnection_leaves {hungUp : Bool} :
    Leaves I (clearConnection sender invokeID connectionID located hungUp)
      (.answer sender invokeID) :=
  withConnection_leaves fun _ => withSession_leaves fun _ _ => answerAndRelease_leaves

/-- Nothing is being played or recorded, or there is no session. -/
lemma recordMessage_leaves {inProgress eventCreated : Bool}
    (h : ¬ (located = true ∧ inProgress = true)) :
    Leaves I (recordMessage sender invokeID connectionID located inProgress eventCreated)
      (.answer sender invokeID) :=
  withConnection_leaves fun _ => withSession_leaves fun hlocated uuid => by
    rw [if_neg fun hprogress => h ⟨hlocated, hprogress⟩]
    exact answerAndRelease_leaves

lemma stopMessage_leaves {inProgress : Bool} (h : ¬ (located = true ∧ inProgress = false)) :
    Leaves I (stopMessage sender invokeID connectionID located inProgress)
      (.answer sender invokeID) :=
  withConnection_leaves fun _ => withSession_leaves fun hlocated uuid => by
    cases inProgress with
    | true => exact answerAndRelease_leaves
    | false => exact absurd ⟨hlocated, rfl⟩ h

end

/-! ## The handlers of which the tally does not depend on the state -/

/-- What such a handler adds; a transfer, a call that has been originated, and the requests to
record and to stop a message are not among them. -/
def Action.tally : Action → Option Tally
  | .monitorStart sender invokeID _ => some (.answer sender invokeID)
  | .snapshotDevice sender invokeID _ => some (.answer sender invokeID)
  | .snapshotCall sender invokeID _ _ => some (.answer sender invokeID)
  | .makeCall sender invokeID _ => some (.waiting sender invokeID)
  | .answerCall sender invokeID _ _ _ => some (.answer sender invokeID)
  | .playMessage sender invokeID _ _ => some (.answer sender invokeID)
  | .clearConnection sender invokeID _ _ _ => some (.answer sender invokeID)
  | .makeCallOriginated _ _ => none
  | .recordMessage _ _ _ _ _ _ => none
  | .stopMessage _ _ _ _ _ => none
  | .singleStepTransferCall _ _ _ _ _ => none
  | .deflectCall _ _ _ _ => none
  | _ => some 0

/-- Only a new monitor needs to be admitted. -/
def Action.Admitted (I : Tally → FreeSWITCH → Prop) [Invariant I] : Action → Prop
  | .monitorStart sender _ _ => Admits I sender
  | _ => True

lemma Action.admitted_counted (action : Action) : action.Admitted Counted := by
  cases action <;> first | exact admits_counted _ | exact trivial

lemma handle_leaves {place : Place} {action : Action} {w : Tally} (h : action.tally = some w)
    (hadmitted : action.Admitted I) :
    Leaves I (handle place action) w := by
  cases action with
  | makeCallOriginated => cases h
  | recordMessage => cases h
  | stopMessage => cases h
  | singleStepTransferCall => cases h
  | deflectCall => cases h
  | channelCreate => cases h; exact onChannelCreate_leaves
  | progress => cases h; exact onProgress_leaves
  | channelAnswer => cases h; exact onChannelAnswer_leaves
  | channelHangup => cases h; exact onChannelHangup_leaves
  | dtmf => cases h; exact onDtmf_leaves
  | playback => cases h; exact onFile_leaves
  | record => cases h; exact onFile_leaves
  | callQueued => cases h; exact onCallQueued_leaves
  | callNetworkIncoming => cases h; exact onCallNetworkIncoming_leaves
  | callNetworkOutgoing => cases h; exact onCallNetworkOutgoing_leaves
  | sessionFinished => cases h; exact onSessionFinished_leaves
  | monitorStart => cases h; exact monitorStart_leaves hadmitted
  | snapshotDevice => cases h; exact snapshotDevice_leaves
  | snapshotCall => cases h; exact snapshotCall_leaves
  | makeCall => cases h; exact makeCall_leaves
  | answerCall => cases h; exact answerCall_leaves
  | playMessage => cases h; exact playMessage_leaves
  | clearConnection => cases h; exact clearConnection_leaves

/-- No handler of this kind keeps a lock. -/
lemma Action.tally_released {action : Action} {w : Tally} (h : action.tally = some w) :
    w.1 = 0 ∧ w.2.1 = 0 := by
  cases action <;> cases h <;> exact ⟨rfl, rfl⟩

/-! ## All handlers -/

/-- The property is kept, whatever is added to the tally. -/
abbrev Stays (I : Tally → FreeSWITCH → Prop) {α : Type} (m : Handler α) : Prop :=
  Sat (fun _ => True) (fun s => ∃ n, I n s) m fun _ s => ∃ n, I n s

lemma stays_of {α : Type} {m : Handler α} {w : Tally} (h : Leaves I m w) : Stays I m := by
  rintro s ⟨n, hs⟩
  exact (h n).mono (fun _ hs => hs) (fun _ _ hs => ⟨n + w, hs⟩) s hs

section

variable {sender : ℕ} {invokeID : ℤ}

lemma stays_pure {α : Type} {a : α} : Stays I (pure a) := stays_of adds_pure

lemma withConnection_stays {connectionID : ConnectionID} {act : ℕ → Handler Unit}
    (h : ∀ pConnection, Stays I (act pConnection)) :
    Stays I (withConnection sender invokeID connectionID act) := by
  refine sat_bind (stays_of lock_leaves) fun _ => ?_
  refine sat_bind (stays_of getCall_leaves) fun found => ?_
  cases found with
  | none => exact stays_of refuse_leaves
  | some pCall =>
    refine sat_bind (stays_of call_leaves) fun object => ?_
    cases object.devices.find? connectionID.deviceID.callNr with
    | none => exact stays_of refuse_leaves
    | some pDevice =>
      refine sat_bind (stays_of findConnection_leaves) fun found => ?_
      cases found with
      | none => exact stays_of refuse_leaves
      | some pConnection => exact h pConnection

lemma withSession_stays {error : ErrorCode} {located : Bool} {act : String → Handler Unit}
    (h : ∀ uuid, Stays I (act uuid)) (pConnection : ℕ) :
    Stays I (withSession sender invokeID error located act pConnection) :=
  sat_bind (stays_of connection_leaves) fun _ =>
    sat_bind (stays_of (perform_leaves _ rfl)) fun _ =>
      sat_ite (fun _ => h _) fun _ => stays_of refuse_leaves

lemma transferOthers_stays {done : Response} {core : Transfer} {p pCall : ℕ} {u : String}
    {entries : List (String × ℕ)} :
    Stays I (transferOthers sender invokeID done core p pCall u entries) := by
  induction entries with
  | nil => exact stays_pure
  | cons entry rest ih =>
    refine sat_ite (fun _ => ih) fun _ => ?_
    refine sat_bind (stays_of findConnection_leaves) fun found => ?_
    cases found with
    | none =>
      exact sat_bind (stays_of (perform_leaves _ rfl)) fun _ =>
        sat_bind (stays_of refuse_leaves) fun _ => stays_pure
    | some pConnection =>
      refine sat_bind (stays_of connection_leaves) fun _ => ?_
      refine sat_bind (stays_of (perform_leaves _ rfl)) fun _ => sat_ite (fun _ => ?_) fun _ =>
        sat_bind (stays_of refuse_leaves) fun _ => stays_pure
      exact sat_bind (stays_of (respond_leaves rfl)) fun _ =>
        sat_bind (stays_of (perform_leaves _ rfl)) fun _ => ih

lemma transfer_stays {activeCall : ConnectionID} {core : Transfer} {done : String → Response} :
    Stays I (transfer sender invokeID activeCall core done) := by
  refine sat_bind (stays_of lock_leaves) fun _ => ?_
  refine sat_bind (stays_of getCall_leaves) fun found => ?_
  cases found with
  | none => exact stays_of refuse_leaves
  | some pCall =>
    refine sat_bind (stays_of call_leaves) fun object => ?_
    cases object.devices.find? activeCall.deviceID.callNr with
    | none => exact stays_of refuse_leaves
    | some p =>
      refine sat_bind transferOthers_stays fun finished => ?_
      refine sat_ite (fun _ => ?_) fun _ => stays_pure
      exact sat_bind (stays_of deleteConnection_leaves) fun _ => stays_of unlock_leaves

lemma singleStepTransferCall_stays {activeCall : ConnectionID} {transferredTo : DeviceID}
    {core : Transfer} :
    Stays I (singleStepTransferCall sender invokeID activeCall transferredTo core) :=
  transfer_stays

lemma deflectCall_stays {callToBeDiverted : ConnectionID} {core : Transfer} :
    Stays I (deflectCall sender invokeID callToBeDiverted core) := transfer_stays

lemma makeCallOriginated_stays {i : ℕ} {session : Option String} :
    Stays I (makeCallOriginated i session) := by
  refine sat_bind (Q := fun t s => t = s ∧ ∃ n, I n s) (sat_get fun _ hs => ⟨rfl, hs⟩) fun t => ?_
  cases hi : t.pendingMakeCalls[i]? with
  | none => exact stays_pure.mono (fun _ hs => hs.2) fun _ _ hs => hs
  | some pending =>
    refine sat_bind (Q := fun _ s => ∃ n, I n s) (sat_modify ?_) fun _ => ?_
    · rintro s ⟨rfl, n, hs⟩
      exact ⟨n - pending.tally, resume hi hs⟩
    · cases session with
      | none =>
        exact sat_bind (stays_of (respond_leaves rfl)) fun _ =>
          stays_of (setMakeCallOriginator_leaves _ _)
      | some uuid =>
        exact sat_bind (stays_of (respond_leaves rfl)) fun _ =>
          sat_bind (stays_of (setMakeCallOriginator_leaves _ _)) fun _ =>
            stays_of (perform_leaves _ rfl)

end

/-- **Every handler** keeps the property. -/
theorem handle_stays {place : Place} {action : Action} (hadmitted : action.Admitted I) :
    Stays I (handle place action) := by
  cases htally : action.tally with
  | some w =>
    have hleaves : Leaves I (handle place action) w := handle_leaves htally hadmitted
    exact stays_of hleaves
  | none =>
    cases action with
    | makeCallOriginated => exact makeCallOriginated_stays
    | recordMessage =>
      exact withConnection_stays (withSession_stays fun _ =>
        sat_ite (fun _ => stays_of refuse_leaves) fun _ => stays_of answerAndRelease_leaves)
    | stopMessage =>
      exact withConnection_stays (withSession_stays fun _ =>
        sat_ite (fun _ => stays_of answerAndRelease_leaves) fun _ => stays_of refuse_leaves)
    | singleStepTransferCall => exact singleStepTransferCall_stays
    | deflectCall => exact deflectCall_stays
    | _ => cases htally

/-- A run keeps what its handlers keep. -/
lemma run_stays {actions : List (Place × Action)} {s s' : FreeSWITCH} (hs : ∃ n, I n s)
    (hadmitted : ∀ step ∈ actions, step.2.Admitted I) (hrun : run s actions = .ok s') :
    ∃ n, I n s' := by
  induction actions generalizing s with
  | nil =>
    cases hrun
    exact hs
  | cons step actions ih =>
    obtain ⟨place, action⟩ := step
    rw [run] at hrun
    cases hstep : (handle place action).run s with
    | error fault =>
      rw [hstep] at hrun
      cases hrun
    | ok result =>
      rw [hstep] at hrun
      have hstays : Stays I (handle place action) := handle_stays (hadmitted _ List.mem_cons_self)
      exact ih (hstays.ok hs hstep)
        (fun step hmem => hadmitted step (List.mem_cons_of_mem _ hmem)) hrun

end Csta
