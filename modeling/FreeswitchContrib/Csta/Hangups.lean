import FreeswitchContrib.Csta.Answers
import FreeswitchContrib.Csta.Persistence

/-!
# What a hangup leaves of a call

`OnChannelHangup` goes through the devices of the call, sets the connections of queues and of the
device that hangs up to null, and deletes the connections of that device and of one queue.

* `Hung` — the devices that the loop is done with.
* `Removed` — the devices of which the connection has been deleted.
* `Cleared` — what a hangup is to leave, `ForgetsNoQueue` what it takes.
* **`hangup_clears_iff`** — the call is cleared when there is a cause and the loop forgets no queue.
-/

namespace Csta

open Faulting

/-! ## The statement -/

/-- `PrepareCallData`, as `OnChannelHangup` calls it. -/
def prepareHangup (place : Place) (leg : String × String × Option String) :
    Handler (Option Prepared) := do
  perform .lock
  prepareCallData place leg.2.1 leg.2.2 leg.1 false {} none

/-- The effects say that the connection of the device is cleared, to all its monitors. -/
def Reports (object : FreeSwitchDevice) (uuid : String) (sent : List Effect) : Prop :=
  ∀ monitor ∈ object.monitoringSessions.entries, ∃ event : CSTAEvent,
    event.kind = .connectionCleared ∧ event.connection = (object.strDevice, uuid) ∧
      .event monitor.2 event monitor.1 ∈ sent

/-- From what `PrepareCallData` leaves on, the connections of the call are cleared. -/
structure Cleared (prepared : Prepared) (s s' : FreeSWITCH) : Prop where
  noneNull : ∀ p x connection, s'.shape.link p prepared.pCall = some x →
    s'.connections x = some connection → connection.state ≠ .null
  reported : ∀ p pCall x object call, s.shape.link p pCall = some x →
    s'.shape.link p pCall = none → s.devices p = some object → s.calls pCall = some call →
      Reports object call.strUUID (s'.effects.drop s.effects.length)
  unchanged : ∀ call, s.calls prepared.pCall = some call → 2 < call.devices.entries.length →
    ∀ x connection, s'.connections x = some connection →
      ∃ before, s.connections x = some before ∧ connection.state = before.state
  forgotten : ∀ call, s.calls prepared.pCall = some call →
    (s'.callMap.find? call.strUUID = none ↔ ∀ p, s'.shape.link p prepared.pCall = none)

def FreeSWITCH.isQueue (s : FreeSWITCH) (p : ℕ) : Bool :=
  (s.devices p).any fun object => object.deviceType = .queue

/-- The queues of the call, in the order of their ids. -/
def FreeSWITCH.queues (s : FreeSWITCH) (call : FreeSwitchCall) : List ℕ :=
  (call.devices.entries.map Prod.snd).filter s.isQueue

/-- Every queue of the call is the last one or the device that hangs up. -/
def ForgetsNoQueue (prepared : Prepared) (s : FreeSWITCH) : Prop :=
  ∀ call, s.calls prepared.pCall = some call → ∀ p ∈ s.queues call,
    p = prepared.pDevice ∨ (s.queues call).getLast? = some p

/-! ## What is sent -/

variable {s t : FreeSWITCH} {p pCall pDevice n : ℕ} {k u : String}

lemma forM_perform {α : Type} (effect : α → Effect) (l : List α) :
    Sat (fun _ => True) (· = t) (l.forM fun a => perform (effect a)) fun _ t' =>
      t' = { t with effects := t.effects ++ l.map effect } := by
  induction l generalizing t with
  | nil => exact sat_pure fun _ ht => ht.trans (by rw [List.map_nil, List.append_nil])
  | cons a l ih =>
    refine sat_bind (Q := fun _ t' => t' = { t with effects := t.effects ++ [effect a] })
      (sat_modify fun _ ht => by rw [ht]) fun _ => ?_
    refine ih.mono (fun _ ht => ht) fun _ t' ht' => ht'.trans ?_
    rw [List.map_cons, List.append_assoc, List.singleton_append]

/-- An event goes to all monitors of the device. -/
lemma sendIfMonitored_sends {event : CSTAEvent} :
    Sat (fun _ => True) (· = t) (sendIfMonitored p event) fun _ t' =>
      ∃ object, t.devices p = some object ∧ t' = { t with
        effects := t.effects ++ object.monitoringSessions.entries.map
          (fun monitor => .event monitor.2 event monitor.1) } := by
  refine sat_bind deref_finds fun object => sat_ite (fun hempty => ?_) fun _ => ?_
  · refine sat_pure fun t' ht' => ⟨object, ht'.1 ▸ ht'.2, ht'.1.trans ?_⟩
    rw [OrderedMap.isEmpty, List.isEmpty_iff] at hempty
    rw [hempty, List.map_nil, List.append_nil]
  · refine sat_of_eq fun t' ht' => sat_bind deref_finds fun object' => ?_
    refine sat_of (fun _ ht => ht.1 ▸ ht.2) fun hobject' => ?_
    have hobject := ht'.2
    rw [hobject'] at hobject
    cases hobject
    refine (forM_perform _ _).mono (fun _ ht => ht.1.trans ht'.1) fun _ _ ht => ?_
    exact ⟨object, ht'.1 ▸ hobject', ht⟩

lemma reports_append {object : FreeSwitchDevice} {sent sent' : List Effect}
    (h : Reports object u sent) : Reports object u (sent ++ sent') := fun monitor hmem => by
  obtain ⟨event, hkind, hconnection, hsent⟩ := h monitor hmem
  exact ⟨event, hkind, hconnection, List.mem_append_left _ hsent⟩

lemma reports_of_sent {object : FreeSwitchDevice} {event : CSTAEvent} (sent : List Effect)
    (hkind : event.kind = .connectionCleared)
    (hconnection : event.connection = (object.strDevice, u)) :
    Reports object u (sent ++ object.monitoringSessions.entries.map fun monitor =>
      .event monitor.2 event monitor.1) := fun _ hmem =>
  ⟨event, hkind, hconnection, List.mem_append_right _ (List.mem_map_of_mem hmem)⟩

/-! ## The loop -/

/-- The state that the loop sets for the connection of a device. -/
def hungState (s : FreeSWITCH) (pDevice devicesInCall p : ℕ) (state : ConnectionState) :
    ConnectionState :=
  if s.isQueue p ∨ p = pDevice then .null
  else if devicesInCall ≤ 2 then .fail
  else state

/-- The loop has come so far: the states of the connections are set, and the monitors of the device
that hangs up have been told. -/
structure Hung (s : FreeSWITCH) (pCall pDevice devicesInCall : ℕ) (uuid : String)
    (done : List (String × ℕ)) (pQueue : Option ℕ) (t : FreeSWITCH) : Prop where
  devices : t.devices = s.devices
  others : ∀ x, (∀ entry ∈ done, s.shape.link entry.2 pCall ≠ some x) →
    t.connections x = s.connections x
  states : ∀ entry ∈ done, ∀ x connection, s.shape.link entry.2 pCall = some x →
    s.connections x = some connection → t.connections x = some { connection with
      state := hungState s pDevice devicesInCall entry.2 connection.state }
  reported : ∃ sent, t.effects = s.effects ++ sent ∧ ((∃ entry ∈ done, entry.2 = pDevice) →
    ∀ object, s.devices pDevice = some object → Reports object uuid sent)
  queue : pQueue = ((done.map Prod.snd).filter s.isQueue).getLast?

/-- What a program only reads stays as it is. -/
abbrev Reads {α : Type} (m : Handler α) : Prop := ∀ P, Sat (fun _ => True) P m fun _ => P

lemma reads_deref {ω : Type} {heap : FreeSWITCH → ℕ → Option ω} : Reads (deref heap p) :=
  fun _ => deref_finds.mono (fun _ hs => hs) fun _ _ hs => hs.1

lemma reads_findConnectionByUUID : Reads (findConnectionByUUID p u) := by
  intro P
  refine sat_bind (reads_deref P) fun object => ?_
  induction object.connections.entries with
  | nil => exact sat_pure fun _ hs => hs
  | cons entry rest ih =>
    exact sat_bind (reads_deref P) fun _ => sat_ite (fun _ => sat_pure fun _ hs => hs) fun _ => ih

lemma Hung.queue_live {done : List (String × ℕ)} {pQueue : Option ℕ}
    (h : Hung s pCall pDevice n u done pQueue t) :
    ∀ q ∈ pQueue, ∃ k, s.shape.leftName q = some k := by
  intro q hq
  rw [h.queue] at hq
  have hqueue := (List.mem_filter.1 (List.mem_of_getLast? hq)).2
  rw [FreeSWITCH.isQueue, Option.any_eq_true_iff_get] at hqueue
  obtain ⟨hsome, -⟩ := hqueue
  obtain ⟨object, hobject⟩ := Option.isSome_iff_exists.1 hsome
  exact ⟨object.strDevice, by simp only [FreeSWITCH.shape, hobject, Option.map_some]⟩

/-- The connection of the device is in its state, and the device has been told. -/
lemma Hung.turn {done : List (String × ℕ)} {pQueue : Option ℕ} {x : ℕ} {cleared : CSTAEvent}
    {object : FreeSwitchDevice} {connectionObject : FreeSwitchConnection}
    (h : Hung s pCall pDevice n u done pQueue t) (hS : s.shape.Consistent)
    (hlink : s.shape.link p pCall = some x) (hnew : ∀ entry ∈ done, entry.2 ≠ p)
    (hobject : t.devices p = some object) (hconnection : t.connections x = some connectionObject)
    (hkind : cleared.kind = .connectionCleared)
    (hcleared : ∀ object, s.devices pDevice = some object →
      cleared.connection = (object.strDevice, u)) :
    Hung s pCall pDevice n u (done ++ [(k, p)])
      (if object.deviceType = .queue then some p else pQueue)
      { t with
        connections := Function.update t.connections x (some { connectionObject with
          state := hungState s pDevice n p connectionObject.state })
        effects := t.effects ++ object.monitoringSessions.entries.map
          (fun monitor => .event monitor.2 cleared monitor.1) } := by
  have hother (entry : String × ℕ) (hentry : entry ∈ done) :
      s.shape.link entry.2 pCall ≠ some x := fun hsame =>
    hnew entry hentry (hS.link_unique _ _ _ _ _ hsame hlink).1
  rw [h.devices] at hobject
  constructor
  · exact h.devices
  · intro y hy
    have hyx : y ≠ x := by
      rintro rfl
      exact hy (k, p) (by simp) hlink
    refine (Function.update_of_ne hyx ..).trans (h.others y fun entry hentry => ?_)
    exact hy entry (List.mem_append_left _ hentry)
  · intro entry hentry y connection hy hbefore
    rcases List.mem_append.1 hentry with hentry | hentry
    · have hyx : y ≠ x := by
        rintro rfl
        exact hother entry hentry hy
      exact (Function.update_of_ne hyx ..).trans (h.states entry hentry y connection hy hbefore)
    · cases List.mem_singleton.1 hentry
      rw [hlink] at hy
      cases hy
      rw [h.others x hother, hbefore] at hconnection
      cases hconnection
      exact Function.update_self ..
  · obtain ⟨sent, hsent, hreports⟩ := h.reported
    refine ⟨sent ++ _, (congrArg (· ++ _) hsent).trans (List.append_assoc ..), ?_⟩
    rintro ⟨entry, hentry, rfl⟩ object' hobject'
    rcases List.mem_append.1 hentry with hentry | hentry
    · exact reports_append (hreports ⟨entry, hentry, rfl⟩ object' hobject')
    · cases List.mem_singleton.1 hentry
      rw [hobject] at hobject'
      cases hobject'
      exact reports_of_sent sent hkind (hcleared object hobject)
  · rw [List.map_append, List.filter_append, List.getLast?_append, ← h.queue]
    by_cases hqueue : object.deviceType = .queue
    · simp [FreeSWITCH.isQueue, hobject, hqueue]
    · simp [FreeSWITCH.isQueue, hobject, hqueue]

/-- **A turn of the loop.** -/
lemma hangUpDevice_hangs {done : List (String × ℕ)} {pQueue : Option ℕ} {cleared : CSTAEvent}
    (hS : s.shape.Consistent) (hc : s.shape.rightName pCall = some u)
    (hentry : s.shape.member pCall k = some p) (hnew : ∀ entry ∈ done, entry.2 ≠ p)
    (hkind : cleared.kind = .connectionCleared)
    (hcleared : ∀ object, s.devices pDevice = some object →
      cleared.connection = (object.strDevice, u)) :
    Sat (fun _ => True) (fun t => At s.shape t ∧ Hung s pCall pDevice n u done pQueue t)
      (hangUpDevice pDevice u n cleared pQueue (k, p)) fun pQueue' t =>
        At s.shape t ∧ Hung s pCall pDevice n u (done ++ [(k, p)]) pQueue' t := by
  have hp := hS.member_name _ _ _ hentry
  obtain ⟨x, hlink⟩ := Option.isSome_iff_exists.1 ((hS.link_isSome_iff hp).2 hentry)
  refine sat_of_eq fun t ⟨hmaps, ht⟩ => ?_
  have hquiet : Quiet s.shape (hangUpDevice pDevice u n cleared pQueue (k, p)) _ :=
    hangUpDevice_quiet hS hc hentry ht.queue_live
  have hmine : Sat (fun _ => True) (· = t) (hangUpDevice pDevice u n cleared pQueue (k, p))
      fun pQueue' => Hung s pCall pDevice n u (done ++ [(k, p)]) pQueue' := by
    have hfinds : Quiet s.shape (findConnectionByUUID p u) fun found => found = some x :=
      findConnectionByUUID_quiet hS hp hc hlink
    refine sat_bind_of (Q := fun _ => (· = t)) (((hfinds.allow fun _ _ => trivial).and
      (reads_findConnectionByUUID (· = t))).mono (fun _ h => ⟨h ▸ hmaps, h⟩)
        fun _ _ h => ⟨h.2, h.1.2⟩) fun found hfound => ?_
    subst hfound
    refine sat_bind deref_finds fun object => sat_bind deref_finds fun connectionObject => ?_
    have hfound (t' : FreeSWITCH)
        (h : (t' = t ∧ t'.devices p = some object) ∧ t'.connections x = some connectionObject) :
        t' = t ∧ t.devices p = some object ∧ t.connections x = some connectionObject := by
      obtain ⟨⟨rfl, hobject⟩, hconnection⟩ := h
      exact ⟨rfl, hobject, hconnection⟩
    refine sat_of (fun t' h => (hfound t' h).2) fun ⟨hobject, hconnection⟩ => ?_
    refine sat_bind (Q := fun _ t' => t' = { t with
      connections := Function.update t.connections x (some { connectionObject with
        state := hungState s pDevice n p connectionObject.state }) }) ?_ fun _ => ?_
    · refine sat_modify fun t' h => ?_
      rw [(hfound t' h).1, hungState, FreeSWITCH.isQueue, ← ht.devices, hobject]
      simp
    · refine sat_bind sendIfMonitored_sends fun _ => sat_pure fun t' ⟨object', hobject', h⟩ => ?_
      cases hobject.symm.trans hobject'
      subst h
      refine Hung.turn ht hS hlink hnew hobject hconnection hkind hcleared
  exact ((hquiet.allow fun _ _ => trivial).and hmine).mono (fun _ h => ⟨h ▸ hmaps, h⟩)
    fun _ _ h => ⟨h.1.1, h.2⟩

/-- **The loop** over the devices of the call. -/
lemma hangUpDevices_hangs {call : FreeSwitchCall} {cleared : CSTAEvent}
    (hS : s.shape.Consistent) (hcall : s.calls pCall = some call)
    (hkind : cleared.kind = .connectionCleared)
    (hcleared : ∀ object, s.devices pDevice = some object →
      cleared.connection = (object.strDevice, call.strUUID)) :
    Sat (fun _ => True) (fun t => At s.shape t ∧ t = s)
      (call.devices.entries.foldlM (hangUpDevice pDevice call.strUUID n cleared) none)
      fun pQueue t => At s.shape t ∧
        Hung s pCall pDevice n call.strUUID call.devices.entries pQueue t := by
  have hc : s.shape.rightName pCall = some call.strUUID := by
    simp only [FreeSWITCH.shape, hcall, Option.map_some]
  have hmember (entry : String × ℕ) (hentry : entry ∈ call.devices.entries) :
      s.shape.member pCall entry.1 = some entry.2 := by
    simp only [FreeSWITCH.shape, hcall, Option.bind_some]
    exact OrderedMap.mem_entries.1 hentry
  let J (done : List (String × ℕ)) (pQueue : Option ℕ) (t : FreeSWITCH) : Prop :=
    At s.shape t ∧ Hung s pCall pDevice n call.strUUID done pQueue t
  have hturn (done : List (String × ℕ)) (entry : String × ℕ) (rest : List (String × ℕ))
      (pQueue : Option ℕ) (hentries : call.devices.entries = done ++ entry :: rest) :
      Sat (fun _ => True) (J done pQueue)
        (hangUpDevice pDevice call.strUUID n cleared pQueue entry) (J (done ++ [entry])) := by
    have hentry : entry ∈ call.devices.entries := hentries ▸ by simp
    refine hangUpDevice_hangs hS hc (hmember entry hentry) (fun other hother hsame => ?_) hkind
      hcleared
    have hother' := hmember other (hentries ▸ List.mem_append_left _ hother)
    have hkey : other.1 = entry.1 := by
      have hname := hS.member_name _ _ _ (hmember entry hentry)
      rw [← hsame, hS.member_name _ _ _ hother'] at hname
      exact Option.some.inj hname
    have hnodup := call.devices.nodup_entries
    rw [hentries] at hnodup
    exact (List.nodup_append.1 hnodup).2.2 other hother entry List.mem_cons_self
      (Prod.ext hkey hsame)
  refine (sat_foldlM_before J hturn none).mono (fun t ht => ⟨ht.1, ?_⟩) fun _ _ ht => ht
  rw [ht.2]
  exact ⟨rfl, fun _ _ => rfl, by simp, ⟨[], by simp⟩, rfl⟩

/-! ## Deleting connections -/

/-- All of a device but its connections. -/
def FreeSwitchDevice.fixed (object : FreeSwitchDevice) : FreeSwitchDevice :=
  { object with connections := .empty }

/-- The connections of these devices to the call have been deleted. -/
structure Removed (ps : List ℕ) (pCall : ℕ) (s t : FreeSWITCH) : Prop where
  devices : ∀ q, (t.devices q).map FreeSwitchDevice.fixed = (s.devices q).map FreeSwitchDevice.fixed
  link : ∀ q c, t.shape.link q c = if q ∈ ps ∧ c = pCall then none else s.shape.link q c
  connections : ∀ x, t.connections x =
    if ∃ q ∈ ps, s.shape.link q pCall = some x then none else s.connections x
  callMap : t.callMap = s.callMap
  callNames : ∀ c, (t.calls c).map FreeSwitchCall.strUUID = (s.calls c).map FreeSwitchCall.strUUID
  effects : s.effects <+: t.effects

lemma removed_nil : Removed [] pCall s s :=
  ⟨fun _ => rfl, fun q c => (if_neg (by simp)).symm, fun x => (if_neg (by simp)).symm, rfl,
    fun _ => rfl, List.prefix_rfl⟩

variable {ps : List ℕ}

/-- The device has no connection to the call any more. -/
lemma Removed.of_none (h : Removed ps pCall s t) (hlink : t.shape.link p pCall = none) :
    Removed (p :: ps) pCall s t := by
  have hp (x : ℕ) (hx : s.shape.link p pCall = some x) : p ∈ ps := by
    by_contra hnot
    rw [h.link, if_neg (by simp [hnot]), hx] at hlink
    cases hlink
  refine ⟨h.devices, fun q c => ?_, fun x => ?_, h.callMap, h.callNames, h.effects⟩
  · by_cases hqc : q = p ∧ c = pCall
    · obtain ⟨rfl, rfl⟩ := hqc
      rw [hlink, if_pos (by simp)]
    · rw [h.link]
      refine if_congr ?_ rfl rfl
      rw [List.mem_cons]
      tauto
  · rw [h.connections]
    refine if_congr ⟨?_, ?_⟩ rfl rfl
    · rintro ⟨q, hq, hx⟩
      exact ⟨q, List.mem_cons_of_mem _ hq, hx⟩
    · rintro ⟨q, hq, hx⟩
      rcases List.mem_cons.1 hq with rfl | hq
      · exact ⟨q, hp x hx, hx⟩
      · exact ⟨q, hq, hx⟩

lemma Removed.delete {x : ℕ} {object : FreeSwitchDevice} {call : FreeSwitchCall}
    (h : Removed ps pCall s t) (hobject : t.devices p = some object)
    (hx : object.connections.find? pCall = some x) (hcall : t.calls pCall = some call) :
    Removed (p :: ps) pCall s { t with
      connections := Function.update t.connections x none
      devices := Function.update t.devices p
        (some { object with connections := object.connections.erase pCall })
      calls := Function.update t.calls pCall
        (some { call with devices := call.devices.erase object.strDevice }) } := by
  have hlink : t.shape.link p pCall = some x := by
    simp only [FreeSWITCH.shape, hobject, Option.bind_some, hx]
  have hlink' : p ∉ ps ∧ s.shape.link p pCall = some x := by
    rw [h.link] at hlink
    split_ifs at hlink with hp
    exact ⟨fun hmem => hp ⟨hmem, rfl⟩, hlink⟩
  refine ⟨fun q => ?_, fun q c => ?_, fun y => ?_, h.callMap, fun c => ?_, h.effects⟩
  · rw [← h.devices]
    by_cases hq : q = p
    · subst hq
      simp only [Function.update_self, hobject, Option.map_some]
      rfl
    · exact congrArg _ (Function.update_of_ne hq ..)
  · by_cases hq : q = p
    · subst hq
      simp only [FreeSWITCH.shape, Function.update_self, Option.bind_some, OrderedMap.find?_erase]
      by_cases hc : c = pCall
      · rw [if_pos hc, if_pos ⟨List.mem_cons_self, hc⟩]
      · rw [if_neg hc, if_neg fun hboth => hc hboth.2]
        have hsame := h.link q c
        rw [if_neg fun hboth => hc hboth.2] at hsame
        simpa only [FreeSWITCH.shape, hobject, Option.bind_some] using hsame
    · simp only [FreeSWITCH.shape, Function.update_of_ne hq]
      refine (h.link q c).trans (if_congr ?_ rfl rfl)
      rw [List.mem_cons]
      tauto
  · dsimp only
    by_cases hy : y = x
    · subst hy
      rw [Function.update_self, if_pos ⟨p, List.mem_cons_self, hlink'.2⟩]
    · rw [Function.update_of_ne hy, h.connections]
      refine if_congr ⟨?_, ?_⟩ rfl rfl
      · rintro ⟨q, hq, hyq⟩
        exact ⟨q, List.mem_cons_of_mem _ hq, hyq⟩
      · rintro ⟨q, hq, hyq⟩
        rcases List.mem_cons.1 hq with rfl | hq
        · exact absurd (Option.some.inj (hyq.symm.trans hlink'.2)) hy
        · exact ⟨q, hq, hyq⟩
  · rw [← h.callNames]
    by_cases hc : c = pCall
    · subst hc
      simp only [Function.update_self, hcall, Option.map_some]
    · exact congrArg _ (Function.update_of_ne hc ..)

lemma deleteConnection_removes (h : Removed ps pCall s t) :
    Sat (fun _ => True) (· = t) (deleteConnection p pCall) fun _ t' =>
      Removed (p :: ps) pCall s t' ∧ t'.effects = t.effects := by
  refine sat_bind_of (Q := fun _ => (· = t)) (p := fun object => t.devices p = some object)
    (deref_finds.mono (fun _ ht => ht) fun _ _ ht => ⟨ht.1, ht.1 ▸ ht.2⟩) fun object hobject => ?_
  cases hx : object.connections.find? pCall with
  | none =>
    refine sat_pure fun t' ht => ?_
    subst ht
    refine ⟨h.of_none ?_, rfl⟩
    simp only [FreeSWITCH.shape, hobject, Option.bind_some, hx]
  | some x =>
    refine sat_bind (reads_deref _) fun _ => ?_
    refine sat_bind_of (Q := fun _ => (· = t)) (p := fun call => t.calls pCall = some call)
      (deref_finds.mono (fun _ ht => ht) fun _ _ ht => ⟨ht.1, ht.1 ▸ ht.2⟩) fun call hcall => ?_
    intro t' ht
    subst ht
    exact ⟨h.delete hobject hx hcall, rfl⟩

/-- Sending an event removes nothing. -/
lemma Removed.send (h : Removed ps pCall s t) (sent : List Effect) :
    Removed ps pCall s { t with effects := t.effects ++ sent } :=
  ⟨h.devices, h.link, h.connections, h.callMap, h.callNames,
    h.effects.trans (List.prefix_append ..)⟩

/-- The device is told that its connection is cleared, where it is still what it was. -/
lemma Removed.reports (h : Removed ps pCall s t) {object before : FreeSwitchDevice}
    (hobject : t.devices p = some object) (hbefore : s.devices p = some before) :
    object.strDevice = before.strDevice ∧
      object.monitoringSessions = before.monitoringSessions := by
  have hfixed := h.devices p
  rw [hobject, hbefore, Option.map_some, Option.map_some, Option.some.injEq] at hfixed
  obtain ⟨hname, hmonitors, -⟩ := FreeSwitchDevice.mk.inj hfixed
  exact ⟨hname, hmonitors⟩

lemma clearQueue_removes {cause : Option EventCause} {pQueue : Option ℕ}
    (h : Removed ps pCall s t) :
    Sat (fun _ => True) (· = t) (clearQueue pCall u cause pQueue) fun _ t' =>
      Removed (pQueue.toList ++ ps) pCall s t' ∧ ∀ q ∈ pQueue, ∀ object, s.devices q = some object →
        Reports object u (t'.effects.drop s.effects.length) := by
  cases pQueue with
  | none => exact sat_pure fun _ ht => ⟨ht ▸ h, nofun⟩
  | some q =>
    refine sat_bind_of (Q := fun _ => (· = t)) (p := fun object => t.devices q = some object)
      (deref_finds.mono (fun _ ht => ht) fun _ _ ht => ⟨ht.1, ht.1 ▸ ht.2⟩) fun object hobject => ?_
    refine sat_bind sendIfMonitored_sends fun _ => sat_exists fun object' => ?_
    refine sat_of (fun _ ht => ht.1) fun hobject' => ?_
    cases hobject.symm.trans hobject'
    refine sat_of_eq fun t' ht => ?_
    have hsent := h.send (object.monitoringSessions.entries.map fun monitor =>
      .event monitor.2
        { kind := .connectionCleared
          connection := (object.strDevice, u)
          localConnectionInfo := some .null
          cause := cause } monitor.1)
    rw [← ht.2] at hsent
    refine (deleteConnection_removes hsent).mono (fun _ h => h) fun _ t'' ht'' => ⟨ht''.1, ?_⟩
    rintro _ ⟨⟩ before hbefore
    obtain ⟨hname, hmonitors⟩ := h.reports hobject hbefore
    obtain ⟨sent, heffects⟩ := h.effects
    rw [ht''.2, ht.2]
    dsimp only
    rw [← heffects, List.append_assoc, List.drop_left, hmonitors]
    exact reports_of_sent sent rfl (congrArg (·, u) hname)

lemma deleteIfEmpty_deletes :
    Sat (fun _ => True) (· = t) (deleteIfEmpty pCall) fun _ t' =>
      ∃ call, t.calls pCall = some call ∧
      (call.devices.isEmpty = true ∧ t' = { t with
          callMap := t.callMap.erase call.strUUID
          calls := Function.update t.calls pCall none } ∨
        call.devices.isEmpty = false ∧ t' = t) := by
  refine sat_bind_of (Q := fun _ => (· = t)) (p := fun call => t.calls pCall = some call)
    (deref_finds.mono (fun _ ht => ht) fun _ _ ht => ⟨ht.1, ht.1 ▸ ht.2⟩) fun call hcall => ?_
  refine sat_ite (fun hempty => sat_modify fun t' ht => ?_) fun hempty => sat_pure fun t' ht => ?_
  · exact ⟨call, hcall, .inl ⟨hempty, by rw [ht]⟩⟩
  · exact ⟨call, hcall, .inr ⟨Bool.eq_false_iff.2 hempty, ht⟩⟩

/-! ## The handler -/

/-- What `OnChannelHangup` does when `PrepareCallData` has succeeded. -/
def hangUp (event : Event) (prepared : Prepared) : Handler Unit := do
  let object ← call prepared.pCall
  let strDevice := (← device prepared.pDevice).strDevice
  let cause ← hangupCause (event.getHeader "Hangup-Cause")
  let pQueueDevice ← object.devices.entries.foldlM
    (hangUpDevice prepared.pDevice object.strUUID object.devices.entries.length
      { kind := .connectionCleared, connection := (strDevice, object.strUUID), cause := cause })
    none
  deleteConnection prepared.pDevice prepared.pCall
  clearQueue prepared.pCall object.strUUID cause pQueueDevice
  deleteIfEmpty prepared.pCall
  perform .unlock

/-- The devices of which the connection to the call is deleted. -/
def FreeSWITCH.gone (s : FreeSWITCH) (pDevice : ℕ) (call : FreeSwitchCall) : List ℕ :=
  (s.queues call).getLast?.toList ++ [pDevice]

structure HungUp (prepared : Prepared) (call : FreeSwitchCall) (s s' : FreeSWITCH) : Prop where
  devices : ∀ q, (s'.devices q).map FreeSwitchDevice.fixed =
    (s.devices q).map FreeSwitchDevice.fixed
  link : ∀ q c, s'.shape.link q c =
    if q ∈ s.gone prepared.pDevice call ∧ c = prepared.pCall then none else s.shape.link q c
  states : ∀ q x connection, s.shape.link q prepared.pCall = some x →
    s.connections x = some connection → s'.connections x =
      if q ∈ s.gone prepared.pDevice call then none
      else some { connection with
        state :=
          hungState s prepared.pDevice call.devices.entries.length q connection.state }
  others : ∀ x, (∀ q, s.shape.link q prepared.pCall ≠ some x) →
    s'.connections x = s.connections x
  reported : ∀ q ∈ s.gone prepared.pDevice call, ∀ object,
    (s.shape.link q prepared.pCall).isSome → s.devices q = some object →
      Reports object call.strUUID (s'.effects.drop s.effects.length)
  forgotten : s'.callMap.find? call.strUUID = none ∧ s'.calls prepared.pCall = none ∨
    ∃ object, s'.calls prepared.pCall = some object ∧ object.strUUID = call.strUUID ∧
      object.devices.isEmpty = false

lemma reports_subset {object : FreeSwitchDevice} {sent sent' : List Effect}
    (h : Reports object u sent) (hsub : sent ⊆ sent') : Reports object u sent' :=
  fun monitor hmem => by
    obtain ⟨event, hkind, hconnection, hsent⟩ := h monitor hmem
    exact ⟨event, hkind, hconnection, hsub hsent⟩

/-- The loop and the deletions, up to the call itself. -/
lemma hungUp_of {prepared : Prepared} {call : FreeSwitchCall} {t t' s' : FreeSWITCH}
    {pQueue : Option ℕ} (hS : s.shape.Consistent) (hcall : s.calls prepared.pCall = some call)
    (ht : At s.shape t) (hhung : Hung s prepared.pCall prepared.pDevice
      call.devices.entries.length call.strUUID call.devices.entries pQueue t)
    (hremoved : Removed (pQueue.toList ++ [prepared.pDevice]) prepared.pCall t t')
    (hqueue : ∀ q ∈ pQueue, ∀ object, t.devices q = some object →
      Reports object call.strUUID (t'.effects.drop t.effects.length))
    (hdeleted : ∃ object, t'.calls prepared.pCall = some object ∧
      (object.devices.isEmpty = true ∧ s' = { t' with
          callMap := t'.callMap.erase object.strUUID
          calls := Function.update t'.calls prepared.pCall none
          effects := t'.effects ++ [.unlock] } ∨
        object.devices.isEmpty = false ∧ s' = { t' with effects := t'.effects ++ [.unlock] })) :
    HungUp prepared call s s' := by
  have hgone : s.gone prepared.pDevice call = pQueue.toList ++ [prepared.pDevice] := by
    rw [FreeSWITCH.gone, FreeSWITCH.queues, ← hhung.queue]
  have hentry (q x : ℕ) (hx : s.shape.link q prepared.pCall = some x) :
      ∃ entry ∈ call.devices.entries, entry.2 = q := by
    obtain ⟨k, hk⟩ := (hS.linked q prepared.pCall).1 (Option.isSome_iff_exists.2 ⟨x, hx⟩)
    simp only [FreeSWITCH.shape, hcall, Option.bind_some] at hk
    exact ⟨(k, q), OrderedMap.mem_entries.2 hk, rfl⟩
  have hlink : t.shape.link = s.shape.link := congrArg CrossLinks.link ht.1
  have hsame : s'.devices = t'.devices ∧ s'.connections = t'.connections ∧
      s'.shape.link = t'.shape.link ∧ s'.effects = t'.effects ++ [.unlock] := by
    obtain ⟨object, -, ⟨-, rfl⟩ | ⟨-, rfl⟩⟩ := hdeleted <;> exact ⟨rfl, rfl, rfl, rfl⟩
  obtain ⟨hdevices, hconnections, hlinks, heffects⟩ := hsame
  obtain ⟨sent, hsent, hreports⟩ := hhung.reported
  obtain ⟨rest, hrest⟩ := hremoved.effects
  have heffects' : s'.effects = s.effects ++ (sent ++ rest ++ [.unlock]) := by
    rw [heffects, ← hrest, hsent, List.append_assoc, List.append_assoc, List.append_assoc]
  refine ⟨fun q => ?_, fun q c => ?_, fun q x connection hx hconnection => ?_, fun x hx => ?_,
    fun q hq object hlinked hobject => ?_, ?_⟩
  · rw [hdevices, hremoved.devices, hhung.devices]
  · rw [hlinks, hremoved.link, hgone, hlink]
  · obtain ⟨entry, hentry, rfl⟩ := hentry q x hx
    rw [hconnections, hremoved.connections, hgone, hlink,
      hhung.states entry hentry x connection hx hconnection]
    refine if_congr ⟨?_, fun hq => ⟨entry.2, hq, hx⟩⟩ rfl rfl
    rintro ⟨q, hq, hqx⟩
    rwa [(hS.link_unique _ _ _ _ _ hx hqx).1]
  · rw [hconnections, hremoved.connections, hlink, if_neg (by rintro ⟨q, -, hq⟩; exact hx q hq)]
    exact hhung.others x fun entry _ => hx entry.2
  · rw [heffects', List.drop_left]
    rw [hgone, List.mem_append, List.mem_singleton] at hq
    rcases hq with hq | rfl
    · have hreport := hqueue q (Option.mem_toList.1 hq) object (by rw [hhung.devices, hobject])
      rw [← hrest, List.drop_left] at hreport
      exact reports_subset hreport fun _ h => by simp [h]
    · obtain ⟨x, hx⟩ := Option.isSome_iff_exists.1 hlinked
      exact reports_subset (hreports (hentry _ x hx) object hobject) fun _ h => by simp [h]
  · have hname (object : FreeSwitchCall) (hobject : t'.calls prepared.pCall = some object) :
        object.strUUID = call.strUUID := by
      have hnames := hremoved.callNames prepared.pCall
      have hshape : t.shape.rightName prepared.pCall = s.shape.rightName prepared.pCall := by
        rw [ht.1]
      simp only [FreeSWITCH.shape, hcall, Option.map_some] at hshape
      rw [hobject, hshape, Option.map_some, Option.some.injEq] at hnames
      exact hnames
    obtain ⟨object, hobject, ⟨hempty, rfl⟩ | ⟨hempty, rfl⟩⟩ := hdeleted
    · refine .inl ⟨?_, Function.update_self ..⟩
      exact (OrderedMap.find?_erase ..).trans (if_pos (hname object hobject).symm)
    · exact .inr ⟨object, hobject, hname object hobject, hempty⟩

/-- **A hangup**, from what `PrepareCallData` leaves on. -/
lemma hangUp_hangs {event : Event} {prepared : Prepared} {call : FreeSwitchCall}
    (hS : s.shape.Consistent) (hclean : s.Clean) (hcall : s.calls prepared.pCall = some call) :
    Sat (fun _ => True) (· = s) (hangUp event prepared) fun _ s' => HungUp prepared call s s' := by
  refine sat_bind_of (Q := fun _ => (· = s)) (p := (· = call))
    (deref_finds.mono (fun _ ht => ht) fun _ _ ht => ⟨ht.1, ?_⟩) fun object hobject => ?_
  · exact Option.some.inj ((ht.1 ▸ ht.2).symm.trans hcall)
  subst hobject
  refine sat_bind_of (Q := fun _ => (· = s)) (p := fun device =>
      s.devices prepared.pDevice = some device)
    (deref_finds.mono (fun _ ht => ht) fun _ _ ht => ⟨ht.1, ht.1 ▸ ht.2⟩)
    fun deviceObject hdevice =>
      ?_
  refine sat_bind (Q := fun _ => (· = s)) ?_ fun cause => ?_
  · cases event.getHeader "Hangup-Cause" with
    | none => exact sat_throw fun _ _ => trivial
    | some cause =>
      unfold hangupCause
      dsimp only
      split_ifs <;> exact sat_pure fun _ ht => ht
  refine sat_bind ((hangUpDevices_hangs hS hcall rfl fun device hdevice' => ?_).mono
    (fun t ht => ⟨⟨congrArg _ ht, ht ▸ hclean⟩, ht⟩) fun _ _ ht => ht) fun pQueue => ?_
  · rw [hdevice] at hdevice'
    cases hdevice'
    rfl
  refine sat_of_eq fun t ⟨ht, hhung⟩ => ?_
  refine sat_bind (deleteConnection_removes removed_nil) fun _ => sat_of_eq fun t₁ ht₁ => ?_
  refine sat_bind (clearQueue_removes ht₁.1) fun _ => sat_of_eq fun t₂ ht₂ => ?_
  refine sat_bind deleteIfEmpty_deletes fun _ => sat_modify fun t₃ ht₃ => ?_
  refine hungUp_of hS hcall ht hhung ht₂.1 ht₂.2 ?_
  obtain ⟨object, hobject, ⟨hempty, rfl⟩ | ⟨hempty, rfl⟩⟩ := ht₃
  · exact ⟨object, hobject, .inl ⟨hempty, rfl⟩⟩
  · exact ⟨object, hobject, .inr ⟨hempty, rfl⟩⟩

/-- Only queues have connections that are null. -/
def QueueNulls (s : FreeSWITCH) : Prop :=
  ∀ p pCall x connection, s.shape.link p pCall = some x → s.connections x = some connection →
    connection.state = .null → s.isQueue p = true

lemma isQueue_congr {s' : FreeSWITCH}
    (h : (s'.devices p).map FreeSwitchDevice.fixed = (s.devices p).map FreeSwitchDevice.fixed) :
    s'.isQueue p = s.isQueue p := by
  have hfixed (r : FreeSWITCH) : r.isQueue p =
      ((r.devices p).map FreeSwitchDevice.fixed).any fun object => object.deviceType = .queue := by
    rw [FreeSWITCH.isQueue]
    cases r.devices p <;> rfl
  rw [hfixed, h, ← hfixed]

section

variable {prepared : Prepared} {call : FreeSwitchCall} {s' : FreeSWITCH} {x : ℕ}

/-- A connection of the map is there. -/
lemma exists_connection (hS : s.shape.Consistent) (h : s.shape.link p pCall = some x) :
    ∃ connection, s.connections x = some connection := by
  obtain ⟨connection, hconnection, -⟩ := Option.map_eq_some_iff.1 (hS.link_target _ _ _ h)
  exact ⟨connection, hconnection⟩

/-- The connection of a device that is not gone. -/
lemma HungUp.stays (h : HungUp prepared call s s')
    (hp : p ∉ s.gone prepared.pDevice call) : s'.shape.link p pCall = s.shape.link p pCall := by
  rw [h.link, if_neg fun hboth => hp hboth.1]

lemma HungUp.link_some (h : HungUp prepared call s s')
    (hx : s'.shape.link p prepared.pCall = some x) :
    p ∉ s.gone prepared.pDevice call ∧ s.shape.link p prepared.pCall = some x := by
  have hp : p ∉ s.gone prepared.pDevice call := by
    intro hp
    rw [h.link, if_pos ⟨hp, rfl⟩] at hx
    cases hx
  exact ⟨hp, h.stays hp ▸ hx⟩

lemma mem_queues_of_link (hS : s.shape.Consistent) (hcall : s.calls prepared.pCall = some call)
    (hx : s.shape.link p prepared.pCall = some x) (hp : s.isQueue p = true) :
    p ∈ s.queues call := by
  obtain ⟨k, hk⟩ := (hS.linked p prepared.pCall).1 (Option.isSome_iff_exists.2 ⟨x, hx⟩)
  simp only [FreeSWITCH.shape, hcall, Option.bind_some] at hk
  exact List.mem_filter.2 ⟨List.mem_map.2 ⟨(k, p), OrderedMap.mem_entries.2 hk, rfl⟩, hp⟩

lemma mem_gone : p ∈ s.gone pDevice call ↔ (s.queues call).getLast? = some p ∨ p = pDevice := by
  rw [FreeSWITCH.gone, List.mem_append, List.mem_singleton, Option.mem_toList]

/-- Where no queue is forgotten, what is left is no queue and not the device that hangs up. -/
lemma hungState_of_left (h : ForgetsNoQueue prepared s) (hS : s.shape.Consistent)
    (hcall : s.calls prepared.pCall = some call) (hp : p ∉ s.gone prepared.pDevice call)
    (hx : s.shape.link p prepared.pCall = some x) (n : ℕ) (state : ConnectionState) :
    hungState s prepared.pDevice n p state = if n ≤ 2 then .fail else state := by
  rw [mem_gone, not_or] at hp
  refine if_neg ?_
  rintro (hqueue | hdevice)
  · rcases h call hcall p (mem_queues_of_link hS hcall hx hqueue) with hdevice | hlast
    · exact hp.2 hdevice
    · exact hp.1 hlast
  · exact hp.2 hdevice

/-- A queue that is forgotten stays null. -/
lemma forgetsNoQueue_of_noneNull (h : HungUp prepared call s s') (hS : s.shape.Consistent)
    (hcall : s.calls prepared.pCall = some call)
    (hnull : ∀ p x connection, s'.shape.link p prepared.pCall = some x →
      s'.connections x = some connection → connection.state ≠ .null) :
    ForgetsNoQueue prepared s := by
  intro call' hcall' p hp
  cases hcall.symm.trans hcall'
  by_contra hnot
  rw [not_or] at hnot
  have hgone : p ∉ s.gone prepared.pDevice call := by
    rw [mem_gone, not_or]
    exact ⟨hnot.2, hnot.1⟩
  obtain ⟨hmem, hqueue⟩ := List.mem_filter.1 hp
  obtain ⟨⟨k, q⟩, hentry, rfl⟩ := List.mem_map.1 hmem
  have hmember : s.shape.member prepared.pCall k = some q := by
    simp only [FreeSWITCH.shape, hcall, Option.bind_some]
    exact OrderedMap.mem_entries.1 hentry
  obtain ⟨x, hx⟩ := Option.isSome_iff_exists.1
    ((hS.linked q prepared.pCall).2 ⟨k, hmember⟩)
  obtain ⟨connection, hconnection⟩ := exists_connection hS hx
  have hstate := h.states q x connection hx hconnection
  rw [if_neg hgone] at hstate
  exact hnull q x _ (h.stays hgone ▸ hx) hstate (if_pos (.inl hqueue))

/-- **The call is cleared** exactly when no queue is forgotten. -/
lemma cleared_iff (h : HungUp prepared call s s') (hS : s.shape.Consistent)
    (hS' : s'.shape.Consistent) (hnulls : QueueNulls s)
    (hcall : s.calls prepared.pCall = some call) :
    Cleared prepared s s' ↔ ForgetsNoQueue prepared s := by
  refine ⟨fun hcleared => forgetsNoQueue_of_noneNull h hS hcall hcleared.noneNull,
    fun hforgets => ?_⟩
  have hleft (p x : ℕ) (before : FreeSwitchConnection)
      (hx : s'.shape.link p prepared.pCall = some x) (hbefore : s.connections x = some before) :
      s'.connections x = some { before with
        state := if call.devices.entries.length ≤ 2 then .fail else before.state } := by
    obtain ⟨hp, hx⟩ := h.link_some hx
    rw [h.states p x before hx hbefore, if_neg hp, hungState_of_left hforgets hS hcall hp hx]
  refine ⟨fun p x connection hx hconnection => ?_,
    fun p pCall x object call' hx hgone hobject hcall' =>
    ?_, fun call' hcall' hmany x connection hconnection => ?_, fun call' hcall' => ?_⟩
  · obtain ⟨hp, hlink⟩ := h.link_some hx
    obtain ⟨before, hbefore⟩ := exists_connection hS hlink
    have hafter := hleft p x before hx hbefore
    rw [hconnection] at hafter
    cases hafter
    dsimp only
    split_ifs
    · nofun
    · intro hnull
      have hqueue := hnulls p prepared.pCall x before hlink hbefore hnull
      have hstate := hungState_of_left hforgets hS hcall hp hlink 3 .connected
      rw [hungState, if_pos (.inl hqueue)] at hstate
      cases hstate
  · rw [h.link, hx] at hgone
    split_ifs at hgone with hboth
    obtain ⟨hp, rfl⟩ := hboth
    cases hcall.symm.trans hcall'
    exact h.reported p hp object (Option.isSome_iff_exists.2 ⟨x, hx⟩) hobject
  · cases hcall.symm.trans hcall'
    by_cases hlinked : ∃ q, s.shape.link q prepared.pCall = some x
    · obtain ⟨q, hq⟩ := hlinked
      obtain ⟨before, hbefore⟩ := exists_connection hS hq
      refine ⟨before, hbefore, ?_⟩
      have hstate := h.states q x before hq hbefore
      rw [hconnection] at hstate
      split_ifs at hstate with hp
      rw [Option.some.inj hstate, hungState_of_left hforgets hS hcall hp hq, if_neg (by omega)]
    · have hsame := h.others x fun q hq => hlinked ⟨q, hq⟩
      exact ⟨connection, hsame ▸ hconnection, rfl⟩
  · cases hcall.symm.trans hcall'
    rcases h.forgotten with ⟨hforgotten, hdeleted⟩ | ⟨object, hobject, hname, hdevices⟩
    · refine iff_of_true hforgotten fun p => ?_
      by_contra hlink
      obtain ⟨x, hx⟩ := Option.ne_none_iff_exists'.1 hlink
      obtain ⟨u, hu, -⟩ := hS'.right_of_link hx
      simp only [FreeSWITCH.shape, hdeleted, Option.map_none] at hu
      cases hu
    · refine iff_of_false (fun hforgotten => ?_) fun hnone => ?_
      · have hat : s'.shape.rightAt call.strUUID = some prepared.pCall := by
          refine (hS'.right _ _).2 ?_
          simp only [FreeSWITCH.shape, hobject, Option.map_some, hname]
        exact absurd (hforgotten.symm.trans hat) (by simp)
      · refine absurd ?_ (Bool.eq_false_iff.1 hdevices)
        refine OrderedMap.isEmpty_iff.2 fun k => ?_
        by_contra hmember
        obtain ⟨q, hq⟩ := Option.ne_none_iff_exists'.1 hmember
        have hlinked := (hS'.linked q prepared.pCall).2 ⟨k, by
          simp only [FreeSWITCH.shape, hobject, Option.bind_some, hq]⟩
        rw [hnone q] at hlinked
        cases hlinked

end

/-! ## Runs -/

lemma link_update {object : FreeSwitchDevice} (q c : ℕ) :
    (FreeSWITCH.shape { s with devices := Function.update s.devices p (some object) }).link q c =
      if q = p then object.connections.find? c else s.shape.link q c := by
  by_cases hq : q = p
  · subst hq
    simp [FreeSWITCH.shape]
  · simp [FreeSWITCH.shape, hq]

lemma isQueue_update {object : FreeSwitchDevice} (q : ℕ) :
    FreeSWITCH.isQueue { s with devices := Function.update s.devices p (some object) } q =
      if q = p then decide (object.deviceType = .queue) else s.isQueue q := by
  by_cases hq : q = p
  · subst hq
    simp [FreeSWITCH.isQueue]
  · simp [FreeSWITCH.isQueue, hq]

/-- A device keeps its type; a connection that it gets is not null. -/
lemma QueueNulls.setDevice {old object : FreeSwitchDevice} (hs : QueueNulls s)
    (hold : s.devices p = some old) (htype : object.deviceType = old.deviceType)
    (hconnections : ∀ pCall x, object.connections.find? pCall = some x →
      old.connections.find? pCall = some x ∨
        ∃ connection, s.connections x = some connection ∧ connection.state ≠ .null) :
    QueueNulls { s with devices := Function.update s.devices p (some object) } := by
  intro q c x connection hlink hconnection hnull
  rw [link_update] at hlink
  rw [isQueue_update]
  split_ifs at hlink ⊢ with hq
  · subst hq
    rcases hconnections c x hlink with hlink | ⟨connection', hconnection', hnot⟩
    · have hqueue := hs q c x connection
        (by simp only [FreeSWITCH.shape, hold, Option.bind_some, hlink]) hconnection hnull
      simpa [FreeSWITCH.isQueue, hold, htype] using hqueue
    · cases hconnection.symm.trans hconnection'
      exact absurd hnull hnot
  · exact hs q c x connection hlink hconnection hnull

instance : Persistent QueueNulls where
  other {s s'} hdevices hconnections hs p c x connection hlink hconnection := by
    have hlinks : s'.shape.link p c = s.shape.link p c := by simp only [FreeSWITCH.shape, hdevices]
    have hqueues : s'.isQueue p = s.isQueue p := by rw [FreeSWITCH.isQueue, hdevices]; rfl
    rw [hqueues]
    exact hs p c x connection (hlinks ▸ hlink) (hconnections ▸ hconnection)
  newDevice {s p object} hnone _ hempty hs q c x connection hlink hconnection hnull := by
    rw [link_update] at hlink
    rw [isQueue_update]
    split_ifs at hlink ⊢ with hq
    · rw [hempty, OrderedMap.find?_empty] at hlink
      cases hlink
    · exact hs q c x connection hlink hconnection hnull
  setDevice hold htype _ hconnections hs := hs.setDevice hold htype hconnections
  setConnection {s x object} hobject hs p c y connection hlink hconnection hnull := by
    by_cases hy : y = x
    · subst hy
      cases (Function.update_self y (some object) s.connections).symm.trans hconnection
      obtain ⟨old, hold, hnull'⟩ := hobject hnull
      exact hs p c y old hlink hold hnull'
    · exact hs p c y connection hlink ((Function.update_of_ne hy ..).symm.trans hconnection) hnull
  freeConnection {s x} hs p c y connection hlink hconnection hnull := by
    by_cases hy : y = x
    · subst hy
      cases (Function.update_self y none s.connections).symm.trans hconnection
    · exact hs p c y connection hlink ((Function.update_of_ne hy ..).symm.trans hconnection) hnull

lemma addMonitor_queueNulls {session : ℕ} {crossRefID : String} :
    Persists QueueNulls (addMonitor p session crossRefID) := by
  refine sat_bind deref_finds fun object => sat_ite (fun _ => sat_pure fun _ hs => hs.1) fun _ => ?_
  refine sat_bind (Q := fun _ => QueueNulls) (sat_modify fun t ht => ?_) fun _ => persists_pure
  exact ht.1.setDevice ht.2 rfl fun _ _ hlink => .inl hlink

section

variable {place : Place} {event : Event} {leg : String × String × Option String}
  {prepared : Prepared} {call : FreeSwitchCall} {s' : FreeSWITCH}

lemma onChannelHangup_eq (hleg : event.leg = some leg) :
    onChannelHangup place event = (prepareHangup place leg >>= fun found =>
      match found with
      | none => perform .unlock
      | some prepared => hangUp event prepared) := by
  unfold onChannelHangup prepareHangup
  rw [hleg, bind_assoc]
  rfl

/-- What is found has a call, and only queues have connections that are null. -/
lemma prepareHangup_prepares (hs : Kept False s) :
    Sat (fun _ => True) (fun t => t = s ∧ QueueNulls t) (prepareHangup place leg) fun found t =>
      (Kept False t ∧ ∀ prepared ∈ found, ∃ call, t.calls prepared.pCall = some call) ∧
        QueueNulls t := by
  have hprepares : Safe (At s.shape) (prepareHangup place leg) fun found t =>
      Kept False t ∧ ∀ prepared ∈ found, ∃ call, t.calls prepared.pCall = some call := by
    refine sat_bind lock_quiet fun _ =>
      (prepareCallData_prepares hs.2 False.elim).mono (fun _ ht => ht) fun found t ht => ?_
    cases found with
    | none => exact ⟨ht, nofun⟩
    | some prepared =>
      obtain ⟨S, hready, ht⟩ := ht
      refine ⟨ht.kept (hready.settled rfl), ?_⟩
      rintro _ ⟨⟩
      obtain ⟨u, hu⟩ := hready.call
      rw [← ht.1] at hu
      obtain ⟨call, hcall, -⟩ := Option.map_eq_some_iff.1 hu
      exact ⟨call, hcall⟩
  have hnulls : Persists QueueNulls (prepareHangup place leg) :=
    persists_bind (perform_persists _) fun _ => prepareCallData_persists
  exact ((hprepares.allow fun _ _ => trivial).and hnulls).mono
    (fun t ht => ⟨⟨congrArg _ ht.1, ht.1 ▸ hs.1⟩, ht.2⟩) fun _ _ ht => ht

lemma HungUp.queueNulls (h : HungUp prepared call s s') (hS : s.shape.Consistent)
    (hnulls : QueueNulls s) : QueueNulls s' := by
  intro p c x connection hlink hconnection hnull
  rw [isQueue_congr (h.devices p)]
  have hlinked := h.link p c
  rw [hlink] at hlinked
  split_ifs at hlinked with hgone
  by_cases hc : c = prepared.pCall
  · subst hc
    obtain ⟨before, hbefore⟩ := exists_connection hS hlinked.symm
    have hp : p ∉ s.gone prepared.pDevice call := fun hp => hgone ⟨hp, rfl⟩
    have hstate := h.states p x before hlinked.symm hbefore
    rw [hconnection, if_neg hp] at hstate
    cases hstate
    dsimp only [hungState] at hnull
    split_ifs at hnull with hqueue hfew
    · exact hqueue.resolve_right fun hdevice => hp (mem_gone.2 (.inr hdevice))
    · exact hnulls p _ x before hlinked.symm hbefore hnull
  · have hsame := h.others x fun q hq => hc (hS.link_unique _ _ _ _ _ hlinked.symm hq).2
    exact hnulls p c x connection hlinked.symm (hsame ▸ hconnection) hnull

lemma onChannelHangup_queueNulls (hs : Kept False s) :
    Sat (fun _ => True) (fun t => t = s ∧ QueueNulls t) (onChannelHangup place event)
      fun _ => QueueNulls := by
  cases hleg : event.leg with
  | none =>
    unfold onChannelHangup
    rw [hleg]
    exact sat_pure fun _ ht => ht.2
  | some leg =>
    rw [onChannelHangup_eq hleg]
    refine sat_bind (prepareHangup_prepares hs) fun found => ?_
    cases found with
    | none => exact (perform_persists (I := QueueNulls) _).mono (fun _ ht => ht.2) fun _ _ ht => ht
    | some prepared =>
      refine sat_of_eq fun t ⟨⟨ht, hcalls⟩, hnulls⟩ => ?_
      obtain ⟨call, hcall⟩ := hcalls prepared rfl
      exact (hangUp_hangs ht.2.consistent ht.1 hcall).mono (fun _ h => h) fun _ _ h =>
        h.queueNulls ht.2.consistent hnulls

/-- **A step** makes no connection null but those of queues. -/
lemma queueNulls_step {action : Action} (hs : Kept False s) (hnulls : QueueNulls s)
    (hrun : (handle place action).run s = .ok ((), s')) : QueueNulls s' := by
  have of_persists (h : Persists QueueNulls (handle place action)) : QueueNulls s' :=
    h.ok hnulls hrun
  cases action with
  | channelHangup event => exact (onChannelHangup_queueNulls hs).ok ⟨rfl, hnulls⟩ hrun
  | monitorStart => exact of_persists (handle_persists fun _ _ => addMonitor_queueNulls)
  | _ => exact of_persists (handle_persists trivial)

lemma queueNulls_init : QueueNulls .init := fun _ _ _ _ hlink => nomatch hlink

/-! ## Handlers that return -/

lemma running_forM {α : Type} {f : α → Handler PUnit} {l : List α} (h : ∀ a, Running (f a)) :
    Running (l.forM f) := sat_forM fun a _ => h a

lemma running_sendIfMonitored {event : CSTAEvent} : Running (sendIfMonitored p event) :=
  running_bind running_deref fun _ => sat_ite (fun _ => running_pure) fun _ =>
    running_bind running_deref fun _ => running_forM fun _ => running_modify

lemma running_findConnectionByUUID : Running (findConnectionByUUID p u) := by
  refine running_bind running_deref fun object => ?_
  induction object.connections.entries with
  | nil => exact running_pure
  | cons entry rest ih =>
    exact running_bind running_deref fun _ => sat_ite (fun _ => running_pure) fun _ => ih

lemma running_hangUpDevice {cleared : CSTAEvent} {pQueue : Option ℕ} {entry : String × ℕ} :
    Running (hangUpDevice pDevice u n cleared pQueue entry) := by
  refine running_bind running_findConnectionByUUID fun found => ?_
  cases found with
  | none => exact running_bind running_modify fun _ => running_pure
  | some x =>
    refine running_bind running_deref fun _ => running_bind running_deref fun _ => ?_
    refine running_bind running_modify fun _ => running_bind running_sendIfMonitored fun _ => ?_
    exact running_pure

lemma running_clearQueue {cause : Option EventCause} {pQueue : Option ℕ} :
    Running (clearQueue pCall u cause pQueue) := by
  cases pQueue with
  | none => exact running_pure
  | some q =>
    exact running_bind running_deref fun _ => running_bind running_sendIfMonitored fun _ =>
      running_deleteConnection

lemma running_hangUp {cause : String} (hcause : event.getHeader "Hangup-Cause" = some cause) :
    Running (hangUp event prepared) := by
  refine running_bind running_deref fun object => running_bind running_deref fun _ => ?_
  rw [hcause]
  refine running_bind ?_ fun _ => ?_
  · unfold hangupCause
    dsimp only
    split_ifs <;> exact running_pure
  refine running_bind ?_ fun _ => running_bind running_deleteConnection fun _ => ?_
  · exact sat_foldlM (fun _ _ => True) (fun _ _ _ => running_hangUpDevice) none
  refine running_bind running_clearQueue fun _ => running_bind ?_ fun _ => running_modify
  exact running_bind running_deref fun _ =>
    sat_ite (fun _ => running_modify) fun _ => running_pure

/-- Without a cause the handler constructs a string of a null pointer. -/
lemma hangUp_fails (hcause : event.getHeader "Hangup-Cause" = none) :
    Sat (fun _ => True) (fun _ => True) (hangUp event prepared) fun _ _ => False := by
  refine sat_bind (running_deref.allow fun _ _ => trivial) fun object => ?_
  refine sat_bind (running_deref.allow fun _ _ => trivial) fun _ => ?_
  rw [hcause]
  exact sat_bind (Q := fun _ _ => False) (sat_throw fun _ _ => trivial) fun _ _ => False.elim

/-! ## Hanging up -/

lemma handle_channelHangup {s₁ : FreeSWITCH} (hleg : event.leg = some leg)
    (hprepared : (prepareHangup place leg).run s = .ok (some prepared, s₁)) :
    (handle place (.channelHangup event)).run s = (hangUp event prepared).run s₁ := by
  change (onChannelHangup place event).run s = _
  rw [onChannelHangup_eq hleg, StateT.run_bind, hprepared]
  rfl

/-- **What a hangup leaves.**  In every state that is reached, and for every event of a leg whose
call and device are found: the connections of the call are cleared exactly when the event has a
cause and every queue of the call is the last one or the device that hangs up. -/
theorem hangup_clears_iff {actions : List (Place × Action)} {s₁ : FreeSWITCH}
    (h : run .init actions = .ok s) (hleg : event.leg = some leg)
    (hprepared : (prepareHangup place leg).run s = .ok (some prepared, s₁)) :
    (∃ s', (handle place (.channelHangup event)).run s = .ok ((), s') ∧ Cleared prepared s₁ s') ↔
      event.getHeader "Hangup-Cause" ≠ none ∧ ForgetsNoQueue prepared s₁ := by
  have hs := kept_of_run h
  have hnulls : QueueNulls s := run_invariant queueNulls_step kept_init queueNulls_init h
  obtain ⟨⟨hs₁, hcalls⟩, hnulls₁⟩ := (prepareHangup_prepares hs).ok ⟨rfl, hnulls⟩ hprepared
  obtain ⟨call, hcall⟩ := hcalls prepared rfl
  have hcleared {s' : FreeSWITCH}
      (hrun : (handle place (.channelHangup event)).run s = .ok ((), s')) :
      Cleared prepared s₁ s' ↔ ForgetsNoQueue prepared s₁ := by
    have hs' : Kept False s' :=
      (handle_keeps hs.2 False.elim : Safe (At s.shape) _ fun _ => Kept False).ok ⟨rfl, hs.1⟩ hrun
    rw [handle_channelHangup hleg hprepared] at hrun
    exact cleared_iff ((hangUp_hangs hs₁.2.consistent hs₁.1 hcall).ok rfl hrun)
      hs₁.2.consistent hs'.2.consistent hnulls₁ hcall
  constructor
  · rintro ⟨s', hrun, hs'⟩
    refine ⟨fun hcause => ?_, (hcleared hrun).1 hs'⟩
    rw [handle_channelHangup hleg hprepared] at hrun
    exact (hangUp_fails hcause).ok trivial hrun
  · rintro ⟨hcause, hforgets⟩
    obtain ⟨cause, hcause⟩ := Option.ne_none_iff_exists'.1 hcause
    cases hrun : (handle place (.channelHangup event)).run s with
    | ok result => exact ⟨result.2, rfl, (hcleared hrun).2 hforgets⟩
    | error fault =>
      have hsafe : fault ≠ .danglingPointer :=
        (handle_keeps hs.2 False.elim : Safe (At s.shape) _ fun _ => Kept False).error
          ⟨rfl, hs.1⟩ hrun
      rw [handle_channelHangup hleg hprepared] at hrun
      exact absurd ((running_hangUp hcause).error trivial hrun) hsafe

end

theorem hangup_clears_iff_twoLegs : ∃ s prepared s₁, run .init twoLegs = .ok s ∧
    (prepareHangup ⟨2, 2, 2⟩ ("sofia/internal/100@pbx", "a", some "")).run s =
      .ok (some prepared, s₁) ∧
    ∃ s', (handle ⟨2, 2, 2⟩ (.channelHangup (legEvent "sofia/internal/100@pbx" "a" ""))).run s =
      .ok ((), s') ∧ Cleared prepared s₁ s' := by
  refine ⟨_, _, _, rfl, rfl,
    (hangup_clears_iff (rfl : run .init twoLegs = .ok _) rfl rfl).2 ⟨nofun, ?_⟩⟩
  rintro call ⟨⟩ p hp
  cases hp

/-- A call that goes through two queues. -/
def twoQueues : List (Place × Action) :=
  let session : CoreSession :=
    ⟨"a", "sofia/internal/100@pbx", ⟨"100", "700", "sofia/internal/100@pbx"⟩⟩
  [(⟨0, 0, 0⟩, .channelCreate (legEvent "sofia/internal/100@pbx" "a" "")),
    (⟨1, 1, 1⟩, .callQueued (some "sales") session),
    (⟨2, 2, 2⟩, .callQueued (some "support") session)]

/-- The first queue of the call stays in it, and its connection is null. -/
theorem first_queue_stays_null :
    ¬ ∀ (actions : List (Place × Action)) (s s₁ : FreeSWITCH) (place : Place) (event : Event)
      (leg : String × String × Option String) (prepared : Prepared),
      run .init actions = .ok s → event.leg = some leg →
        (prepareHangup place leg).run s = .ok (some prepared, s₁) →
          ∃ s', (handle place (.channelHangup event)).run s = .ok ((), s') ∧
            Cleared prepared s₁ s' := by
  intro h
  obtain ⟨s', hrun, hcleared⟩ := h twoQueues _ _ ⟨3, 3, 3⟩
    (legEvent "sofia/internal/100@pbx" "a" "") _ _ rfl rfl rfl
  cases hrun
  exact hcleared.noneNull 1 1 _ rfl rfl rfl

end Csta
