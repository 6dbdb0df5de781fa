import FreeswitchContrib.Csta.Answers
import FreeswitchContrib.Csta.Monitors
import FreeswitchContrib.Csta.Persistence
import Mathlib.Order.Interval.Finset.Nat

/-!
# The ids of the monitors

`MonitorStart` looks for an id that no monitor of any device has, from the name of the device on,
and no other handler starts a monitor.

* `monitorStart_starts` — what a request to start a monitor does that is not refused.
* `UniqueXRefIDs` — no id is on two monitors.
* **`xRefIDs_unique`** — the ids are unique in every state that is reached, every monitor gets an id
  that was free, and the search for it ends while not all the numbers are in use.
-/

namespace Csta

open Faulting

/-! ## The statement -/

/-- The device at `p` has a monitor of the session with this id. -/
def FreeSWITCH.Monitors (s : FreeSWITCH) (p : ℕ) (crossRefID : String) (session : ℕ) : Prop :=
  ∃ object, s.devices p = some object ∧ (crossRefID, session) ∈ object.monitoringSessions.entries

/-- No id is on two monitors. -/
def FreeSWITCH.UniqueXRefIDs (s : FreeSWITCH) : Prop :=
  ∀ crossRefID p q session session', s.Monitors p crossRefID session →
    s.Monitors q crossRefID session' → p = q ∧ session = session'

/-- The answers that have been sent. -/
def FreeSWITCH.responses (s : FreeSWITCH) : List (ℕ × Response) :=
  s.effects.filterMap fun
    | .respond session response => some (session, response)
    | _ => none

/-- `MonitorStart` does not refuse to look for the device. -/
def DeviceID.Monitorable (monitorObject : DeviceID) : Prop :=
  monitorObject.callNr ≠ "" ∧ device2Type monitorObject ≠ .unknown

/-- A monitor is started, and the answer has its id, which was free. -/
structure Started (sender : ℕ) (invokeID : ℤ) (monitorObject : DeviceID) (s s' : FreeSWITCH)
    (crossRefID : String) (p : ℕ) : Prop where
  free : ∀ q session, ¬ s.Monitors q crossRefID session
  device : s'.deviceMap.find? monitorObject.strDevice = some p
  monitors : ∀ q id session, s'.Monitors q id session ↔
    s.Monitors q id session ∨ q = p ∧ id = crossRefID ∧ session = sender
  answered : s'.responses = s.responses ++ [(sender, .monitorStart invokeID crossRefID)]

/-- The ids of all monitors. -/
def FreeSWITCH.xRefIDs (s : FreeSWITCH) : List String :=
  s.deviceMap.entries.flatMap fun entry =>
    ((s.devices entry.2).map fun object => object.monitoringSessions.entries.map Prod.fst).getD []

/-- The numbers of `GetNextXRefID` that are in use. -/
def FreeSWITCH.numericIDs (s : FreeSWITCH) : Finset ℕ :=
  (Finset.Icc 1 100000).filter fun k => toString k ∈ s.xRefIDs

variable {s s' : FreeSWITCH} {place : Place} {sender : ℕ} {invokeID : ℤ} {monitorObject : DeviceID}

/-! ## The ids in use -/

lemma mem_xRefIDs {crossRefID : String} :
    crossRefID ∈ s.xRefIDs ↔ Used s.devices s.deviceMap crossRefID := by
  simp only [FreeSWITCH.xRefIDs, List.mem_flatMap, Used]
  constructor
  · rintro ⟨⟨k, p⟩, hk, hid⟩
    cases hp : s.devices p with
    | none => simp [hp] at hid
    | some object =>
      simp only [hp, Option.map_some, Option.getD_some, List.mem_map] at hid
      obtain ⟨⟨id, session⟩, hmem, rfl⟩ := hid
      refine ⟨k, p, object, OrderedMap.mem_entries.1 hk, hp, ?_⟩
      rw [OrderedMap.mem_entries.1 hmem]
      rfl
  · rintro ⟨k, p, object, hk, hp, hid⟩
    obtain ⟨session, hsession⟩ := Option.isSome_iff_exists.1 hid
    refine ⟨(k, p), OrderedMap.mem_entries.2 hk, ?_⟩
    rw [hp]
    exact List.mem_map_of_mem (OrderedMap.mem_entries.2 hsession)

/-- While not all the numbers are in use, one of them is free. -/
lemma exists_free (h : s.numericIDs.card < 100000) (name : String) :
    ∃ id, Candidate name id ∧ ¬ Used s.devices s.deviceMap id := by
  by_contra hnone
  have hall : s.numericIDs = Finset.Icc 1 100000 := by
    refine Finset.filter_true_of_mem fun k hk => ?_
    obtain ⟨hk, hk'⟩ := Finset.mem_Icc.1 hk
    by_contra hfree
    exact hnone ⟨toString k, .inr ⟨k, hk, hk', rfl⟩, mt mem_xRefIDs.2 hfree⟩
  rw [hall, Nat.card_Icc] at h
  omega

/-! ## Starting a monitor -/

/-- The devices and their map are these, and so are the answers. -/
structure Hears (devices : ℕ → Option FreeSwitchDevice) (map : OrderedMap String ℕ)
    (responses : List (ℕ × Response)) (s : FreeSWITCH) : Prop where
  devices : s.devices = devices
  map : s.deviceMap = map
  responses : s.responses = responses

section

variable {devices : ℕ → Option FreeSwitchDevice} {map : OrderedMap String ℕ}
  {responses : List (ℕ × Response)}

lemma hears_get : Sat (fun _ => True) (Hears devices map responses) (get : Handler FreeSWITCH)
    fun t s => Hears devices map responses s ∧ Hears devices map responses t :=
  sat_get fun _ hs => ⟨hs, hs⟩

lemma responses_append (s : FreeSWITCH) (effect : Effect) :
    FreeSWITCH.responses { s with effects := s.effects ++ [effect] } =
      s.responses ++ FreeSWITCH.responses { s with effects := [effect] } := by
  simp only [FreeSWITCH.responses, List.filterMap_append]

lemma hears_perform (effect : Effect) (h : ∀ session response, effect ≠ .respond session response) :
    Sat (fun _ => True) (Hears devices map responses) (perform effect)
      fun _ => Hears devices map responses := by
  refine sat_modify fun s hs => ⟨hs.devices, hs.map, ?_⟩
  rw [responses_append, hs.responses]
  cases effect with
  | respond session response => exact absurd rfl (h session response)
  | _ => exact List.append_nil _

lemma hears_respond {session : ℕ} {response : Response} :
    Sat (fun _ => True) (Hears devices map responses) (respond session response)
      fun _ => Hears devices map (responses ++ [(session, response)]) := by
  refine sat_modify fun s hs => ⟨hs.devices, hs.map, ?_⟩
  rw [responses_append, hs.responses]
  rfl

lemma hears_device {p : ℕ} : Sat (fun _ => True) (Hears devices map responses) (device p)
    fun object s => Hears devices map responses s ∧ devices p = some object :=
  deref_finds.mono (fun _ hs => hs) fun _ _ hs => ⟨hs.1, hs.1.devices ▸ hs.2⟩

lemma hears_anyMonitoredWithID {crossRefID : String} {entries : List (String × ℕ)} :
    Sat (fun _ => True) (Hears devices map responses) (anyMonitoredWithID crossRefID entries)
      fun _ => Hears devices map responses := by
  induction entries with
  | nil => exact sat_pure fun _ hs => hs
  | cons entry rest ih =>
    exact sat_bind (hears_device.mono (fun _ hs => hs) fun _ _ hs => hs.1) fun _ =>
      sat_ite (fun _ => sat_pure fun _ hs => hs) fun _ => ih

/-- The search for an id changes no device and answers nothing. -/
lemma hears_searchXRefID {n : ℕ} {crossRefID : String} :
    Sat (fun _ => True) (Hears devices map responses) (searchXRefID n crossRefID)
      fun _ => Hears devices map responses := by
  induction n generalizing crossRefID with
  | zero => exact sat_throw fun _ _ => trivial
  | succ n ih =>
    refine sat_bind (Q := fun _ => Hears devices map responses) ?_ fun used =>
      sat_ite (fun _ => ?_) fun _ => sat_pure fun _ hs => hs
    · refine sat_bind (hears_perform _ nofun) fun _ => sat_bind_of hears_get fun t _ => ?_
      refine sat_bind hears_anyMonitoredWithID fun _ => ?_
      exact sat_bind (hears_perform _ nofun) fun _ => sat_pure fun _ hs => hs
    · refine sat_bind (Q := fun _ => Hears devices map responses) ?_ fun _ => ih
      refine sat_bind_of hears_get fun t _ => ?_
      exact sat_bind (sat_modify fun s hs => ⟨hs.devices, hs.map, hs.responses⟩) fun _ =>
        sat_pure fun _ hs => hs

/-- A device that is new has no monitors, and is found by its name. -/
structure Adds (name : String) (p : ℕ) (devices devices' : ℕ → Option FreeSwitchDevice)
    (map map' : OrderedMap String ℕ) : Prop where
  found : map'.find? name = some p
  kept : ∀ k q, map.find? k = some q → map'.find? k = some q
  monitors : ∀ q, (devices' q).map FreeSwitchDevice.monitoringSessions =
      (devices q).map FreeSwitchDevice.monitoringSessions ∨
    devices q = none ∧ (devices' q).map FreeSwitchDevice.monitoringSessions = some .empty

lemma hears_prepareDevice {name : String} {type : DeviceType} :
    Sat (fun _ => True) (Hears devices map responses) (prepareDevice place name type) fun p s =>
      ∃ devices' map', Hears devices' map' responses s ∧
        Adds (type2Prefix type ++ name) p devices devices' map map' := by
  refine sat_bind_of hears_get fun t ht => ?_
  rw [ht.map]
  cases hfind : map.find? (type2Prefix type ++ name) with
  | some p =>
    exact sat_pure fun s hs => ⟨devices, map, hs, hfind, fun _ _ hk => hk, fun _ => .inl rfl⟩
  | none =>
    refine sat_bind checkFree_finds fun _ => ?_
    intro s hs
    have hfree := hs.1.devices ▸ hs.2
    refine ⟨_, _, ⟨rfl, rfl, hs.1.responses⟩, ?_, fun k q hk => ?_, fun q => ?_⟩
    · exact (OrderedMap.find?_insert ..).trans (if_pos rfl)
    · have hne : k ≠ type2Prefix type ++ name := by
        rintro rfl
        rw [hfind] at hk
        cases hk
      refine (OrderedMap.find?_insert ..).trans ((if_neg hne).trans ?_)
      exact (congrArg (·.find? k) hs.1.map).trans hk
    · by_cases hq : q = place.device
      · subst hq
        exact .inr ⟨hfree, congrArg _ (Function.update_self ..)⟩
      · refine .inl (congrArg _ ?_)
        exact (Function.update_of_ne hq ..).trans (congrFun hs.1.devices q)

/-- **The search finds an id that is free.** -/
lemma hears_finds {n : ℕ} {crossRefID : String} :
    Sat (fun _ => True) (Hears devices map responses) (searchXRefID n crossRefID) fun id s =>
      Hears devices map responses s ∧ ¬ Used devices map id := by
  intro t ht
  have hfinds : Sat (fun _ => True) (Holds devices map t.lastXRefID) (searchXRefID n crossRefID)
      fun id _ => Candidate crossRefID id ∧ ¬ Used devices map id :=
    (searchXRefID_finds (.inl rfl)).allow fun _ _ => trivial
  exact ((hfinds.and hears_searchXRefID).mono (fun _ hs => hs) fun _ _ hs => ⟨hs.2, hs.1.2⟩) t
    ⟨⟨ht.devices, ht.map, rfl⟩, ht⟩

/-- `AddMonitor` does not fail with it. -/
lemma hears_addMonitor {k crossRefID : String} {p session : ℕ} (hp : map.find? k = some p)
    (hfree : ¬ Used devices map crossRefID) :
    Sat (fun _ => True) (Hears devices map responses) (addMonitor p session crossRefID)
      fun added s => (∃ object, devices p = some object ∧
        Hears (Function.update devices p (some { object with
          monitoringSessions := object.monitoringSessions.insert crossRefID session }))
          map responses s) ∧ added = true := by
  refine sat_bind_of hears_device fun object hobject => sat_ite (fun hused => ?_) fun _ => ?_
  · exact absurd ⟨k, p, object, hp, hobject, hused⟩ hfree
  · refine sat_bind (Q := fun _ => Hears (Function.update devices p (some { object with
      monitoringSessions := object.monitoringSessions.insert crossRefID session })) map responses)
      (sat_modify fun s hs => ?_) fun _ => sat_pure fun _ hs => ⟨⟨object, hobject, hs⟩, rfl⟩
    exact ⟨congrArg (Function.update · _ _) hs.devices, hs.map, hs.responses⟩

/-- The monitors are those of before and the new one. -/
lemma monitors_iff {t : FreeSWITCH} {name crossRefID : String} {p session : ℕ}
    {devices' : ℕ → Option FreeSwitchDevice} {map' : OrderedMap String ℕ}
    {object : FreeSwitchDevice} (hadds : Adds name p s.devices devices' map map')
    (hobject : devices' p = some object)
    (hfree : object.monitoringSessions.find? crossRefID = none)
    (ht : t.devices = Function.update devices' p (some { object with
      monitoringSessions := object.monitoringSessions.insert crossRefID session }))
    (q : ℕ) (id : String) (session' : ℕ) : t.Monitors q id session' ↔
      s.Monitors q id session' ∨ q = p ∧ id = crossRefID ∧ session' = session := by
  have hbefore (q : ℕ) (id : String) (session' : ℕ) : (∃ object', devices' q = some object' ∧
      object'.monitoringSessions.find? id = some session') ↔ s.Monitors q id session' := by
    rw [FreeSWITCH.Monitors]
    simp only [OrderedMap.mem_entries]
    rcases hadds.monitors q with hsame | ⟨hnone, hempty⟩
    · cases hq : devices' q <;> cases hq' : s.devices q <;> simp_all
    · obtain ⟨object', hq, hmonitors⟩ := Option.map_eq_some_iff.1 hempty
      simp [hnone, hq, hmonitors, OrderedMap.find?_empty]
  rw [← hbefore, FreeSWITCH.Monitors, ht]
  simp only [OrderedMap.mem_entries]
  by_cases hq : q = p
  · subst hq
    rw [Function.update_self]
    simp only [Option.some.injEq, exists_eq_left', OrderedMap.find?_insert, hobject, true_and]
    by_cases hid : id = crossRefID
    · subst hid
      simp [hfree, eq_comm]
    · simp [hid]
  · rw [Function.update_of_ne hq]
    simp [hq]

end

/-- What is free now was free before. -/
lemma Adds.not_monitors (hs : Kept False s) {name crossRefID : String} {p : ℕ}
    {devices' : ℕ → Option FreeSwitchDevice} {map' : OrderedMap String ℕ}
    (hadds : Adds name p s.devices devices' s.deviceMap map')
    (hfree : ¬ Used devices' map' crossRefID) (q session : ℕ) :
    ¬ s.Monitors q crossRefID session := by
  rintro ⟨before, hbefore, hmem⟩
  obtain ⟨⟨k, q⟩, hk, rfl⟩ := List.mem_map.1 (mem_devices hs hbefore)
  have hfound := hadds.kept _ _ (OrderedMap.mem_entries.1 hk)
  rcases hadds.monitors q with hsame | ⟨hnone, -⟩
  · rw [hbefore, Option.map_some] at hsame
    obtain ⟨object, hobject, hmonitors⟩ := Option.map_eq_some_iff.1 hsame
    refine hfree ⟨k, q, object, hfound, hobject, ?_⟩
    rw [hmonitors, OrderedMap.mem_entries.1 hmem]
    rfl
  · rw [hbefore] at hnone
    cases hnone

/-- **A monitor is started** by a request that is not refused. -/
lemma monitorStart_starts (hs : Kept False s) (h : monitorObject.Monitorable) :
    Sat (fun _ => True) (· = s) (monitorStart place sender invokeID monitorObject) fun _ s' =>
      ∃ crossRefID p, Started sender invokeID monitorObject s s' crossRefID p := by
  refine sat_ite (fun hrefused => absurd hrefused ?_) fun _ => ?_
  · rintro (hempty | hunknown)
    · exact h.1 hempty
    · exact h.2 hunknown
  refine sat_bind (Q := fun _ => Hears s.devices s.deviceMap s.responses)
    ((hears_perform .lock nofun).mono (fun _ ht => ht ▸ ⟨rfl, rfl, rfl⟩) fun _ _ ht => ht)
    fun _ => sat_bind hears_prepareDevice fun p => ?_
  refine sat_exists fun devices' => sat_exists fun map' => sat_of (fun _ ht => ht.2) fun hadds => ?_
  refine Sat.mono (P := Hears devices' map' s.responses) ?_ (fun _ ht => ht.1) fun _ _ ht => ht
  refine sat_bind_of hears_device fun _ _ => sat_bind_of hears_finds fun id hid => ?_
  refine sat_bind_of (hears_addMonitor hadds.found hid) fun added hadded => ?_
  subst hadded
  refine sat_exists fun object => sat_of (fun _ ht => ht.1) fun hobject => ?_
  have hnot : object.monitoringSessions.find? id = none := by
    by_contra hsome
    exact hid ⟨_, p, object, hadds.found, hobject, Option.isSome_iff_ne_none.2 hsome⟩
  refine sat_ite (fun _ => ?_) fun hfailed => absurd rfl hfailed
  refine sat_bind (hears_respond.mono (fun _ ht => ht.2) fun _ _ ht => ht) fun _ =>
    (hears_perform .unlock nofun).mono (fun _ ht => ht) fun _ u hu => ?_
  exact ⟨id, p, hadds.not_monitors hs hid, hu.map ▸ hadds.found,
    monitors_iff hadds hobject hnot hu.devices, hu.responses⟩

/-! ## Runs -/

/-- A device has no more ids than before. -/
def MonitorsOf (s t : FreeSWITCH) : Prop :=
  ∀ p id session, t.Monitors p id session → ∃ session', s.Monitors p id session'

instance (s : FreeSWITCH) : Persistent (MonitorsOf s) where
  other hdevices _ hs p id session ht := by
    rw [FreeSWITCH.Monitors, hdevices] at ht
    exact hs p id session ht
  newDevice := by
    rintro t p object - hmonitors - hs q id session ⟨found, hq, hmem⟩
    by_cases hqp : q = p
    · subst hqp
      cases (Function.update_self q (some object) t.devices).symm.trans hq
      rw [hmonitors] at hmem
      cases hmem
    · exact hs q id session ⟨found, (Function.update_of_ne hqp ..).symm.trans hq, hmem⟩
  setDevice := by
    rintro t p old object hold - hmonitors - hs q id session ⟨found, hq, hmem⟩
    by_cases hqp : q = p
    · subst hqp
      cases (Function.update_self q (some object) t.devices).symm.trans hq
      have hid := hmonitors id (by rw [OrderedMap.mem_entries.1 hmem]; rfl)
      obtain ⟨session', hsession'⟩ := Option.isSome_iff_exists.1 hid
      exact hs q id session' ⟨old, hold, OrderedMap.mem_entries.2 hsession'⟩
    · exact hs q id session ⟨found, (Function.update_of_ne hqp ..).symm.trans hq, hmem⟩
  setConnection _ hs := hs
  freeConnection hs := hs

/-- One device has each of its ids once. -/
lemma unique_of_devices (h : ∀ id p q session session', s.Monitors p id session →
    s.Monitors q id session' → p = q) : s.UniqueXRefIDs := by
  intro id p q session session' hp hq
  have hpq := h id p q session session' hp hq
  subst hpq
  obtain ⟨object, hobject, hmem⟩ := hp
  obtain ⟨object', hobject', hmem'⟩ := hq
  rw [hobject] at hobject'
  cases hobject'
  have hsession := (OrderedMap.mem_entries.1 hmem).symm.trans (OrderedMap.mem_entries.1 hmem')
  exact ⟨rfl, Option.some.inj hsession⟩

lemma unique_of_monitorsOf (hs : s.UniqueXRefIDs) (h : MonitorsOf s s') : s'.UniqueXRefIDs :=
  unique_of_devices fun id p q session session' hp hq => by
    obtain ⟨before, hbefore⟩ := h p id session hp
    obtain ⟨before', hbefore'⟩ := h q id session' hq
    exact (hs id p q before before' hbefore hbefore').1

/-- The id of a monitor that is started is on no other one. -/
lemma unique_of_started {crossRefID : String} {p : ℕ} (hs : s.UniqueXRefIDs)
    (h : Started sender invokeID monitorObject s s' crossRefID p) : s'.UniqueXRefIDs := by
  refine unique_of_devices fun id q r session session' hq hr => ?_
  rcases (h.monitors q id session).1 hq with hq | ⟨rfl, rfl, rfl⟩ <;>
    rcases (h.monitors r id session').1 hr with hr | ⟨rfl, hid, rfl⟩
  · exact (hs id q r session session' hq hr).1
  · exact absurd (hid ▸ hq) (h.free q session)
  · exact absurd hr (h.free r session')
  · rfl

/-- **A step** keeps the ids unique. -/
lemma unique_step {action : Action} (hs : Kept False s) (hunique : s.UniqueXRefIDs)
    (hrun : (handle place action).run s = .ok ((), s')) : s'.UniqueXRefIDs := by
  have hsame : MonitorsOf s s := fun p id session h => ⟨session, h⟩
  have of_persists (h : Persists (MonitorsOf s) (handle place action)) : s'.UniqueXRefIDs :=
    unique_of_monitorsOf hunique (h.ok hsame hrun)
  cases action with
  | monitorStart sender invokeID monitorObject =>
    by_cases hrefused : monitorObject.callNr = "" ∨ device2Type monitorObject = .unknown
    · exact of_persists (sat_ite (fun _ => respond_persists) fun h => absurd hrefused h)
    · obtain ⟨id, p, hstarted⟩ := (monitorStart_starts hs (not_or.1 hrefused)).ok rfl hrun
      exact unique_of_started hunique hstarted
  | channelHangup event =>
    exact of_persists (onChannelHangup_persists fun hs => hs)
  | _ => exact of_persists (handle_persists trivial)

/-- **The ids of the monitors are unique.**  In every state that is reached no id is on two
monitors; a request to start a monitor that is not refused gets an id that no monitor had, and no
other answer; and its handler returns while fewer than all the numbers are in use. -/
theorem xRefIDs_unique {actions : List (Place × Action)} (h : run .init actions = .ok s) :
    s.UniqueXRefIDs ∧ ∀ (place : Place) (sender : ℕ) (invokeID : ℤ) (monitorObject : DeviceID),
      (∀ s', (handle place (.monitorStart sender invokeID monitorObject)).run s = .ok ((), s') →
        monitorObject.Monitorable →
          ∃ crossRefID p, Started sender invokeID monitorObject s s' crossRefID p) ∧
      (place.Free s → s.numericIDs.card < 100000 →
        ∃ s', (handle place (.monitorStart sender invokeID monitorObject)).run s =
          .ok ((), s')) := by
  have hs := kept_of_run h
  refine ⟨?_, fun place sender invokeID monitorObject => ⟨fun s' hrun hobject => ?_,
    fun hplace hfree => ?_⟩⟩
  · exact run_invariant unique_step kept_init (fun _ _ _ _ _ ⟨_, hnone, _⟩ => nomatch hnone) h
  · exact (monitorStart_starts hs hobject).ok rfl hrun
  · obtain ⟨s', hrun, -⟩ := (monitorStart_answers_iff hs hplace).2
      (.inr (exists_free hfree monitorObject.strDevice))
    exact ⟨s', hrun⟩

/-- The second monitor of a device gets a number. -/
def monitoredTwice : List (Place × Action) :=
  [(⟨0, 0, 0⟩, .monitorStart 7 1 ⟨.dialable, "100"⟩),
    (⟨1, 1, 1⟩, .monitorStart 8 1 ⟨.dialable, "100"⟩)]

theorem xRefIDs_unique_monitoredTwice : ∃ s s', run .init monitoredTwice = .ok s ∧
    s.UniqueXRefIDs ∧
      (handle ⟨2, 2, 2⟩ (.monitorStart 9 1 ⟨.dialable, "1"⟩)).run s = .ok ((), s') ∧
        ∃ crossRefID p, Started 9 1 ⟨.dialable, "1"⟩ s s' crossRefID p := by
  have hunique := xRefIDs_unique (rfl : run .init monitoredTwice = .ok _)
  obtain ⟨hstarted, hreturns⟩ := hunique.2 ⟨2, 2, 2⟩ 9 1 ⟨.dialable, "1"⟩
  obtain ⟨s', hrun⟩ := hreturns ⟨rfl, rfl, rfl⟩
    ((Finset.card_lt_card (Finset.filter_ssubset.2 ⟨2, by simp, by decide⟩)).trans_eq
      (Nat.card_Icc 1 100000))
  exact ⟨_, s', rfl, hunique.1, hrun, hstarted s' hrun ⟨by decide, by decide⟩⟩

end Csta
