import FreeswitchContrib.Csta.Locks
import Mathlib.Data.List.Chain
import Mathlib.Data.List.Nodup

/-!
# Monitors of a session that is finished

`RemoveMonitor` steps over the entry behind one that it erases, so that a monitor of the session
survives behind another one.

* `erased_all_iff` — which monitors are erased.
* `Deaf` — no device has a monitor of the session, and nothing is sent to it.
* **`session_forgotten_iff`** — when a finished session is forgotten.
-/

namespace Csta

open Faulting Tallying

/-! ## What is erased -/

/-- No two monitors of the session are next to each other. -/
def Apart (session : ℕ) (entries : List (String × ℕ)) : Prop :=
  entries.IsChain fun a b => ¬ (a.2 = session ∧ b.2 = session)

variable {session : ℕ}

lemma mem_of_erased {id : String} {entries : List (String × ℕ)}
    (h : id ∈ erasedMonitors session entries) : (id, session) ∈ entries := by
  induction entries using erasedMonitors.induct session with
  | case1 => cases h
  | case2 crossRefID =>
    rw [erasedMonitors, if_pos rfl] at h
    rw [List.mem_singleton.1 h]
    exact List.mem_cons_self
  | case3 crossRefID s hs =>
    rw [erasedMonitors, if_neg hs] at h
    cases h
  | case4 crossRefID next rest ih =>
    rw [erasedMonitors, if_pos rfl] at h
    rcases List.mem_cons.1 h with rfl | h
    · exact List.mem_cons_self
    · exact List.mem_cons_of_mem _ (List.mem_cons_of_mem _ (ih h))
  | case5 crossRefID s next rest hs ih =>
    rw [erasedMonitors, if_neg hs] at h
    exact List.mem_cons_of_mem _ (ih h)

lemma apart_cons_of_ne {id : String} {other : ℕ} {rest : List (String × ℕ)}
    (h : other ≠ session) : Apart session ((id, other) :: rest) ↔ Apart session rest := by
  cases rest with
  | nil => simp [Apart]
  | cons next rest =>
    rw [Apart, List.isChain_cons_cons]
    exact and_iff_right fun hboth => h hboth.1

/-- **All monitors of the session are erased** when no two of them are next to each other. -/
theorem erased_all_iff {entries : List (String × ℕ)} (h : (entries.map Prod.fst).Nodup) :
    (∀ id, (id, session) ∈ entries → id ∈ erasedMonitors session entries) ↔
      Apart session entries := by
  induction entries using erasedMonitors.induct session with
  | case1 => simp [Apart]
  | case2 crossRefID => simp [erasedMonitors, Apart]
  | case3 crossRefID s hs => simp [erasedMonitors, Apart, hs, Ne.symm hs]
  | case4 crossRefID next rest ih =>
    obtain ⟨key, other⟩ := next
    obtain ⟨hhead, htail⟩ := List.nodup_cons.1 h
    obtain ⟨hnext, hrest⟩ := List.nodup_cons.1 htail
    rw [erasedMonitors, if_pos rfl, Apart, List.isChain_cons_cons]
    constructor
    · intro hall
      have hother : other ≠ session := by
        rintro rfl
        rcases List.mem_cons.1 (hall key (by simp)) with heq | hmem
        · exact hhead (heq ▸ List.mem_cons_self)
        · exact hnext (List.mem_map_of_mem (f := Prod.fst) (mem_of_erased hmem))
      have hapart : Apart session rest := (ih hrest).1 fun id hid => by
        rcases List.mem_cons.1 (hall id (by simp [hid])) with heq | hmem
        · subst heq
          exact absurd (List.mem_cons_of_mem key (List.mem_map_of_mem (f := Prod.fst) hid)) hhead
        · exact hmem
      exact ⟨fun h => hother h.2, (apart_cons_of_ne hother).2 hapart⟩
    · rintro ⟨hne, hchain⟩ id hid
      have hother : other ≠ session := fun h => hne ⟨rfl, h⟩
      rcases List.mem_cons.1 hid with heq | hid
      · cases heq
        exact List.mem_cons_self
      rcases List.mem_cons.1 hid with heq | hid
      · exact absurd (Prod.ext_iff.1 heq).2.symm hother
      · exact List.mem_cons_of_mem _ ((ih hrest).2 ((apart_cons_of_ne hother).1 hchain) id hid)
  | case5 crossRefID s next rest hs ih =>
    obtain ⟨hhead, htail⟩ := List.nodup_cons.1 h
    rw [erasedMonitors, if_neg hs, apart_cons_of_ne hs, ← ih htail]
    constructor
    · exact fun hall id hid => hall id (List.mem_cons_of_mem _ hid)
    · intro hall id hid
      rcases List.mem_cons.1 hid with heq | hid
      · exact absurd (Prod.ext_iff.1 heq).2.symm hs
      · exact hall id hid

lemma find?_erased (ids : List String) (monitors : OrderedMap String ℕ) (id : String) :
    (ids.foldl OrderedMap.erase monitors).find? id =
      if id ∈ ids then none else monitors.find? id := by
  induction ids generalizing monitors with
  | nil => simp
  | cons other rest ih =>
    rw [List.foldl_cons, ih, OrderedMap.find?_erase]
    by_cases hrest : id ∈ rest
    · rw [if_pos hrest, if_pos (List.mem_cons_of_mem _ hrest)]
    · rw [if_neg hrest]
      by_cases hid : id = other
      · rw [if_pos hid, if_pos (List.mem_cons.2 (.inl hid))]
      · rw [if_neg hid, if_neg fun hmem => (List.mem_cons.1 hmem).elim hid hrest]

/-- What `RemoveMonitor` leaves of the monitors of a device. -/
def forget (session : ℕ) (monitors : OrderedMap String ℕ) : OrderedMap String ℕ :=
  (erasedMonitors session monitors.entries).foldl OrderedMap.erase monitors

lemma forget_all_iff {monitors : OrderedMap String ℕ} :
    (∀ id, (forget session monitors).find? id ≠ some session) ↔
      Apart session monitors.entries := by
  have hkeys : (monitors.entries.map Prod.fst).Nodup :=
    (List.pairwise_map.2 monitors.ordered).imp fun h => ne_of_lt h
  rw [← erased_all_iff hkeys]
  refine forall_congr' fun id => ?_
  rw [forget, find?_erased, OrderedMap.mem_entries]
  split_ifs with h <;> simp [h]

lemma find?_forget_of_ne {monitors : OrderedMap String ℕ} {id : String} {other : ℕ}
    (hother : other ≠ session) (h : monitors.find? id = some other) :
    (forget session monitors).find? id = some other := by
  rw [forget, find?_erased, if_neg, h]
  intro hmem
  have hsession := OrderedMap.mem_entries.1 (mem_of_erased hmem)
  rw [h] at hsession
  exact hother (Option.some.inj hsession)

/-! ## The handler -/

/-- The device without the monitors that are erased. -/
def FreeSwitchDevice.forget (session : ℕ) (object : FreeSwitchDevice) : FreeSwitchDevice :=
  { object with monitoringSessions := Csta.forget session object.monitoringSessions }

/-- The devices of the loop are without them, and the others as they were. -/
lemma removeMonitors_devices {entries : List (String × ℕ)} {devices : ℕ → Option FreeSwitchDevice}
    (h : (entries.map Prod.snd).Nodup) :
    Sat (· = Fault.danglingPointer) (fun s => s.devices = devices)
      (entries.forM fun entry => removeMonitor session entry.2) fun _ s =>
        s.devices = fun p => if p ∈ entries.map Prod.snd then
          (devices p).map (FreeSwitchDevice.forget session) else devices p := by
  induction entries generalizing devices with
  | nil => exact sat_pure fun _ hs => by simpa using hs
  | cons entry rest ih =>
    obtain ⟨hnot, hrest⟩ := List.nodup_cons.1 h
    refine sat_bind (Q := fun _ s => s.devices = Function.update devices entry.2
      ((devices entry.2).map (FreeSwitchDevice.forget session))) ?_ fun _ =>
        (ih hrest).mono (fun _ hs => hs) fun _ s hs => ?_
    · refine sat_bind (Q := fun object s => s.devices = devices ∧
        devices entry.2 = some object) ?_ fun object => ?_
      · refine sat_bind_of (Q := fun _ s => s.devices = devices)
          (sat_get fun s hs => ⟨hs, hs⟩) fun s hs => ?_
        rw [hs]
        cases devices entry.2 with
        | none => exact sat_throw fun _ _ => rfl
        | some object => exact sat_pure fun _ hs' => ⟨hs', rfl⟩
      · refine sat_modify fun s hs => ?_
        rw [hs.2, Option.map_some]
        exact congrArg (Function.update · _ _) hs.1
    · rw [hs]
      funext p
      by_cases hp : p = entry.2
      · subst hp
        rw [if_neg hnot, Function.update_self, if_pos (by simp)]
      · rw [Function.update_of_ne hp, List.map_cons]
        simp only [List.mem_cons, hp, false_or]

variable {s s' : FreeSWITCH} {place : Place}

lemma nodup_devices (hs : Kept False s) : (s.deviceMap.entries.map Prod.snd).Nodup := by
  refine List.Nodup.map_on ?_ s.deviceMap.nodup_entries
  rintro ⟨k, p⟩ hmem ⟨k', p'⟩ hmem' heq
  cases heq
  have hname := (hs.2.consistent.left k p).1 (OrderedMap.mem_entries.1 hmem)
  have hname' := (hs.2.consistent.left k' p).1 (OrderedMap.mem_entries.1 hmem')
  rw [hname] at hname'
  cases hname'
  rfl

/-- Every device is in the map of the devices. -/
lemma mem_devices (hs : Kept False s) {p : ℕ} {object : FreeSwitchDevice}
    (hobject : s.devices p = some object) : p ∈ s.deviceMap.entries.map Prod.snd := by
  have hname : s.shape.leftName p = some object.strDevice := by
    simp only [FreeSWITCH.shape, hobject, Option.map_some]
  have hmem : (object.strDevice, p) ∈ s.deviceMap.entries :=
    OrderedMap.mem_entries.2 ((hs.2.consistent.left _ _).2 hname)
  exact List.mem_map_of_mem (f := Prod.snd) hmem

lemma onSessionFinished_devices (hs : Kept False s) :
    Sat (· = Fault.danglingPointer) (· = s) (onSessionFinished session) fun _ s' =>
      s'.devices = fun p => (s.devices p).map (FreeSwitchDevice.forget session) := by
  refine sat_bind (Q := fun _ t => t.devices = s.devices ∧ t.deviceMap = s.deviceMap)
    (sat_modify fun t ht => by subst ht; exact ⟨rfl, rfl⟩) fun _ => ?_
  refine sat_bind_of (Q := fun _ t => t.devices = s.devices)
    (sat_get fun t ht => ⟨ht.1, ht.2⟩) fun t ht => ?_
  rw [ht]
  refine sat_bind (removeMonitors_devices (nodup_devices hs)) fun _ => sat_modify fun t ht => ?_
  refine ht.trans (funext fun p => ?_)
  cases hp : s.devices p with
  | none => split_ifs <;> rfl
  | some object => exact if_pos (mem_devices hs hp)

/-! ## What comes after -/

def Effect.goesTo (session : ℕ) : Effect → Bool
  | .event other _ _ => other == session
  | _ => false

/-- How many events the session has been sent. -/
def FreeSWITCH.sent (s : FreeSWITCH) (session : ℕ) : ℕ :=
  s.effects.countP (Effect.goesTo session)

/-- No device has a monitor of the session. -/
def FreeSWITCH.Unmonitored (s : FreeSWITCH) (session : ℕ) : Prop :=
  ∀ p object, s.devices p = some object → ∀ id, object.monitoringSessions.find? id ≠ some session

/-- No device has a monitor of the session, which has been sent so many events. -/
def Deaf (session sent : ℕ) (_ : Tally) (s : FreeSWITCH) : Prop :=
  s.Unmonitored session ∧ s.sent session = sent

instance (sent : ℕ) : Invariant (Deaf session sent) where
  good monitors := ∀ id, monitors.find? id ≠ some session
  good_empty := by simp
  good_erase id h id' := by
    rw [OrderedMap.find?_erase]
    split_ifs
    · simp
    · exact h id'
  perform := by
    intro n s effect heffect hs
    refine ⟨hs.1, ?_⟩
    have hgoes : effect.goesTo session = false := by
      cases effect with
      | event => cases heffect
      | _ => rfl
    rw [FreeSWITCH.sent, List.countP_append, List.countP_singleton, hgoes]
    exact hs.2
  send := by
    intro n s monitors entry event hgood hmem hs
    refine ⟨hs.1, ?_⟩
    have hother : (entry.2 == session) = false := by
      refine beq_false_of_ne fun heq => hgood entry.1 ?_
      rw [← heq]
      exact OrderedMap.mem_entries.1 hmem
    rw [FreeSWITCH.sent, List.countP_append, List.countP_singleton, Effect.goesTo, hother]
    exact hs.2
  device hs hp := hs.1 _ _ hp
  setDevice := by
    intro n s p object hgood hs
    refine ⟨fun q other hq => ?_, hs.2⟩
    have hupdate : Function.update s.devices p (some object) q = some other := hq
    by_cases hqp : q = p
    · subst hqp
      rw [Function.update_self] at hupdate
      cases hupdate
      exact hgood
    · rw [Function.update_of_ne hqp] at hupdate
      exact hs.1 q other hupdate
  other := by
    intro n s s' hdevices heffects _ hs
    refine ⟨fun p object hp => hs.1 p object (hdevices ▸ hp), ?_⟩
    rw [FreeSWITCH.sent, heffects]
    exact hs.2
  wait hs := hs
  resume _ hs := hs

/-- Who is finished asks for no monitor any more. -/
def Action.NotFrom (session : ℕ) : Action → Prop
  | .monitorStart sender _ _ => sender ≠ session
  | _ => True

lemma Action.NotFrom.admitted {sent : ℕ} {action : Action} (h : action.NotFrom session) :
    action.Admitted (Deaf session sent) := by
  cases action with
  | monitorStart sender invokeID monitorObject =>
    intro monitors id hgood id'
    rw [OrderedMap.find?_insert]
    split_ifs
    · exact fun heq => h (Option.some.inj heq)
    · exact hgood id'
  | _ => trivial

/-- No device refers to the session, the monitors of the others are still there, and the session is
sent nothing in any later run in which it asks for no monitor. -/
structure Forgotten (session : ℕ) (s s' : FreeSWITCH) : Prop where
  unmonitored : s'.Unmonitored session
  others : ∀ p object id other, other ≠ session → s.devices p = some object →
    object.monitoringSessions.find? id = some other →
      ∃ object', s'.devices p = some object' ∧ object'.monitoringSessions.find? id = some other
  silent : ∀ (actions : List (Place × Action)) (later : FreeSWITCH),
    (∀ step ∈ actions, step.2.NotFrom session) → run s' actions = .ok later →
      later.sent session = s'.sent session

/-- **When a finished session is forgotten**: on no device two of its monitors are next to each
other. -/
theorem session_forgotten_iff {actions : List (Place × Action)} (h : run .init actions = .ok s) :
    (∃ s', (handle place (.sessionFinished session)).run s = .ok ((), s') ∧
      Forgotten session s s') ↔
        ∀ p object, s.devices p = some object →
          Apart session object.monitoringSessions.entries := by
  have hs := kept_of_run h
  have hsafe : Safe (At s.shape) (handle place (.sessionFinished session)) fun _ => Kept False :=
    handle_keeps hs.2 False.elim
  have hdevices : Sat (· = Fault.danglingPointer) (· = s)
      (handle place (.sessionFinished session)) _ := onSessionFinished_devices hs
  constructor
  · rintro ⟨s', hrun, hforgotten⟩ p object hp
    have hp' : s'.devices p = some (object.forget session) :=
      (congrFun (hdevices.ok rfl hrun) p).trans (congrArg _ hp)
    exact forget_all_iff.1 (hforgotten.unmonitored p _ hp')
  · intro hapart
    cases hrun : (handle place (.sessionFinished session)).run s with
    | error fault => exact absurd (hdevices.error rfl hrun) (hsafe.error ⟨rfl, hs.1⟩ hrun)
    | ok result =>
      obtain ⟨_, s'⟩ := result
      have hs' := hdevices.ok rfl hrun
      have hunmonitored : s'.Unmonitored session := by
        intro p object hp
        rw [hs'] at hp
        obtain ⟨before, hbefore, rfl⟩ := Option.map_eq_some_iff.1 hp
        exact forget_all_iff.2 (hapart p before hbefore)
      refine ⟨s', rfl, hunmonitored, fun p object id other hother hp hid => ?_,
        fun later final hlater hfinal => ?_⟩
      · exact ⟨object.forget session, (congrFun hs' p).trans (congrArg _ hp),
          find?_forget_of_ne hother hid⟩
      · have hdeaf : ∃ n, Deaf session (s'.sent session) n s' := ⟨0, hunmonitored, rfl⟩
        obtain ⟨-, -, hsent⟩ := run_stays hdeaf (fun step hmem => (hlater step hmem).admitted)
          hfinal
        exact hsent

def monitoredOnce : List (Place × Action) :=
  [(⟨0, 0, 0⟩, .monitorStart 7 1 ⟨.dialable, "100"⟩)]

theorem session_forgotten_iff_once : ∃ s, run .init monitoredOnce = .ok s ∧
    ∃ s', (handle ⟨1, 1, 1⟩ (.sessionFinished 7)).run s = .ok ((), s') ∧ Forgotten 7 s s' := by
  refine ⟨_, rfl, (session_forgotten_iff (rfl : run .init monitoredOnce = .ok _)).2
    fun p object hp => ?_⟩
  by_cases hzero : p = 0
  · subst hzero
    cases hp
    exact List.isChain_singleton _
  · change Function.update (Function.update (fun _ => none) 0 _) 0 _ p = some object at hp
    rw [Function.update_of_ne hzero, Function.update_of_ne hzero] at hp
    cases hp

/-- The second one survives the first one. -/
theorem monitored_twice_remembered :
    ¬ ∀ (actions : List (Place × Action)) (s : FreeSWITCH) (place : Place) (session : ℕ),
      run .init actions = .ok s → ∃ s', (handle place (.sessionFinished session)).run s =
        .ok ((), s') ∧ Forgotten session s s' := by
  intro h
  obtain ⟨s', hrun, hforgotten⟩ := h
    (monitoredOnce ++ [(⟨1, 1, 1⟩, .monitorStart 7 2 ⟨.dialable, "100"⟩)]) _ ⟨2, 2, 2⟩ 7 rfl
  cases hrun
  exact hforgotten.unmonitored 0 _ rfl "100" (by decide)

end Csta
