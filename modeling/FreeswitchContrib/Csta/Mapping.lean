import FreeswitchContrib.Csta.Requests
import FreeswitchContrib.Library.Faulting
import FreeswitchContrib.Library.CrossLinks

/-!
# What the operations do to the maps

The maps of the devices and calls are `CrossLinks`.  Most operations leave them as they are, and the
others make one change each.
-/

namespace Csta

open Faulting

/-- The maps: devices are the left objects, calls the right ones. -/
def FreeSWITCH.shape (s : FreeSWITCH) : CrossLinks ℕ ℕ String String ℕ where
  leftAt := s.deviceMap.find?
  leftName p := (s.devices p).map FreeSwitchDevice.strDevice
  rightAt := s.callMap.find?
  rightName p := (s.calls p).map FreeSwitchCall.strUUID
  link p pCall := (s.devices p).bind fun object => object.connections.find? pCall
  member pCall k := (s.calls pCall).bind fun object => object.devices.find? k
  target x := (s.connections x).map FreeSwitchConnection.pCall

abbrev Shape := CrossLinks ℕ ℕ String String ℕ

/-- No branch for a missing connection has been taken, and the devices that a `MakeCall` waits for
are there. -/
structure FreeSWITCH.Clean (s : FreeSWITCH) : Prop where
  mapped : ∀ device call, Effect.withoutConnection device call ∉ s.effects
  pending : ∀ pending ∈ s.pendingMakeCalls, ∀ p ∈ pending.pDevice,
    ∃ k, s.shape.leftName p = some k

/-- The maps are these. -/
def At (S : Shape) (s : FreeSWITCH) : Prop := s.shape = S ∧ s.Clean

/-- No dangling pointer is followed. -/
abbrev Safe {α : Type} (P : FreeSWITCH → Prop) (m : Handler α) (Q : α → FreeSWITCH → Prop) : Prop :=
  Sat (· ≠ Fault.danglingPointer) P m Q

variable {S : Shape} {p pCall x : ℕ} {k u : String}

/-! ## Operations that leave the maps as they are -/

/-- It leaves the maps, and its result has this property. -/
abbrev Quiet {α : Type} (S : Shape) (m : Handler α) (result : α → Prop) : Prop :=
  Safe (At S) m fun a s => At S s ∧ result a

lemma perform_quiet {effect : Effect} (h : ∀ device call, effect ≠ .withoutConnection device call) :
    Safe (At S) (perform effect) fun _ => At S := by
  refine sat_modify fun s hs => ⟨hs.1, fun device call hmem => ?_, hs.2.pending⟩
  rcases List.mem_append.1 hmem with hmem | hmem
  · exact hs.2.mapped device call hmem
  · exact h device call (List.mem_singleton.1 hmem).symm

lemma get_quiet : Quiet S get (At S) := sat_get fun _ hs => ⟨hs, hs⟩

section Heaps

variable {ω ν : Type} {heap : FreeSWITCH → ℕ → Option ω} {name : ω → ν}
  (field : Shape → ℕ → Option ν)

/-- An object of which the maps know something is there. -/
lemma deref_quiet (hfield : ∀ s p, field s.shape p = (heap s p).map name) {v : ν}
    (h : field S p = some v) : Quiet S (deref heap p) fun object =>
      name object = v ∧ ∃ s : FreeSWITCH, s.shape = S ∧ heap s p = some object := by
  refine sat_bind_of get_quiet fun s ⟨hs, _⟩ => ?_
  subst hs
  rw [hfield] at h
  obtain ⟨object, hobject, hname⟩ := Option.map_eq_some_iff.1 h
  rw [hobject]
  exact sat_pure fun s' hs' => ⟨hs', hname, s, rfl, hobject⟩

/-- The maps know nothing of an object that is new. -/
lemma checkFree_quiet (hfield : ∀ s p, field s.shape p = (heap s p).map name) :
    Quiet S (checkFree heap p) fun _ => field S p = none := by
  refine sat_bind_of get_quiet fun s ⟨hs, _⟩ => ?_
  subst hs
  cases hheap : heap s p with
  | some object => exact sat_throw fun _ _ => by simp
  | none =>
    refine sat_pure fun s' hs' => ⟨hs', ?_⟩
    rw [hfield, hheap, Option.map_none]

end Heaps

lemma device_quiet (hp : S.leftName p = some k) :
    Quiet S (device p) fun object => object.strDevice = k ∧
      ∀ pCall, object.connections.find? pCall = S.link p pCall := by
  refine (deref_quiet CrossLinks.leftName (fun _ _ => rfl) hp).mono (fun _ hs => hs) ?_
  rintro object s ⟨hs, hname, s', rfl, hobject⟩
  refine ⟨hs, hname, fun pCall => ?_⟩
  simp only [FreeSWITCH.shape, hobject, Option.bind_some]

lemma call_quiet (hc : S.rightName pCall = some u) :
    Quiet S (call pCall) fun object => object.strUUID = u ∧
      ∀ k, object.devices.find? k = S.member pCall k := by
  refine (deref_quiet CrossLinks.rightName (fun _ _ => rfl) hc).mono (fun _ hs => hs) ?_
  rintro object s ⟨hs, hname, s', rfl, hobject⟩
  refine ⟨hs, hname, fun k => ?_⟩
  simp only [FreeSWITCH.shape, hobject, Option.bind_some]

lemma connection_quiet (hx : S.target x = some pCall) :
    Quiet S (connection x) fun object => object.pCall = pCall :=
  (deref_quiet CrossLinks.target (fun _ _ => rfl) hx).mono (fun _ hs => hs)
    fun _ _ hs => ⟨hs.1, hs.2.1⟩

lemma setDevice_quiet {object : FreeSwitchDevice} (hp : S.leftName p = some k)
    (hname : object.strDevice = k)
    (hlinks : ∀ pCall, object.connections.find? pCall = S.link p pCall) :
    Safe (At S) (setDevice p object) fun _ => At S := by
  refine sat_modify fun s hs => ?_
  obtain ⟨rfl, hclean⟩ := hs
  have hshape : FreeSWITCH.shape
      { s with devices := Function.update s.devices p (some object) } = s.shape := by
    refine CrossLinks.ext rfl (funext fun q => ?_) rfl rfl (funext₂ fun q pCall => ?_) rfl rfl
    · by_cases hq : q = p
      · subst hq
        simp only [FreeSWITCH.shape, Function.update_self, Option.map_some, hname]
        exact hp.symm
      · simp only [FreeSWITCH.shape, Function.update_of_ne hq]
    · by_cases hq : q = p
      · subst hq
        simp only [FreeSWITCH.shape, Function.update_self, Option.bind_some, hlinks]
      · simp only [FreeSWITCH.shape, Function.update_of_ne hq]
  exact ⟨hshape, hclean.mapped, fun pending hmem => by
    rw [hshape]
    exact hclean.pending pending hmem⟩

lemma setConnection_quiet {object : FreeSwitchConnection} (hx : S.target x = some object.pCall) :
    Safe (At S) (setConnection x object) fun _ => At S := by
  refine sat_modify fun s hs => ?_
  obtain ⟨rfl, hclean⟩ := hs
  refine ⟨CrossLinks.ext rfl rfl rfl rfl rfl rfl (funext fun y => ?_), hclean.mapped,
    hclean.pending⟩
  by_cases hy : y = x
  · subst hy
    simp only [FreeSWITCH.shape, Function.update_self, Option.map_some]
    exact hx.symm
  · simp only [FreeSWITCH.shape, Function.update_of_ne hy]

lemma sendEvent_quiet (event : CSTAEvent) (hp : S.leftName p = some k) :
    Safe (At S) (sendEvent p event) fun _ => At S :=
  sat_bind_of (device_quiet hp) fun _ _ =>
    sat_forM fun _ _ => perform_quiet fun _ _ => by simp

lemma sendIfMonitored_quiet (event : CSTAEvent) (hp : S.leftName p = some k) :
    Safe (At S) (sendIfMonitored p event) fun _ => At S := by
  refine sat_bind_of (device_quiet hp) fun object _ => ?_
  split_ifs
  · exact sat_pure fun _ hs => hs
  · exact sendEvent_quiet event hp

lemma findConnection_quiet (hp : S.leftName p = some k) :
    Quiet S (findConnection p pCall) fun found => found = S.link p pCall :=
  sat_bind_of (device_quiet hp) fun _ hobject => sat_pure fun _ hs => ⟨hs, hobject.2 pCall⟩

lemma searchConnection_quiet {uuid : String} {entries : List (ℕ × ℕ)}
    (h : ∀ entry ∈ entries, ∃ u, S.rightName entry.1 = some u) :
    Quiet S (searchConnection uuid entries) fun found =>
      (∀ x ∈ found, ∃ pCall, (pCall, x) ∈ entries ∧ S.rightName pCall = some uuid) ∧
      (found = none → ∀ entry ∈ entries, S.rightName entry.1 ≠ some uuid) := by
  induction entries with
  | nil => exact sat_pure fun _ hs => ⟨hs, by simp, by simp⟩
  | cons entry rest ih =>
    obtain ⟨pCall, y⟩ := entry
    obtain ⟨u, hu⟩ := h _ List.mem_cons_self
    refine sat_bind_of (call_quiet hu) fun object hobject => ?_
    rw [hobject.1]
    split_ifs with huuid
    · subst huuid
      refine sat_pure fun _ hs => ⟨hs, fun x hx => ⟨pCall, ?_, hu⟩, by simp⟩
      rw [Option.some.inj hx]
      exact List.mem_cons_self
    · refine (ih fun entry hentry => h entry (List.mem_cons_of_mem _ hentry)).mono (fun _ hs => hs)
        fun found s hs => ⟨hs.1, fun x hx => ?_, fun hnone entry hentry => ?_⟩
      · obtain ⟨c, hmem, hc⟩ := hs.2.1 x hx
        exact ⟨c, List.mem_cons_of_mem _ hmem, hc⟩
      · rcases List.mem_cons.1 hentry with rfl | hentry
        · rw [hu]
          exact fun heq => huuid (Option.some.inj heq)
        · exact hs.2.2 hnone entry hentry

/-- A device that is in a call finds its connection to it by the UUID. -/
lemma findConnectionByUUID_quiet (hS : S.Consistent) (hp : S.leftName p = some k)
    (hu : S.rightName pCall = some u) (hx : S.link p pCall = some x) :
    Quiet S (findConnectionByUUID p u) fun found => found = some x := by
  refine sat_bind_of (device_quiet hp) fun object hobject => ?_
  have hentries (entry : ℕ × ℕ) (hmem : entry ∈ object.connections.entries) :
      S.link p entry.1 = some entry.2 :=
    (hobject.2 entry.1).symm.trans (OrderedMap.mem_entries.1 hmem)
  refine (searchConnection_quiet fun entry hmem => ?_).mono (fun _ hs => hs) fun found s hs =>
    ⟨hs.1, ?_⟩
  · obtain ⟨u, hu, -⟩ := hS.right_of_link (hentries entry hmem)
    exact ⟨u, hu⟩
  · obtain ⟨hfound, hnone⟩ := hs.2
    cases hresult : found with
    | none =>
      have hmem : (pCall, x) ∈ object.connections.entries :=
        OrderedMap.mem_entries.2 ((hobject.2 pCall).trans hx)
      exact absurd hu (hnone hresult _ hmem)
    | some y =>
      obtain ⟨c, hmem, hc⟩ := hfound y hresult
      have hsame : c = pCall :=
        Option.some.inj (((hS.right u c).2 hc).symm.trans ((hS.right u pCall).2 hu))
      have hy := hentries _ hmem
      rw [hsame, hx] at hy
      exact hy.symm

lemma findCallerCalled_quiet (uuid : String) (profile : Option CallerProfile) :
    Safe (At S) (findCallerCalled uuid profile) fun _ => At S := by
  cases profile with
  | none =>
    exact sat_bind (perform_quiet fun _ _ => by simp) fun _ => sat_pure fun _ hs => hs
  | some profile =>
    exact sat_bind (perform_quiet fun _ _ => by simp) fun _ =>
      sat_bind (perform_quiet fun _ _ => by simp) fun _ => sat_pure fun _ hs => hs

lemma deviceIdOf_quiet {found : Option ℕ} (h : ∀ p ∈ found, ∃ k, S.leftName p = some k) :
    Safe (At S) (deviceIdOf found) fun _ => At S := by
  cases found with
  | none => exact sat_pure fun _ hs => hs
  | some p =>
    obtain ⟨k, hk⟩ := h p rfl
    exact sat_bind_of (device_quiet hk) fun _ _ => sat_pure fun _ hs => hs

lemma setState_quiet (state : ConnectionState) (hx : S.target x = some pCall) :
    Safe (At S) (setState x state) fun _ => At S :=
  sat_bind_of (connection_quiet hx) fun _ hobject => setConnection_quiet (hobject ▸ hx)

/-! ## Operations that change the maps -/

/-- What is waited for stays there when the devices do. -/
lemma FreeSWITCH.Clean.of_shape {s s' : FreeSWITCH} (h : s.Clean) (heffects : s'.effects = s.effects)
    (hpending : s'.pendingMakeCalls = s.pendingMakeCalls)
    (hdevices : ∀ p k, s.shape.leftName p = some k → ∃ k', s'.shape.leftName p = some k') :
    s'.Clean where
  mapped := by
    rw [heffects]
    exact h.mapped
  pending := by
    rw [hpending]
    intro pending hmem p hp
    obtain ⟨k, hk⟩ := h.pending pending hmem p hp
    exact hdevices p k hk

/-- A new connection is in the device's map, and the device in the call's. -/
lemma addConnection_connects {place : Place} {uuid channel : String} {direction : Direction}
    (hp : S.leftName p = some k) (hc : S.rightName pCall = some u) :
    Safe (At S) (addConnection place p uuid channel pCall direction) fun x s =>
      S.target x = none ∧ At (S.connect p k pCall x) s := by
  refine sat_bind_of (checkFree_quiet CrossLinks.target fun _ _ => rfl) fun _ hx => ?_
  refine sat_bind_of (call_quiet hc) fun callObject hcall => ?_
  refine sat_bind_of (device_quiet hp) fun deviceObject hdevice => ?_
  rintro s ⟨rfl, hclean⟩
  let s' : FreeSWITCH :=
    { s with
      connections := Function.update s.connections place.connection
        (some { pCall, strUUID := uuid, state := .initiated, direction, strChannel := channel })
      calls := Function.update s.calls pCall
        (some { callObject with devices := callObject.devices.insert deviceObject.strDevice p })
      devices := Function.update s.devices p
        (some { deviceObject with
          connections := deviceObject.connections.insert pCall place.connection }) }
  have hnames : s'.shape.leftName = s.shape.leftName := by
    funext q
    by_cases hq : q = p
    · subst hq
      simp only [FreeSWITCH.shape, s', Function.update_self, Option.map_some, hdevice.1]
      exact hp.symm
    · simp only [FreeSWITCH.shape, s', Function.update_of_ne hq]
  have hshape : s'.shape = s.shape.connect p k pCall place.connection := by
    refine CrossLinks.ext rfl hnames rfl (funext fun c => ?_) (funext₂ fun q c => ?_)
      (funext₂ fun c k' => ?_) (funext fun y => ?_)
    · by_cases hcall' : c = pCall
      · subst hcall'
        simp only [FreeSWITCH.shape, s', Function.update_self, Option.map_some, hcall.1]
        exact hc.symm
      · simp only [FreeSWITCH.shape, s', Function.update_of_ne hcall']
        rfl
    · by_cases hq : q = p
      · subst hq
        simp only [FreeSWITCH.shape, s', CrossLinks.connect, Function.update_self,
          Option.bind_some, OrderedMap.find?_insert, true_and, hdevice.2]
      · simp only [FreeSWITCH.shape, s', CrossLinks.connect, Function.update_of_ne hq, hq,
          false_and, if_false]
    · by_cases hcall' : c = pCall
      · subst hcall'
        simp only [FreeSWITCH.shape, s', CrossLinks.connect, Function.update_self,
          Option.bind_some, OrderedMap.find?_insert, true_and, hcall.2, hdevice.1]
      · simp only [FreeSWITCH.shape, s', CrossLinks.connect, Function.update_of_ne hcall', hcall',
          false_and, if_false]
    · by_cases hy : y = place.connection
      · subst hy
        simp only [FreeSWITCH.shape, s', CrossLinks.connect, Function.update_self,
          Option.map_some, if_true]
      · simp only [FreeSWITCH.shape, s', CrossLinks.connect, Function.update_of_ne hy, hy,
          if_false]
  have hclean' : s'.Clean :=
    hclean.of_shape rfl rfl fun q k' hq => ⟨k', (congrFun hnames q).trans hq⟩
  exact ⟨hx, hshape, hclean'⟩

/-- A connection is taken out of both maps and deleted, where there is one. -/
lemma deleteConnection_disconnects (hS : S.Consistent) (hp : S.leftName p = some k)
    (hc : S.rightName pCall = some u) :
    Safe (At S) (deleteConnection p pCall) fun _ s =>
      (S.link p pCall = none ∧ At S s) ∨
        ∃ x, S.link p pCall = some x ∧ At (S.disconnect p k pCall x) s := by
  refine sat_bind_of (device_quiet hp) fun deviceObject hdevice => ?_
  rw [hdevice.2]
  cases hlink : S.link p pCall with
  | none => exact sat_pure fun _ hs => .inl ⟨rfl, hs⟩
  | some x =>
    refine sat_bind_of (connection_quiet (hS.link_target p pCall x hlink)) fun _ _ => ?_
    refine sat_bind_of (call_quiet hc) fun callObject hcall => ?_
    rintro s ⟨rfl, hclean⟩
    let s' : FreeSWITCH :=
      { s with
        connections := Function.update s.connections x none
        devices := Function.update s.devices p
          (some { deviceObject with connections := deviceObject.connections.erase pCall })
        calls := Function.update s.calls pCall
          (some { callObject with
            devices := callObject.devices.erase deviceObject.strDevice }) }
    have hnames : s'.shape.leftName = s.shape.leftName := by
      funext q
      by_cases hq : q = p
      · subst hq
        simp only [FreeSWITCH.shape, s', Function.update_self, Option.map_some, hdevice.1]
        exact hp.symm
      · simp only [FreeSWITCH.shape, s', Function.update_of_ne hq]
    have hshape : s'.shape = s.shape.disconnect p k pCall x := by
      refine CrossLinks.ext rfl hnames rfl (funext fun c => ?_) (funext₂ fun q c => ?_)
        (funext₂ fun c k' => ?_) (funext fun y => ?_)
      · by_cases hcall' : c = pCall
        · subst hcall'
          simp only [FreeSWITCH.shape, s', Function.update_self, Option.map_some, hcall.1]
          exact hc.symm
        · simp only [FreeSWITCH.shape, s', Function.update_of_ne hcall']
          rfl
      · by_cases hq : q = p
        · subst hq
          simp only [FreeSWITCH.shape, s', CrossLinks.disconnect, Function.update_self,
            Option.bind_some, OrderedMap.find?_erase, true_and, hdevice.2]
        · simp only [FreeSWITCH.shape, s', CrossLinks.disconnect, Function.update_of_ne hq, hq,
            false_and, if_false]
      · by_cases hcall' : c = pCall
        · subst hcall'
          simp only [FreeSWITCH.shape, s', CrossLinks.disconnect, Function.update_self,
            Option.bind_some, OrderedMap.find?_erase, true_and, hcall.2, hdevice.1]
        · simp only [FreeSWITCH.shape, s', CrossLinks.disconnect,
            Function.update_of_ne hcall', hcall', false_and, if_false]
      · by_cases hy : y = x
        · subst hy
          simp only [FreeSWITCH.shape, s', CrossLinks.disconnect, Function.update_self,
            Option.map_none, if_true]
        · simp only [FreeSWITCH.shape, s', CrossLinks.disconnect, Function.update_of_ne hy, hy,
            if_false]
    have hclean' : s'.Clean :=
      hclean.of_shape rfl rfl fun q k' hq => ⟨k', (congrFun hnames q).trans hq⟩
    exact .inr ⟨x, rfl, hshape, hclean'⟩

lemma newCall_adds {place : Place} (hS : S.Consistent) (hu : S.rightAt u = none) :
    Safe (At S) (newCall place u) fun c s =>
      S.rightName c = none ∧ At (S.addRight c u) s := by
  refine sat_bind_of (checkFree_quiet CrossLinks.rightName fun _ _ => rfl) fun _ hfree => ?_
  rintro s ⟨rfl, hclean⟩
  let s' : FreeSWITCH :=
    { s with
      calls := Function.update s.calls place.call (some { strUUID := u, devices := .empty })
      callMap := s.callMap.insert u place.call }
  have hshape : s'.shape = s.shape.addRight place.call u := by
    refine CrossLinks.ext rfl rfl (funext fun u' => ?_) (funext fun c => ?_) rfl
      (funext₂ fun c k' => ?_) rfl
    · simp only [FreeSWITCH.shape, s', CrossLinks.addRight, OrderedMap.find?_insert]
      split_ifs <;> rfl
    · by_cases hc : c = place.call
      · subst hc
        simp only [FreeSWITCH.shape, s', CrossLinks.addRight, Function.update_self,
          Option.map_some, if_true]
      · simp only [FreeSWITCH.shape, s', CrossLinks.addRight, Function.update_of_ne hc, hc,
          if_false]
    · by_cases hc : c = place.call
      · subst hc
        simp only [FreeSWITCH.shape, s', CrossLinks.addRight, Function.update_self,
          Option.bind_some, OrderedMap.find?_empty]
        cases hmember : s.shape.member place.call k' with
        | none => exact hmember.symm
        | some p =>
          have hlive := hS.member_live _ _ _ hmember
          rw [hfree] at hlive
          cases hlive
      · simp only [FreeSWITCH.shape, s', CrossLinks.addRight, Function.update_of_ne hc]
  exact ⟨hfree, hshape, hclean.of_shape rfl rfl fun q k' hq => ⟨k', hq⟩⟩

/-- The maps are as they were, but for a device that may be new. -/
def Grows (S S' : Shape) : Prop :=
  S' = S ∨ ∃ p k, S' = S.addLeft p k ∧ S.leftAt k = none ∧ S.leftName p = none

lemma prepareDevice_grows {place : Place} {name : String} {type : DeviceType}
    (hS : S.Consistent) :
    Safe (At S) (prepareDevice place name type) fun p s =>
      ∃ S', Grows S S' ∧ S'.leftName p = some (type2Prefix type ++ name) ∧ At S' s := by
  refine sat_bind_of get_quiet fun s₀ ⟨hs₀, _⟩ => ?_
  subst hs₀
  cases hfound : s₀.deviceMap.find? (type2Prefix type ++ name) with
  | some p =>
    exact sat_pure fun _ hs => ⟨_, .inl rfl, (hS.left _ p).1 hfound, hs⟩
  | none =>
    refine sat_bind_of (checkFree_quiet CrossLinks.leftName fun _ _ => rfl) fun _ hfree => ?_
    rintro s ⟨hs, hclean⟩
    rw [← hs] at hfree hS ⊢
    have hnone : s.shape.leftAt (type2Prefix type ++ name) = none := by
      rw [hs]
      exact hfound
    let s' : FreeSWITCH :=
      { s with
        devices := Function.update s.devices place.device
          (some
            { strDevice := type2Prefix type ++ name
              monitoringSessions := .empty
              deviceType := type
              isMakeCallOriginator := false
              connections := .empty })
        deviceMap := s.deviceMap.insert (type2Prefix type ++ name) place.device }
    have hshape : s'.shape = s.shape.addLeft place.device (type2Prefix type ++ name) := by
      refine CrossLinks.ext (funext fun k' => ?_) (funext fun q => ?_) rfl rfl
        (funext₂ fun q c => ?_) rfl rfl
      · simp only [FreeSWITCH.shape, s', CrossLinks.addLeft, OrderedMap.find?_insert]
        split_ifs <;> rfl
      · by_cases hq : q = place.device
        · subst hq
          simp only [FreeSWITCH.shape, s', CrossLinks.addLeft, Function.update_self,
            Option.map_some, if_true]
        · simp only [FreeSWITCH.shape, s', CrossLinks.addLeft, Function.update_of_ne hq, hq,
            if_false]
      · by_cases hq : q = place.device
        · subst hq
          simp only [FreeSWITCH.shape, s', CrossLinks.addLeft, Function.update_self,
            Option.bind_some, OrderedMap.find?_empty]
          cases hlink : s.shape.link place.device c with
          | none => exact hlink.symm
          | some x =>
            obtain ⟨k', hk'⟩ := (hS.linked _ _).1 (Option.isSome_iff_exists.2 ⟨x, hlink⟩)
            rw [hS.member_name _ _ _ hk'] at hfree
            cases hfree
        · simp only [FreeSWITCH.shape, s', CrossLinks.addLeft, Function.update_of_ne hq]
    have hclean' : s'.Clean := hclean.of_shape rfl rfl fun q k' hq => by
      rw [hshape, CrossLinks.addLeft]
      dsimp only
      split_ifs
      · exact ⟨_, rfl⟩
      · exact ⟨k', hq⟩
    have hname : (s.shape.addLeft place.device (type2Prefix type ++ name)).leftName
        place.device = some (type2Prefix type ++ name) := if_pos rfl
    exact ⟨_, .inr ⟨_, _, rfl, hnone, hfree⟩, hname, hshape, hclean'⟩

/-- A call without devices is dropped, and another one kept. -/
lemma deleteIfEmpty_drops (hS : S.Consistent) (hc : S.rightName pCall = some u) :
    Safe (At S) (deleteIfEmpty pCall) fun _ s =>
      ((∀ k, S.member pCall k = none) ∧ At (S.dropRight pCall u) s) ∨
        (∃ k p, S.member pCall k = some p) ∧ At S s := by
  refine sat_bind_of (call_quiet hc) fun object hobject => ?_
  split_ifs with hempty
  · have hnone : ∀ k, S.member pCall k = none := fun k =>
      (hobject.2 k).symm.trans (OrderedMap.isEmpty_iff.1 hempty k)
    refine sat_modify fun s hs => .inl ⟨hnone, ?_⟩
    obtain ⟨rfl, hclean⟩ := hs
    refine ⟨CrossLinks.ext rfl rfl (funext fun u' => ?_) (funext fun c => ?_) rfl
      (funext₂ fun c k' => ?_) rfl, hclean.of_shape rfl rfl fun q k' hq => ⟨k', hq⟩⟩
    · simp only [FreeSWITCH.shape, CrossLinks.dropRight, OrderedMap.find?_erase, hobject.1]
      split_ifs <;> rfl
    · by_cases hcall : c = pCall
      · subst hcall
        simp only [FreeSWITCH.shape, CrossLinks.dropRight, Function.update_self,
          Option.map_none, if_true]
      · simp only [FreeSWITCH.shape, CrossLinks.dropRight, Function.update_of_ne hcall, hcall,
          if_false]
    · by_cases hcall : c = pCall
      · subst hcall
        simp only [FreeSWITCH.shape, CrossLinks.dropRight, Function.update_self,
          Option.bind_none]
        exact (hnone k').symm
      · simp only [FreeSWITCH.shape, CrossLinks.dropRight, Function.update_of_ne hcall]
  · refine sat_pure fun s hs => .inr ⟨?_, hs⟩
    by_contra hno
    refine hempty (OrderedMap.isEmpty_iff.2 fun k => ?_)
    rw [hobject.2]
    cases hmember : S.member pCall k with
    | none => rfl
    | some p => exact absurd ⟨k, p, hmember⟩ hno

end Csta
