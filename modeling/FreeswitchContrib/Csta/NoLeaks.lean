import FreeswitchContrib.Csta.Handling

/-!
# Runs of `mod_csta_socket`

What the handlers keep holds in every state that a run reaches.

* **`maps_never_dangle`** — the maps of the devices and the calls agree, and what they point to is
  there.
* **`nothing_leaks`** — a run of tidy steps leaves no call without a device and no connection
  outside of the maps.
-/

namespace Csta

open Faulting

/-- Every step of the run is tidy in the state in which it is made. -/
def TidyRun : FreeSWITCH → List (Place × Action) → Prop
  | _, [] => True
  | s, (place, action) :: actions =>
    action.Tidy s.shape ∧
      ∀ s', (handle place action).run s = .ok ((), s') → TidyRun s' actions

/-- The maps agree, and everything in the map of a device is a call that is found by its UUID. -/
structure FreeSWITCH.Mapped (s : FreeSWITCH) : Prop where
  linked : ∀ p pCall device call, s.devices p = some device → s.calls pCall = some call →
    ((device.connections.find? pCall).isSome ↔ call.devices.find? device.strDevice = some p)
  live : ∀ p device pCall pConnection, s.devices p = some device →
    device.connections.find? pCall = some pConnection →
      ∃ call, s.calls pCall = some call ∧ s.callMap.find? call.strUUID = some pCall

/-- Every call has a device, and every connection is in the map of one. -/
structure FreeSWITCH.NoLeaks (s : FreeSWITCH) : Prop where
  calls : ∀ uuid pCall, s.callMap.find? uuid = some pCall →
    ∃ call, s.calls pCall = some call ∧ ∃ id p, call.devices.find? id = some p
  connections : ∀ pConnection connection, s.connections pConnection = some connection →
    ∃ p device, s.devices p = some device ∧
      device.connections.find? connection.pCall = some pConnection

variable {strict : Prop} {s : FreeSWITCH}

lemma FreeSWITCH.mapped_of_consistent (hS : s.shape.Consistent) : s.Mapped where
  linked p pCall device call hdevice hcall := by
    have hp : s.shape.leftName p = some device.strDevice := by
      simp only [FreeSWITCH.shape, hdevice, Option.map_some]
    have hiff := hS.link_isSome_iff (b := pCall) hp
    simpa only [FreeSWITCH.shape, hdevice, hcall, Option.bind_some] using hiff
  live p device pCall pConnection hdevice hconnection := by
    have hlink : s.shape.link p pCall = some pConnection := by
      simp only [FreeSWITCH.shape, hdevice, Option.bind_some, hconnection]
    obtain ⟨u, hname, hat⟩ := hS.right_of_link hlink
    obtain ⟨call, hcall, rfl⟩ := Option.map_eq_some_iff.1 hname
    exact ⟨call, hcall, hat⟩

lemma FreeSWITCH.noLeaks_of_sound (hS : Sound True ∅ s.shape) : s.NoLeaks where
  calls uuid pCall hfind := by
    have hname : s.shape.rightName pCall = some uuid :=
      (hS.consistent.right uuid pCall).1 hfind
    obtain ⟨id, p, hmember⟩ := hS.populated trivial pCall uuid (Set.notMem_empty _) hname
    obtain ⟨call, hcall, -⟩ := Option.map_eq_some_iff.1 hname
    refine ⟨call, hcall, id, p, ?_⟩
    simpa only [FreeSWITCH.shape, hcall, Option.bind_some] using hmember
  connections pConnection connection hconnection := by
    have htarget : s.shape.target pConnection = some connection.pCall := by
      simp only [FreeSWITCH.shape, hconnection, Option.map_some]
    obtain ⟨p, hlink⟩ := hS.held trivial _ _ htarget
    obtain ⟨device, hdevice, hfind⟩ := Option.bind_eq_some_iff.1 hlink
    exact ⟨p, device, hdevice, hfind⟩

lemma kept_init : Kept strict .init := by
  refine ⟨⟨nofun, nofun⟩, ⟨?_, ?_, ?_⟩⟩
  · constructor <;> simp [FreeSWITCH.shape, FreeSWITCH.init, OrderedMap.find?_empty]
  · intro _ pCall u _ hname
    cases hname
  · intro _ x pCall htarget
    cases htarget

/-- A run keeps what each of its steps keeps. -/
lemma run_keeps (strict : Prop) (actions : List (Place × Action)) (hs : Kept strict s)
    (htidy : strict → TidyRun s actions) :
    match run s actions with
    | .ok s' => Kept strict s'
    | .error fault => fault ≠ .danglingPointer := by
  induction actions generalizing s with
  | nil => exact hs
  | cons step actions ih =>
    obtain ⟨place, action⟩ := step
    have hstep : Safe (At s.shape) (handle place action) fun _ => Kept strict :=
      handle_keeps hs.2 fun hstrict => (htidy hstrict).1
    rw [run]
    cases hrun : (handle place action).run s with
    | error fault => exact hstep.error ⟨rfl, hs.1⟩ hrun
    | ok result =>
      exact ih (hstep.ok ⟨rfl, hs.1⟩ hrun) fun hstrict => (htidy hstrict).2 result.2 hrun

/-- Whatever the steps are. -/
lemma kept_of_run {actions : List (Place × Action)} (h : run .init actions = .ok s) :
    Kept False s := by
  have hkept := run_keeps False actions kept_init False.elim
  rw [h] at hkept
  exact hkept

/-- **A run** keeps what every step keeps. -/
theorem run_invariant {I : FreeSWITCH → Prop} {actions : List (Place × Action)} {s' : FreeSWITCH}
    (hstep : ∀ {s s' : FreeSWITCH} {place : Place} {action : Action}, Kept False s → I s →
      (handle place action).run s = .ok ((), s') → I s')
    (hs : Kept False s) (hI : I s) (h : run s actions = .ok s') : I s' := by
  induction actions generalizing s with
  | nil =>
    cases h
    exact hI
  | cons step actions ih =>
    obtain ⟨place, action⟩ := step
    rw [run] at h
    cases hrun : (handle place action).run s with
    | error fault =>
      rw [hrun] at h
      cases h
    | ok result =>
      rw [hrun] at h
      have hsafe : Safe (At s.shape) (handle place action) fun _ => Kept False :=
        handle_keeps hs.2 False.elim
      exact ih (hsafe.ok ⟨rfl, hs.1⟩ hrun) (hstep hs hI hrun) h

/-- **No map dangles**: in every state that is reached the maps of the devices and the calls agree
and point to what is there, and no handler has found a device mapped to a call without connection.
No handler follows a pointer to what is no longer there. -/
theorem maps_never_dangle (actions : List (Place × Action)) :
    match run .init actions with
    | .ok s => s.Mapped ∧ ∀ device call, Effect.withoutConnection device call ∉ s.effects
    | .error fault => fault ≠ .danglingPointer := by
  have hkept := run_keeps False actions kept_init False.elim
  cases hrun : run .init actions with
  | error fault =>
    rw [hrun] at hkept
    exact hkept
  | ok s =>
    rw [hrun] at hkept
    exact ⟨FreeSWITCH.mapped_of_consistent hkept.2.consistent, hkept.1.mapped⟩

/-- **Nothing leaks** in a run of tidy steps. -/
theorem nothing_leaks {actions : List (Place × Action)} (htidy : TidyRun .init actions)
    (h : run .init actions = .ok s) : s.NoLeaks := by
  have hkept := run_keeps True actions kept_init fun _ => htidy
  rw [h] at hkept
  exact FreeSWITCH.noLeaks_of_sound hkept.2

/-- The headers of an event of a leg. -/
def legEvent (channel uuid otherLeg : String) : Event where
  executeComplete := false
  getHeader name :=
    if name = "Channel-Name" then some channel
    else if name = "Unique-ID" then some uuid
    else if name = "Other-Leg-Unique-ID" then some otherLeg
    else if name = "Call-Direction" then some "inbound"
    else if name = "Hangup-Cause" then some "NORMAL_CLEARING"
    else none

/-- One subscriber calls another one. -/
def twoLegs : List (Place × Action) :=
  [(⟨0, 0, 0⟩, .channelCreate (legEvent "sofia/internal/100@pbx" "a" "")),
    (⟨1, 1, 1⟩, .progress (legEvent "sofia/internal/200@pbx" "b" "a") none)]

theorem nothing_leaks_twoLegs : ∃ s, run .init twoLegs = .ok s ∧ s.NoLeaks := by
  have htidy : TidyRun .init twoLegs := by
    refine ⟨trivial, fun s _ => ⟨?_, fun _ _ => trivial⟩⟩
    intro channel uuid uuid2 hleg
    cases hleg
    exact .inr ⟨by decide, by decide⟩
  exact ⟨_, rfl, nothing_leaks htidy rfl⟩

/-- A call that is answered outside is made before its device is looked for, and none is found. -/
theorem answered_outside_leaks :
    ¬ ∀ (actions : List (Place × Action)) (s : FreeSWITCH),
      run .init actions = .ok s → s.NoLeaks := by
  intro h
  have hleaks :=
    h [(⟨0, 0, 0⟩, .channelAnswer (legEvent "sofia/external/alice" "a" "") none)] _ rfl
  obtain ⟨call, hcall, id, p, hfind⟩ := hleaks.calls "a" 0 (by decide)
  cases hcall
  cases hfind

end Csta
