import FreeswitchContrib.FsClient.Call

/-!
# The list of calls is consistent

A call is live or it is over, and its state says which.  All handlers look for calls that have not
ended and hand them to `UpdateCallState`, together with the call that is to be active.

* `Consistent` — the flag and the state of each call agree, and the active call is a live call of
  the list.
* `Pending` — what holds while a handler is about to set the state of a call: it is a live call of
  the list, possibly a new one that has no state yet.
* `Follows` — what an event may do: a call that is over stays as it is.
* **`run_consistent`** — every run keeps the list consistent.
-/

namespace FreeswitchContrib.FsClient

open Interleaving

/-- The states of a call that has not ended. -/
def CallState.Live (state : CallState) : Prop :=
  state = .answered ∨ state = .ringing ∨ state = .hold ∨ state = .holdRinging

instance (state : CallState) : Decidable state.Live :=
  inferInstanceAs (Decidable (_ ∨ _))

/-- A call of the list that has not ended. -/
def State.Going (s : State) (call : Ref) : Prop :=
  call ∈ s.calls ∧ (s.object call).callEnded = false

/-- The flag of a call says what its state says. -/
def Call.Agrees (c : Call) : Prop := c.callEnded = true ↔ ¬ c.state.Live

structure Consistent (s : State) : Prop where
  made : ∀ call ∈ s.calls, call < s.made
  fresh : ∀ call, s.made ≤ call → (s.object call).callEnded = false
  agrees : ∀ call < s.made, (s.object call).Agrees
  active : ∀ call ∈ s.activeCall, s.Going call

/-- A handler has found or made this call and is about to set its state. -/
structure Pending (s : State) (call : Ref) : Prop where
  made : ∀ call ∈ s.calls, call < s.made
  fresh : ∀ call, s.made ≤ call → (s.object call).callEnded = false
  agrees : ∀ other < s.made, other ≠ call → (s.object other).Agrees
  active : ∀ call ∈ s.activeCall, s.Going call
  going : s.Going call

/-- The state after an event, and that no call has come back. -/
structure Follows (s s' : State) : Prop where
  consistent : Consistent s'
  past : ∀ call, (s.object call).callEnded = true →
    (s'.object call).state = (s.object call).state ∧ (s'.object call).callEnded = true

variable {around : Surroundings} {s s' s₁ : State} {evt : FSEvent} {uuid : Option Text} {call : Ref}
  {newState : CallState} {c : Call}

lemma consistent_init : Consistent State.init where
  made := by simp [State.init]
  fresh _ _ := rfl
  agrees call hcall := absurd hcall (Nat.not_lt_zero call)
  active := by simp [State.init]

lemma Consistent.follows (h : Consistent s) : Follows s s := ⟨h, fun _ hended => ⟨rfl, hended⟩⟩

lemma Follows.trans (h : Follows s s₁) (h' : Follows s₁ s') : Follows s s' where
  consistent := h'.consistent
  past call hended :=
    have h₁ := h.past call hended
    have h₂ := h'.past call h₁.2
    ⟨h₂.1.trans h₁.1, h₂.2⟩

lemma Consistent.pending (h : Consistent s) (hgoing : s.Going call) : Pending s call where
  made := h.made
  fresh := h.fresh
  agrees other hother _ := h.agrees other hother
  active := h.active
  going := hgoing

/-! ## Objects -/

/-- An event that leaves the list, the active call, and the state of every call. -/
lemma Consistent.follows_of_eq (h : Consistent s) (hmade : s'.made = s.made)
    (hcalls : s'.calls = s.calls) (hactive : s'.activeCall = s.activeCall)
    (hstate : ∀ call, (s'.object call).state = (s.object call).state)
    (hended : ∀ call, (s'.object call).callEnded = (s.object call).callEnded) : Follows s s' where
  consistent := {
    made := by
      rw [hcalls, hmade]
      exact h.made
    fresh := fun call hcall => by
      rw [hended]
      exact h.fresh call (hmade ▸ hcall)
    agrees := fun call hcall => by
      rw [Call.Agrees, hended, hstate]
      exact h.agrees call (hmade ▸ hcall)
    active := fun call hcall => by
      rw [State.Going, hcalls, hended]
      exact h.active call (hactive ▸ hcall) }
  past call h' := ⟨hstate call, (hended call).trans h'⟩

/-- Another note or another leg does not make another state. -/
lemma Consistent.follows_setCall (h : Consistent s) (hstate : c.state = (s.object call).state)
    (hended : c.callEnded = (s.object call).callEnded) : Follows s (s.setCall call c) := by
  have hobject : ∀ other, ((s.setCall call c).object other).state = (s.object other).state ∧
      ((s.setCall call c).object other).callEnded = (s.object other).callEnded := by
    intro other
    rw [State.setCall]
    by_cases hother : other = call
    · subst hother
      simp only [Function.update_self]
      exact ⟨hstate, hended⟩
    · simp only [Function.update_of_ne hother, and_self]
  exact h.follows_of_eq rfl rfl rfl (fun other => (hobject other).1) (fun other => (hobject other).2)

/-- A new call of the list is pending. -/
lemma Consistent.addCall (h : Consistent s) (hended : c.callEnded = false) :
    Pending (s.addCall c) s.made := by
  have hold : ∀ other, other ≠ s.made → (s.addCall c).object other = s.object other :=
    fun other hne => Function.update_of_ne hne ..
  have hnew : (s.addCall c).object s.made = c := Function.update_self ..
  refine ⟨?_, ?_, ?_, ?_, ?_⟩
  · intro other hother
    rcases List.mem_append.mp hother with hother | hother
    · exact Nat.lt_succ_of_lt (h.made other hother)
    · rw [List.mem_singleton.mp hother]
      exact Nat.lt_succ_self _
  · intro other hother
    have hother : s.made + 1 ≤ other := hother
    rw [hold other (by omega)]
    exact h.fresh other (by omega)
  · intro other hother hne
    have hother : other < s.made + 1 := hother
    rw [hold other hne]
    exact h.agrees other (by omega)
  · intro other hother
    have hgoing := h.active other hother
    refine ⟨List.mem_append_left _ hgoing.1, ?_⟩
    rw [hold other (Nat.ne_of_lt (h.made other hgoing.1))]
    exact hgoing.2
  · refine ⟨List.mem_append_right _ (List.mem_singleton_self _), ?_⟩
    rw [hnew]
    exact hended

/-- Adding a call changes no other. -/
lemma Consistent.over_addCall (h : Consistent s) (c : Call) (other : Ref)
    (hended : (s.object other).callEnded = true) :
    (s.addCall c).object other = s.object other := by
  refine Function.update_of_ne (fun heq => ?_) ..
  rw [heq, h.fresh _ le_rfl] at hended
  exact Bool.noConfusion hended

/-! ## The transition -/

@[simp] lemma toState_state (c : Call) (newState : CallState) :
    (c.toState newState).state = newState := rfl

lemma agrees_toState (hended : c.callEnded = false) : (c.toState newState).Agrees := by
  rw [Call.Agrees, toState_state, Call.toState, CallState.Live]
  simp only [hended, and_true]
  split_ifs with hset
  · simp [hset]
  · simp only [false_iff, not_not]
    tauto

/-- **The transition.**  A live call gets its state, and the call that is to be active is live. -/
theorem Pending.follows (h : Pending s call) {newActiveCall : Option Ref}
    (hactive : ∀ other ∈ newActiveCall, s.Going other ∧ (other = call → newState.Live))
    (hupdate : updateCallState around s call newState newActiveCall = some s') : Follows s s' := by
  rw [updateCallState] at hupdate
  split_ifs at hupdate
  obtain rfl := Option.some.inj hupdate
  have hcall : Function.update s.object call ((s.object call).toState newState) call
      = (s.object call).toState newState := Function.update_self ..
  have hother : ∀ other, other ≠ call →
      Function.update s.object call ((s.object call).toState newState) other = s.object other :=
    fun other hne => Function.update_of_ne hne ..
  have hagrees : ((s.object call).toState newState).Agrees := agrees_toState h.going.2
  refine ⟨⟨h.made, fun other hmade => ?_, fun other hmade => ?_, fun other hmem => ?_⟩,
    fun other hended => ?_⟩
  · have hne : other ≠ call := fun heq =>
      absurd (h.made call h.going.1) (Nat.not_lt.mpr (heq ▸ hmade))
    exact (congrArg Call.callEnded (hother other hne)).trans (h.fresh other hmade)
  · by_cases hne : other = call
    · show Call.Agrees (Function.update s.object call _ other)
      rw [hne, hcall]
      exact hagrees
    · show Call.Agrees (Function.update s.object call _ other)
      rw [hother other hne]
      exact h.agrees other hmade hne
  · refine ⟨(hactive other hmem).1.1, ?_⟩
    show (Function.update s.object call _ other).callEnded = false
    by_cases hne : other = call
    · rw [hne, hcall]
      have hlive : newState.Live := (hactive other hmem).2 hne
      exact Bool.eq_false_iff.mpr fun hended => hagrees.mp hended hlive
    · rw [hother other hne]
      exact (hactive other hmem).1.2
  · have hne : other ≠ call := by
      rintro rfl
      rw [h.going.2] at hended
      exact Bool.noConfusion hended
    show (Function.update s.object call _ other).state = _ ∧
      (Function.update s.object call _ other).callEnded = true
    rw [hother other hne]
    exact ⟨rfl, hended⟩

/-- A new call gets its first state. -/
lemma Consistent.follows_addCall (h : Consistent s) (hended : c.callEnded = false)
    {newActiveCall : Option Ref} (hlive : newState.Live)
    (hactive : ∀ other ∈ newActiveCall, other = s.made ∨ other ∈ s.activeCall)
    (hupdate : updateCallState around (s.addCall c) s.made newState newActiveCall = some s') :
    Follows s s' := by
  have hpending := h.addCall hended
  have hfollows := hpending.follows (fun other hother => ⟨?_, fun _ => hlive⟩) hupdate
  · refine ⟨hfollows.consistent, fun other hover => ?_⟩
    have heq := h.over_addCall c other hover
    have hover' := hfollows.past other (by rw [heq]; exact hover)
    rw [heq] at hover'
    exact hover'
  · rcases hactive other hother with rfl | hother
    · exact hpending.going
    · exact hpending.active other hother

/-! ## Finding a call -/

lemma eq_of_singleOrDefault {α : Type} {l : List α} {a : α}
    (h : singleOrDefault l = some (some a)) : l = [a] := by
  match l with
  | [] => simp [singleOrDefault] at h
  | [b] =>
    rw [singleOrDefault] at h
    rw [Option.some.inj (Option.some.inj h)]
  | _ :: _ :: _ => simp [singleOrDefault] at h

lemma mem_of_findCall {p : Call → Prop} [DecidablePred p] (h : s.findCall p = some (some call)) :
    call ∈ s.calls ∧ p (s.object call) := by
  have hmem : call ∈ s.calls.filter fun call => p (s.object call) := by
    rw [eq_of_singleOrDefault h]
    exact List.mem_singleton_self call
  rw [List.mem_filter, decide_eq_true_iff] at hmem
  exact hmem

/-- The call that becomes active at a hang-up is another one. -/
lemma Consistent.going_nextActiveCall (h : Consistent s) {other : Ref}
    (hother : other ∈ s.nextActiveCall call) : s.Going other ∧ other ≠ call := by
  rw [State.nextActiveCall] at hother
  split_ifs at hother with hactive
  · refine ⟨h.active other hother, ?_⟩
    rintro rfl
    exact hactive hother
  · have hmem := List.mem_of_find?_eq_some hother
    have hring := List.find?_some hother
    rw [decide_eq_true_iff] at hring
    refine ⟨⟨hmem, Bool.eq_false_iff.mpr fun hended => ?_⟩, hring.2.2⟩
    exact (h.agrees other (h.made other hmem)).mp hended (.inr (.inl hring.1))

/-! ## New calls -/

lemma callEnded_setCallInfoFromEvent {c c' : Call}
    (h : c.setCallInfoFromEvent around evt = some c') : c'.callEnded = c.callEnded := by
  obtain ⟨c₁, h₁, h⟩ := Option.bind_eq_some_iff.mp h
  have hparty : c₁.callEnded = c.callEnded := by
    rw [Call.setParty] at h₁
    split_ifs at h₁
    · obtain ⟨destination, -, h₁⟩ := Option.bind_eq_some_iff.mp h₁
      unfold Call.setDestination at h₁
      dsimp only at h₁
      split at h₁
      · rw [← Option.some.inj h₁]
      · obtain ⟨account, -, h₁⟩ := Option.bind_eq_some_iff.mp h₁
        rw [← Option.some.inj h₁]
    · rw [← Option.some.inj h₁]
  have hname : ∀ c₂ : Call, c₂.setPortaudioId evt = some c' → c'.callEnded = c₂.callEnded := by
    intro c₂ h
    unfold Call.setPortaudioId at h
    split at h
    · rw [Option.some.inj h]
    · rw [Option.some.inj h]
    · obtain ⟨id, -, rfl⟩ := Option.map_eq_some_iff.mp h
      rfl
  rw [hname _ h, ← hparty]
  split_ifs <;> rfl

lemma callEnded_incomingCall (h : incomingCall around s evt = some c) : c.callEnded = false := by
  obtain ⟨c₁, h₁, h⟩ := Option.bind_eq_some_iff.mp h
  obtain ⟨account, -, h⟩ := Option.bind_eq_some_iff.mp h
  rw [← Option.some.inj h]
  exact callEnded_setCallInfoFromEvent h₁

/-! ## Handlers -/

lemma handleOutgoingEvent_follows (h : Consistent s)
    (hevent : handleOutgoingEvent s evt uuid = some s') : Follows s s' := by
  obtain ⟨found, -, hevent⟩ := Option.bind_eq_some_iff.mp hevent
  cases found with
  | none => exact Option.some.inj hevent ▸ h.follows
  | some call =>
    dsimp only at hevent
    split_ifs at hevent
    · exact Option.some.inj hevent ▸ h.follows_setCall rfl rfl
    · exact Option.some.inj hevent ▸ h.follows

lemma setHangupNote_eq (c : Call) (evt : FSEvent) :
    (c.setHangupNote evt).state = c.state ∧ (c.setHangupNote evt).callEnded = c.callEnded := by
  rw [Call.setHangupNote]
  split_ifs <;> exact ⟨rfl, rfl⟩

lemma handleHangupCompleteEvent_follows (h : Consistent s)
    (hevent : handleHangupCompleteEvent around s evt uuid = some s') : Follows s s' := by
  obtain ⟨found, hfound, hevent⟩ := Option.bind_eq_some_iff.mp hevent
  cases found with
  | none => exact Option.some.inj hevent ▸ h.follows
  | some call =>
    obtain ⟨hmem, hended, -⟩ := mem_of_findCall hfound
    dsimp only at hevent
    split_ifs at hevent
    have hnote := h.follows_setCall (setHangupNote_eq (s.object call) evt).1
      (setHangupNote_eq (s.object call) evt).2
    have hgoing : (s.setCall call ((s.object call).setHangupNote evt)).Going call := by
      refine ⟨hmem, ?_⟩
      rw [State.setCall]
      simp only [Function.update_self]
      exact (setHangupNote_eq _ evt).2.trans hended
    refine hnote.trans ((hnote.consistent.pending hgoing).follows (fun other hother => ?_) hevent)
    have hnext := hnote.consistent.going_nextActiveCall hother
    exact ⟨hnext.1, fun heq => absurd heq hnext.2⟩

lemma handleChannelCreateEvent_follows (h : Consistent s)
    (hevent : handleChannelCreateEvent s evt uuid = some s') : Follows s s' := by
  obtain ⟨uuid, -, hevent⟩ := Option.bind_eq_some_iff.mp hevent
  rw [← Option.some.inj hevent]
  exact h.follows_of_eq rfl rfl rfl (fun _ => rfl) (fun _ => rfl)

lemma handleRinging_follows (h : Consistent s)
    (hevent : handleRinging around s evt uuid = some s') : Follows s s' := by
  rw [handleRinging] at hevent
  split_ifs at hevent
  · exact Option.some.inj hevent ▸ h.follows
  · obtain ⟨c, hc, hevent⟩ := Option.bind_eq_some_iff.mp hevent
    refine h.follows_addCall (callEnded_incomingCall hc) (.inr (.inl rfl)) (fun other hother => ?_)
      hevent
    rcases Option.or_eq_some_iff.mp hother with hactive | ⟨-, hnew⟩
    · exact .inr hactive
    · exact .inl (Option.some.inj hnew).symm

lemma handleMakecall_follows (h : Consistent s) (hevent : handleMakecall around s evt = some s') :
    Follows s s' := by
  rw [handleMakecall] at hevent
  split_ifs at hevent
  · exact Option.some.inj hevent ▸ h.follows
  · obtain ⟨c, hc, hevent⟩ := Option.bind_eq_some_iff.mp hevent
    dsimp only at hevent
    refine h.follows_addCall ?_ ?_ (fun other hother => .inl (Option.some.inj hother).symm) hevent
    · exact callEnded_setCallInfoFromEvent hc
    · split_ifs
      · exact .inl rfl
      · exact .inr (.inl rfl)

lemma handleHeldOrResumed_follows {resumed : Bool} (h : Consistent s)
    (hevent : handleHeldOrResumed around s evt resumed = some s') : Follows s s' := by
  unfold handleHeldOrResumed at hevent
  split at hevent
  · exact Option.some.inj hevent ▸ h.follows
  · exact Option.some.inj hevent ▸ h.follows
  · obtain ⟨id, -, hevent⟩ := Option.bind_eq_some_iff.mp hevent
    obtain ⟨found, hfound, hevent⟩ := Option.bind_eq_some_iff.mp hevent
    cases found with
    | none => exact Option.some.inj hevent ▸ h.follows
    | some call =>
      obtain ⟨hmem, -, hended⟩ := mem_of_findCall hfound
      have hpending := h.pending ⟨hmem, hended⟩
      dsimp only at hevent
      split_ifs at hevent with hresumed hring hactive hactive
      · refine hpending.follows (fun other hother => ?_) hevent
        rw [← Option.some.inj hother]
        exact ⟨hpending.going, fun _ => .inl rfl⟩
      · exact hpending.follows (fun other hother => absurd hother (by simp)) hevent
      · exact hpending.follows (fun other hother => ⟨h.active other hother,
          fun _ => .inr (.inr (.inr rfl))⟩) hevent
      · exact hpending.follows (fun other hother => absurd hother (by simp)) hevent
      · exact hpending.follows (fun other hother => ⟨h.active other hother,
          fun _ => .inr (.inr (.inl rfl))⟩) hevent

lemma handleCustomEvent_follows (h : Consistent s)
    (hevent : handleCustomEvent around s evt uuid = some s') : Follows s s' := by
  rw [handleCustomEvent] at hevent
  split_ifs at hevent
  · exact handleRinging_follows h hevent
  · exact handleMakecall_follows h hevent
  · exact handleHeldOrResumed_follows h hevent
  · exact handleHeldOrResumed_follows h hevent
  · exact Option.some.inj hevent ▸ h.follows

lemma callAnswered_follows (h : Consistent s) (hgoing : s.Going call)
    (hevent : callAnswered around s call = some s') : Follows s s' := by
  have hpending := h.pending hgoing
  unfold callAnswered at hevent
  dsimp only at hevent
  split_ifs at hevent with _ _ hoption
  · exact Option.some.inj hevent ▸ h.follows
  · exact hpending.follows (fun other hother => ⟨h.active other hother, fun _ => .inl rfl⟩) hevent
  · refine hpending.follows (fun other hother => ?_) hevent
    rw [← Option.some.inj hother]
    exact ⟨hgoing, fun _ => .inl rfl⟩
  · exact hpending.follows (fun other hother => ⟨h.active other hother,
      fun _ => .inr (.inr (.inl rfl))⟩) hevent

lemma handleChannelAnswerEvent_follows (h : Consistent s)
    (hevent : handleChannelAnswerEvent around s evt uuid = some s') : Follows s s' := by
  obtain ⟨found, hfound, hevent⟩ := Option.bind_eq_some_iff.mp hevent
  cases found with
  | some call =>
    obtain ⟨hmem, -, hended⟩ := mem_of_findCall hfound
    exact callAnswered_follows h ⟨hmem, hended⟩ hevent
  | none =>
    dsimp only at hevent
    split_ifs at hevent
    · exact Option.some.inj hevent ▸ h.follows
    · obtain ⟨c, hc, hevent⟩ := Option.bind_eq_some_iff.mp hevent
      obtain ⟨s₁, hring, hevent⟩ := Option.bind_eq_some_iff.mp hevent
      have hfollows := h.follows_addCall (callEnded_incomingCall hc) (.inr (.inl rfl))
        (fun other hother => .inl (Option.some.inj hother).symm) hring
      -- the new call has been made the active one
      have hactive : s₁.activeCall = some s.made := by
        rw [updateCallState] at hring
        split_ifs at hring
        rw [← Option.some.inj hring]
      exact hfollows.trans
        (callAnswered_follows hfollows.consistent (hfollows.consistent.active _ hactive) hevent)

lemma handleDTMFEvent_eq (hevent : handleDTMFEvent s evt uuid = some s') : s' = s := by
  obtain ⟨found, -, hevent⟩ := Option.bind_eq_some_iff.mp hevent
  cases found with
  | none => exact (Option.some.inj hevent).symm
  | some call =>
    dsimp only at hevent
    split_ifs at hevent
    exact (Option.some.inj hevent).symm

lemma newFSEvent_follows (h : Consistent s) (hevent : newFSEvent around s evt = some s') :
    Follows s s' := by
  unfold newFSEvent at hevent
  dsimp only at hevent
  split at hevent
  · exact handleChannelCreateEvent_follows h hevent
  · exact handleOutgoingEvent_follows h hevent
  · exact handleHangupCompleteEvent_follows h hevent
  · exact handleChannelAnswerEvent_follows h hevent
  · exact handleCustomEvent_follows h hevent
  · obtain ⟨uuid, -, rfl⟩ := Option.map_eq_some_iff.mp hevent
    exact h.follows_of_eq rfl rfl rfl (fun _ => rfl) (fun _ => rfl)
  · exact handleDTMFEvent_eq hevent ▸ h.follows
  · exact Option.some.inj hevent ▸ h.follows

/-! ## The history -/

/-- Only a call that has ended is removed, so that the active call stays in the list. -/
lemma removeCallFromHistory_follows (h : Consistent s) (call : Ref) :
    Follows s (removeCallFromHistory s call) := by
  rw [removeCallFromHistory]
  split_ifs with hended
  · refine ⟨⟨fun other hother => h.made other (List.mem_of_mem_erase hother), h.fresh, h.agrees,
      fun other hother => ?_⟩, fun _ hover => ⟨rfl, hover⟩⟩
    have hgoing := h.active other hother
    refine ⟨(List.mem_erase_of_ne ?_).mpr hgoing.1, hgoing.2⟩
    rintro rfl
    rw [hgoing.2] at hended
    exact Bool.noConfusion hended.1
  · exact h.follows

lemma foldl_removeCallFromHistory_follows (calls : List Ref) :
    ∀ {s : State}, Consistent s → Follows s (calls.foldl removeCallFromHistory s) := by
  induction calls with
  | nil => exact fun h => h.follows
  | cons call calls ih =>
    intro s h
    have hremove := removeCallFromHistory_follows h call
    exact hremove.trans (ih hremove.consistent)

/-! ## Runs -/

/-- **What an action does.**  The list stays consistent, and a call that is over stays over. -/
theorem next_follows (h : Consistent s) {a : Action} (hnext : next s a = some s') :
    Follows s s' := by
  cases a with
  | event around evt => exact newFSEvent_follows h hnext
  | removeCallFromHistory call =>
    rw [← Option.some.inj hnext]
    exact removeCallFromHistory_follows h call
  | clearCallsFromHistory =>
    rw [← Option.some.inj hnext]
    exact foldl_removeCallFromHistory_follows s.calls h

variable {as bs : List Action}

lemma run_follows (h : Consistent s) (hrun : run next s as = some s') : Follows s s' :=
  run_invariant (fun _ _ _ hI hnext => hI.trans (next_follows hI.consistent hnext)) h.follows hrun

/-- **The list of calls is consistent in every run.**  As long as no handler throws, a call has
ended exactly when its state is none of the live ones, a call that has ended is in the same state
ever after, and the active call is one of the list that has not ended. -/
theorem run_consistent (hrun : run next State.init as = some s) :
    (∀ call ∈ s.calls, (s.object call).callEnded = true ↔
      (s.object call).state ∉ [CallState.answered, .ringing, .hold, .holdRinging]) ∧
    (∀ bs s', run next s bs = some s' → ∀ call, (s.object call).callEnded = true →
      (s'.object call).state = (s.object call).state) ∧
    (∀ call ∈ s.activeCall, call ∈ s.calls ∧ (s.object call).callEnded = false) := by
  have h : Consistent s := (run_follows consistent_init hrun).consistent
  refine ⟨fun call hcall => ?_, fun bs s' hrun' call hended => ?_, h.active⟩
  · rw [show (s.object call).state ∉ [CallState.answered, .ringing, .hold, .holdRinging] ↔
      ¬ (s.object call).state.Live by simp [CallState.Live]]
    exact h.agrees call (h.made call hcall)
  · exact ((run_follows h hrun').past call hended).1

section

/-- An event with these headers. -/
private def eventOf (eventId : EventId) (subclassName : Option String)
    (headers : List (String × String)) : Action :=
  .event ⟨[], true⟩ ⟨eventId, subclassName.map String.toList, fun name =>
    (headers.find? fun header => header.1.toList = name).map fun header => header.2.toList⟩

/-- A call is held while it rings, so that a second call becomes the active one; the first is
answered and hangs up. -/
private def heldWhileRinging : List Action := [
  eventOf .custom "portaudio::makecall" [("Unique-ID", "a"), ("variable_pa_call_id", " 7"),
    ("Caller-Destination-Number", "{x=y}sofia/gateway/2/555")],
  eventOf .channelOutgoing none [("Unique-ID", "b"), ("Other-Leg-Unique-ID", "a")],
  eventOf .custom "portaudio::callheld" [("variable_pa_call_id", "7")],
  eventOf .custom "portaudio::ringing" [("Unique-ID", "c"), ("Other-Leg-Unique-ID", "d")],
  eventOf .channelAnswer none [("Unique-ID", "b")],
  eventOf .channelHangupComplete none [("Unique-ID", "a")],
  .clearCallsFromHistory]

theorem run_consistent_heldWhileRinging : ∃ s, run next State.init heldWhileRinging = some s ∧
    s.calls = [1] ∧ s.activeCall = some 1 ∧ (s.object 0).state = .ended ∧
    (s.object 1).state = .ringing ∧
    (∀ bs s', run next s bs = some s' → ∀ call, (s.object call).callEnded = true →
      (s'.object call).state = (s.object call).state) := by
  have h : run next State.init heldWhileRinging = some _ := rfl
  exact ⟨_, h, rfl, rfl, rfl, rfl, (run_consistent h).2.1⟩

end

end FreeswitchContrib.FsClient
