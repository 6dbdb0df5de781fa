import FreeswitchContrib.Nibblebill.Billing

/-!
# The module mutex is given back

Every operation takes the module mutex while it touches a call's data, and one that kept it would
stop the billing of every other call.  `PausesUninitialised` is the one path that keeps it: a pause
of a call that was never billed.
-/

namespace FreeswitchContrib.Nibblebill

/-- A pause of a channel without billing data, in a module whose mutex is initialised. -/
def PausesUninitialised (g : Globals) (op : Operation) (s : State) : Prop :=
  op = .pause ∧ g.mutex = true ∧ ∃ c, s.channel = some c ∧ c.nibbleData = none

instance (g : Globals) (op : Operation) (s : State) : Decidable (PausesUninitialised g op s) :=
  decidable_of_iff
    (op = .pause ∧ g.mutex = true ∧ (s.channel.any fun c => c.nibbleData.isNone) = true)
    (by simp [PausesUninitialised, Option.any_eq_true])

variable {g : Globals} {e : Env} {s : State}

/-- Work that leaves the depth alone, between a lock and its unlock. -/
lemma unlock_lockDepth_of_locked {s' : State}
    (h : s'.lockDepth = (switchMutexLock g s).lockDepth) :
    (switchMutexUnlock g s').lockDepth = s.lockDepth := by
  cases hm : g.mutex <;> simp_all [switchMutexUnlock, switchMutexLock]

/-- A pause of a call that has billing data gives the mutex back. -/
lemma nibblebillPause_lockDepth {c : Channel} {d : NibbleData} (ts : ℤ)
    (hc : s.channel = some c) (hd : c.nibbleData = some d) :
    (nibblebillPause g ts s).lockDepth = s.lockDepth := by
  simp only [nibblebillPause, hc, hd]
  apply unlock_lockDepth_of_locked
  split <;> rfl

/-- A pause of a call without billing data returns with the mutex. -/
lemma nibblebillPause_lockDepth_uninitialised {c : Channel} (ts : ℤ)
    (hc : s.channel = some c) (hd : c.nibbleData = none) :
    (nibblebillPause g ts s).lockDepth = s.lockDepth + if g.mutex then 1 else 0 := by
  cases hm : g.mutex <;> simp [nibblebillPause, hc, hd, switchMutexLock, hm]

/-- The nested pause finds the data that was just saved. -/
lemma saveAndCheckBalance_lockDepth {c : Channel} (d : NibbleData) (hc : s.channel = some c) :
    (saveAndCheckBalance g e d s).lockDepth = s.lockDepth := by
  unfold saveAndCheckBalance
  split
  · have hsaved : (setNibbleData d s).channel = some { c with nibbleData := some d } := by
      rw [setNibbleData_channel, hc, Option.map_some]
    rw [nibblebillPause_lockDepth _ hsaved rfl, setNibbleData_lockDepth]
  · rfl

lemma billRunning_lockDepth {c : Channel} (billrate : ℚ) (billaccount : String)
    (profile : CallerProfile) (hc : s.channel = some c) :
    (billRunning g e c billrate billaccount profile s).lockDepth = s.lockDepth := by
  simp only [billRunning]
  generalize hbilled : billSinceLast e billrate billaccount
    (c.nibbleData.getD (NibbleData.start profile)) s = billed
  have hchannel : billed.2.channel = some c := by
    rw [← hbilled, billSinceLast_channel, hc]
  have hdepth : billed.2.lockDepth = s.lockDepth := by
    rw [← hbilled, billSinceLast_lockDepth]
  have hwritten : (setNibbleData billed.1 billed.2).channel
      = some { c with nibbleData := some billed.1 } := by
    rw [setNibbleData_channel, hchannel, Option.map_some]
  rw [← hdepth]
  cases hh : c.csHangup <;> cases hd : c.nibbleData.isSome <;>
    simp [saveAndCheckBalance_lockDepth _ hwritten, saveAndCheckBalance_lockDepth _ hchannel]

lemma doBilling_lockDepth (g : Globals) (e : Env) (s : State) :
    (doBilling g e s).lockDepth = s.lockDepth := by
  unfold doBilling
  split
  · rfl
  next c hc =>
    split
    · split
      · rfl
      split
      · rw [switchMutexUnlock_lock]
      · exact unlock_lockDepth_of_locked
          (billRunning_lockDepth _ _ _ (by rw [switchMutexLock_channel, hc]))
    · rfl

lemma nibblebillResume_lockDepth {s' : State} (h : nibblebillResume g e s = some s') :
    s'.lockDepth = s.lockDepth := by
  unfold nibblebillResume at h
  split at h
  · simp_all
  split at h
  · simp_all
  split at h
  · simp_all
  simp only at h
  split at h
  · simp at h
  · simp only [switchMutexUnlock_setNibbleData_lock, Option.some.injEq] at h
    rw [← h, setNibbleData_lockDepth]

lemma nibblebillReset_lockDepth (g : Globals) (e : Env) (s : State) :
    (nibblebillReset g e s).lockDepth = s.lockDepth := by
  unfold nibblebillReset
  split
  · rfl
  split
  · rfl
  · simp

lemma nibblebillCheck_lockDepth (g : Globals) (s : State) :
    (nibblebillCheck g s).2.lockDepth = s.lockDepth := by
  unfold nibblebillCheck
  split
  · rfl
  split
  · rfl
  · simp

lemma nibblebillAdjust_lockDepth (e : Env) (amount : ℚ) (s : State) :
    (nibblebillAdjust e amount s).lockDepth = s.lockDepth := by
  unfold nibblebillAdjust
  split
  · rfl
  split
  · rfl
  · rw [billEvent_eq]

/-- The only operation that does not return is the resume of a paused call without a rate. -/
theorem operate_eq_none_iff (g : Globals) (op : Operation) (e : Env) (s : State) :
    operate g op e s = none ↔ op = .resume ∧ ∃ c d, s.channel = some c ∧ c.nibbleData = some d ∧
      d.pausets ≠ 0 ∧ c.nibbleRate = none := by
  cases op with
  | resume =>
    simp only [operate, nibblebillResume, true_and]
    rcases hc : s.channel with _ | c
    · simp
    rcases hd : c.nibbleData with _ | d
    · simp [hd]
    by_cases hp : d.pausets = 0
    · simp [hd, hp]
    · rcases hr : c.nibbleRate with _ | billrate <;> simp [hd, hp, hr]
  | _ => simp [operate]

/-- **Every operation that returns gives the mutex back, except the pause of a call that was never
billed.** -/
theorem operate_lockDepth_iff (g : Globals) (op : Operation) (e : Env) (s s' : State)
    (h : operate g op e s = some s') :
    s'.lockDepth = s.lockDepth ↔ ¬PausesUninitialised g op s := by
  cases op with
  | pause =>
    simp only [operate, Option.some.injEq] at h
    subst h
    rcases hc : s.channel with _ | c
    · simp [PausesUninitialised, nibblebillPause, hc]
    rcases hd : c.nibbleData with _ | d
    · rw [nibblebillPause_lockDepth_uninitialised _ hc hd]
      cases hm : g.mutex <;> simp [PausesUninitialised, hc, hd, hm]
    · simp [nibblebillPause_lockDepth e.now hc hd, PausesUninitialised, hc, hd]
  | heartbeat | flush | hangup =>
    simp only [operate, Option.some.injEq] at h
    subst h
    simp [processHangup, doBilling_lockDepth, PausesUninitialised, enterHangup]
  | resume => simp [PausesUninitialised, nibblebillResume_lockDepth h]
  | reset | check | adjust =>
    simp only [operate, Option.some.injEq] at h
    subst h
    simp [nibblebillReset_lockDepth, nibblebillCheck_lockDepth, nibblebillAdjust_lockDepth,
      PausesUninitialised]

/-- A paused call is resumed, with the mutex given back. -/
theorem operate_lockDepth_iff_resume :
    let paused : State :=
      ⟨some ⟨some 60, some "alice", some ⟨1⟩, false, some ⟨1, 0, 5, 0⟩⟩, 0, []⟩
    let resumed : State :=
      ⟨some ⟨some 60, some "alice", some ⟨1⟩, false, some ⟨1, 0, 0, 4 / 1000000⟩⟩, 0, []⟩
    resumed.lockDepth = paused.lockDepth ↔ ¬PausesUninitialised ⟨true, 0⟩ .resume paused :=
  operate_lockDepth_iff ⟨true, 0⟩ .resume ⟨9, 9, true, true, some 10⟩ _ _ (by with_unfolding_all decide)

theorem not_lockBalanced : ¬∀ (g : Globals) (op : Operation) (e : Env) (s s' : State),
    operate g op e s = some s' → s'.lockDepth = s.lockDepth := by
  intro h
  have hdepth := h ⟨true, 0⟩ .pause ⟨9, 9, true, true, some 10⟩
    ⟨some ⟨some 60, some "alice", some ⟨1⟩, false, none⟩, 0, []⟩ _ rfl
  exact absurd hdepth (by decide)

end FreeswitchContrib.Nibblebill
