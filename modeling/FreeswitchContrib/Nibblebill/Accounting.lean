import FreeswitchContrib.Library.Accrual
import FreeswitchContrib.Nibblebill.Billing

/-!
# The billing data as an account

What is due on a call is spread over `lastts`, `pausets` and `bill_adjustments`.  Read as an accrual
account, each operation of the module is one operation of the account: a bill settles it, a pause
and a resume are those of the account, and a reset moves the starting point only.
-/

namespace FreeswitchContrib.Nibblebill

open Accrual

/-- The billing data as an account: settled up to `lastts`, paused since `pausets` unless that is
0. -/
def NibbleData.account (d : NibbleData) : Account ℚ where
  since := d.lastts
  credit := d.billAdjustments
  pausedAt := if d.pausets = 0 then none else some d.pausets

/-! ## What each operation makes of the data -/

def NibbleData.billedAt (d : NibbleData) (billrate : ℚ) (ts : ℤ) : NibbleData :=
  ⟨ts, d.total + d.due billrate ts, d.pausets, 0⟩

def NibbleData.pausedAt (d : NibbleData) (ts : ℤ) : NibbleData :=
  if d.pausets = 0 then { d with pausets := ts } else d

def NibbleData.resumedAt (d : NibbleData) (billrate : ℚ) (ts : ℤ) : NibbleData :=
  if d.pausets = 0 then d
  else
    { d with
      billAdjustments :=
        d.billAdjustments + perMicrosecond billrate * ((ts - d.pausets : ℤ) : ℚ)
      pausets := 0 }

def NibbleData.resetAt (d : NibbleData) (ts : ℤ) : NibbleData :=
  { d with lastts := ts }

section Account

variable {d : NibbleData} {billrate : ℚ} {ts : ℤ}

@[simp] lemma pausedAt_lastts : (d.pausedAt ts).lastts = d.lastts := by
  unfold NibbleData.pausedAt
  split <;> rfl

@[simp] lemma pausedAt_billAdjustments :
    (d.pausedAt ts).billAdjustments = d.billAdjustments := by
  unfold NibbleData.pausedAt
  split <;> rfl

@[simp] lemma resumedAt_lastts : (d.resumedAt billrate ts).lastts = d.lastts := by
  unfold NibbleData.resumedAt
  split <;> rfl

@[simp] lemma resumedAt_pausets : (d.resumedAt billrate ts).pausets = 0 := by
  unfold NibbleData.resumedAt
  split
  next hp => exact hp
  · rfl

lemma account_start (profile : CallerProfile) :
    (NibbleData.start profile).account = ⟨profile.answered, 0, none⟩ := rfl

lemma account_billedAt (hrun : d.pausets = 0) :
    (d.billedAt billrate ts).account = d.account.settle (ts : ℚ) := by
  simp [NibbleData.account, NibbleData.billedAt, Account.settle, hrun]

lemma account_pausedAt (hts : ts ≠ 0) : (d.pausedAt ts).account = d.account.pause (ts : ℚ) := by
  by_cases hp : d.pausets = 0
  · simp [NibbleData.account, NibbleData.pausedAt, Account.pause, hp, hts]
  · simp [NibbleData.account, NibbleData.pausedAt, Account.pause, hp]

lemma account_resumedAt :
    (d.resumedAt billrate ts).account = d.account.resume (perMicrosecond billrate) (ts : ℚ) := by
  by_cases hp : d.pausets = 0
  · simp [NibbleData.account, NibbleData.resumedAt, Account.resume, hp]
  · simp [NibbleData.account, NibbleData.resumedAt, Account.resume, hp]

lemma account_resetAt : (d.resetAt ts).account = d.account.rebase (ts : ℚ) := rfl

lemma account_pausedAt_eq_none : d.account.pausedAt = none ↔ d.pausets = 0 := by
  by_cases hp : d.pausets = 0 <;> simp [NibbleData.account, hp]

/-- The amount of a bill is what is owed. -/
lemma due_eq_owed (hrun : d.pausets = 0) :
    d.due billrate ts = d.account.owed (perMicrosecond billrate) (ts : ℚ) := by
  simp [NibbleData.due, NibbleData.account, Account.owed, hrun]

end Account

/-! ## What each operation makes of the state -/

variable {g : Globals} {e : Env} {s : State} {c : Channel}

lemma nibblebillPause_of_data {d : NibbleData} (ts : ℤ) (hc : s.channel = some c)
    (hd : c.nibbleData = some d) :
    nibblebillPause g ts s = setNibbleData (d.pausedAt ts) s := by
  have hsame : setNibbleData d s = s := by
    rcases s with ⟨channel, depth, bills⟩
    subst hc
    rcases c with ⟨rate, account, profile, hangup, data⟩
    subst hd
    rfl
  simp only [nibblebillPause, hc, hd]
  by_cases hp : d.pausets = 0
  · simp [hp, NibbleData.pausedAt]
  · simp [hp, NibbleData.pausedAt, hsame]

lemma nibblebillPause_of_noData (ts : ℤ) (hc : s.channel = some c) (hd : c.nibbleData = none) :
    nibblebillPause g ts s = switchMutexLock g s := by
  simp only [nibblebillPause, hc, hd]

lemma nibblebillResume_of_data {d : NibbleData} {billrate : ℚ} (hc : s.channel = some c)
    (hd : c.nibbleData = some d) (hrate : c.nibbleRate = some billrate) :
    nibblebillResume g e s = some (setNibbleData (d.resumedAt billrate e.now) s) := by
  have hsame : setNibbleData d s = s := by
    rcases s with ⟨channel, depth, bills⟩
    subst hc
    rcases c with ⟨rate, account, profile, hangup, data⟩
    subst hd
    rfl
  simp only [nibblebillResume, hc, hd, hrate]
  by_cases hp : d.pausets = 0
  · simp [hp, NibbleData.resumedAt, hsame]
  · simp [hp, NibbleData.resumedAt]

lemma nibblebillResume_of_noData (hc : s.channel = some c) (hd : c.nibbleData = none) :
    nibblebillResume g e s = some s := by
  simp only [nibblebillResume, hc, hd]

lemma nibblebillReset_of_data {d : NibbleData} (hc : s.channel = some c)
    (hd : c.nibbleData = some d) :
    nibblebillReset g e s = setNibbleData (d.resetAt e.now) s := by
  simp [nibblebillReset, hc, hd, NibbleData.resetAt]

lemma nibblebillReset_of_noData (hc : s.channel = some c) (hd : c.nibbleData = none) :
    nibblebillReset g e s = s := by
  simp only [nibblebillReset, hc, hd]

lemma nibblebillCheck_state (g : Globals) (s : State) : (nibblebillCheck g s).2 = s := by
  unfold nibblebillCheck
  split
  · rfl
  split <;> simp

lemma doBilling_of_noAccount (hc : s.channel = some c) (haccount : c.nibbleAccount = none) :
    doBilling g e s = s := by
  simp only [doBilling, hc, haccount]
  split <;> simp_all

lemma doBilling_of_paused {d : NibbleData} (hc : s.channel = some c) (hd : c.nibbleData = some d)
    (hp : 0 < d.pausets) : doBilling g e s = s := by
  simp only [doBilling, hc, hd]
  split
  · split <;> simp [hp]
  · rfl

/-- The data after a bill: new data is not kept on a channel that is hung up, and a call whose
balance is too low is paused. -/
def Channel.afterBill (g : Globals) (e : Env) (c : Channel) (d : NibbleData) : Channel :=
  { c with
    nibbleData :=
      if c.csHangup then c.nibbleData.map fun _ => d
      else some (if getBalance e < g.nobalAmt then d.pausedAt e.pauseNow else d) }

section AfterBill

variable (d : NibbleData)

lemma afterBill_of_running (hh : c.csHangup = false) :
    c.afterBill g e d = { c with
      nibbleData := some (if getBalance e < g.nobalAmt then d.pausedAt e.pauseNow else d) } := by
  rcases c with ⟨rate, account, profile, hangup, data⟩
  subst hh
  rfl

lemma afterBill_of_hangup {d₀ : NibbleData} (hh : c.csHangup = true)
    (hd : c.nibbleData = some d₀) : c.afterBill g e d = { c with nibbleData := some d } := by
  rcases c with ⟨rate, account, profile, hangup, data⟩
  subst hh hd
  rfl

/-- The data of a first bill at the hangup is not kept. -/
lemma afterBill_of_hangup_new (hh : c.csHangup = true) (hd : c.nibbleData = none) :
    c.afterBill g e d = c := by
  rcases c with ⟨rate, account, profile, hangup, data⟩
  subst hh hd
  rfl

end AfterBill

lemma saveAndCheckBalance_channel (d : NibbleData) (hc : s.channel = some c) :
    (saveAndCheckBalance g e d s).channel = some { c with
      nibbleData := some (if getBalance e < g.nobalAmt then d.pausedAt e.pauseNow else d) } := by
  have hsaved : (setNibbleData d s).channel = some { c with nibbleData := some d } := by
    rw [setNibbleData_channel, hc, Option.map_some]
  unfold saveAndCheckBalance
  by_cases hlow : getBalance e < g.nobalAmt
  · rw [if_pos hlow, nibblebillPause_of_data _ hsaved rfl, setNibbleData_channel, hsaved]
    simp [hlow]
  · rw [if_neg hlow, hsaved]
    simp [hlow]

lemma saveAndCheckBalance_bills (d : NibbleData) (hc : s.channel = some c) :
    (saveAndCheckBalance g e d s).bills = s.bills := by
  have hsaved : (setNibbleData d s).channel = some { c with nibbleData := some d } := by
    rw [setNibbleData_channel, hc, Option.map_some]
  unfold saveAndCheckBalance
  split
  · rw [nibblebillPause_of_data _ hsaved rfl, setNibbleData_bills, setNibbleData_bills]
  · rfl

section Running

variable {billrate : ℚ} {billaccount : String} {profile : CallerProfile}

lemma doBilling_of_running (hc : s.channel = some c) (hrate : c.nibbleRate = some billrate)
    (haccount : c.nibbleAccount = some billaccount) (hprofile : c.profile = some profile)
    (hanswered : 1 ≤ profile.answered)
    (hrun : ∀ d, c.nibbleData = some d → d.pausets = 0) :
    doBilling g e s = switchMutexUnlock g
      (billRunning g e c billrate billaccount profile (switchMutexLock g s)) := by
  have hans : ¬profile.answered < 1 := by omega
  have hnotPaused : (c.nibbleData.any fun d => decide (d.pausets > 0)) = false := by
    rcases hd : c.nibbleData with _ | d
    · rfl
    · simp [hrun d hd]
  simp only [doBilling, hc, hrate, haccount, hprofile, if_neg hans, hnotPaused]
  rfl

lemma billRunning_channel_bills (billrate : ℚ) (billaccount : String) (hc : s.channel = some c)
    (hts : (c.nibbleData.getD (NibbleData.start profile)).lastts ≤ e.now) :
    let d := c.nibbleData.getD (NibbleData.start profile)
    let s' := billRunning g e c billrate billaccount profile s
    s'.channel = some (c.afterBill g e (d.billedAt billrate e.now)) ∧
      s'.bills = s.bills ++ [⟨billaccount, d.due billrate e.now, e.updates⟩] := by
  intro d
  obtain ⟨s₁, hbilled, hchannel, hbills⟩ : ∃ s₁,
      billSinceLast e billrate billaccount d s = (d.billedAt billrate e.now, s₁) ∧
      s₁.channel = some c ∧
      s₁.bills = s.bills ++ [⟨billaccount, d.due billrate e.now, e.updates⟩] :=
    ⟨_, billSinceLast_of_le hts billrate billaccount s, hc, rfl⟩
  generalize d.billedAt billrate e.now = d₁ at hbilled ⊢
  have hwritten : (setNibbleData d₁ s₁).channel = some { c with nibbleData := some d₁ } := by
    rw [setNibbleData_channel, hchannel, Option.map_some]
  simp only [billRunning]
  rw [show billSinceLast e billrate billaccount (c.nibbleData.getD (NibbleData.start profile)) s
    = (d₁, s₁) from hbilled]
  rcases hh : c.csHangup with _ | _
  · rw [afterBill_of_running _ hh]
    rcases hd : c.nibbleData with _ | d₀
    · simp [saveAndCheckBalance_channel _ hchannel, saveAndCheckBalance_bills _ hchannel, hbills]
    · simp [saveAndCheckBalance_channel _ hwritten, saveAndCheckBalance_bills _ hwritten, hbills]
  · rcases hd : c.nibbleData with _ | d₀
    · simp [afterBill_of_hangup_new _ hh hd, hchannel, hbills]
    · simp [afterBill_of_hangup _ hh hd, hchannel, hbills]

/-- **A bill of a running call**: the amount due is billed, and the data is settled. -/
lemma doBilling_channel_bills (hc : s.channel = some c) (hrate : c.nibbleRate = some billrate)
    (haccount : c.nibbleAccount = some billaccount) (hprofile : c.profile = some profile)
    (hanswered : 1 ≤ profile.answered)
    (hrun : ∀ d, c.nibbleData = some d → d.pausets = 0)
    (hts : (c.nibbleData.getD (NibbleData.start profile)).lastts ≤ e.now) :
    let d := c.nibbleData.getD (NibbleData.start profile)
    (doBilling g e s).channel = some (c.afterBill g e (d.billedAt billrate e.now)) ∧
      (doBilling g e s).bills
        = s.bills ++ [⟨billaccount, d.due billrate e.now, e.updates⟩] := by
  intro d
  have hlocked : (switchMutexLock g s).channel = some c := by
    rw [switchMutexLock_channel, hc]
  obtain ⟨hchannel, hbills⟩ :=
    billRunning_channel_bills (g := g) billrate billaccount hlocked hts
  rw [doBilling_of_running hc hrate haccount hprofile hanswered hrun, switchMutexUnlock_channel,
    switchMutexUnlock_bills]
  exact ⟨hchannel, by rw [hbills, switchMutexLock_bills]⟩

end Running

/-! ## The clock -/

/-- The last time an operation reads the clock. -/
def Operation.lastReading (op : Operation) (e : Env) : ℤ :=
  match op with
  | .heartbeat | .flush | .hangup => e.pauseNow
  | _ => e.now

/-- A clock that never goes back, from `t` on. -/
def Timed : ℤ → List (Operation × Env) → Prop
  | _, [] => True
  | t, (op, e) :: rest =>
    t ≤ e.now ∧ e.now ≤ op.lastReading e ∧ Timed (op.lastReading e) rest

instance : ∀ (t : ℤ) (ops : List (Operation × Env)), Decidable (Timed t ops)
  | _, [] => isTrue trivial
  | t, (op, e) :: rest =>
    have : Decidable (Timed (op.lastReading e) rest) := instDecidableTimed _ rest
    inferInstanceAs (Decidable (t ≤ e.now ∧ e.now ≤ op.lastReading e ∧ _))

/-- An answered call at `t`, billed at a constant rate: no moment its data holds is later. -/
structure Channel.OnCall (c : Channel) (billrate : ℚ) (answered t : ℤ) : Prop where
  rate : c.nibbleRate = some billrate
  profile : c.profile = some ⟨answered⟩
  isAnswered : 1 ≤ answered
  started : answered ≤ t
  account : ∀ d, c.nibbleData = some d → c.nibbleAccount.isSome
  times : ∀ d, c.nibbleData = some d → d.lastts ≤ t ∧ 0 ≤ d.pausets ∧ d.pausets ≤ t

/-- A moment, with a database that answers. -/
def momentAt (now : ℤ) : Env :=
  ⟨now, now, true, true, some 100⟩

/-- A call answered at 1, at a rate of one per microsecond. -/
def answeredAtOne : Channel :=
  ⟨some 60000000, some "alice", some ⟨1⟩, false, none⟩

namespace Channel.OnCall

variable {billrate : ℚ} {answered t u : ℤ} {d : NibbleData}

lemma later (h : c.OnCall billrate answered t) (htu : t ≤ u) : c.OnCall billrate answered u where
  rate := h.rate
  profile := h.profile
  isAnswered := h.isAnswered
  started := h.started.trans htu
  account := h.account
  times := fun d hd => by
    obtain ⟨hlast, hpos, hpaused⟩ := h.times d hd
    exact ⟨hlast.trans htu, hpos, hpaused.trans htu⟩

lemma withData (h : c.OnCall billrate answered t) (htu : t ≤ u) (haccount : c.nibbleAccount.isSome)
    (htimes : d.lastts ≤ u ∧ 0 ≤ d.pausets ∧ d.pausets ≤ u) :
    ({ c with nibbleData := some d } : Channel).OnCall billrate answered u where
  rate := h.rate
  profile := h.profile
  isAnswered := h.isAnswered
  started := h.started.trans htu
  account := fun _ _ => haccount
  times := by
    rintro d' hd'
    obtain rfl : d = d' := by simpa using hd'
    exact htimes

lemma enterHangup (h : c.OnCall billrate answered t) :
    ({ c with csHangup := true } : Channel).OnCall billrate answered t :=
  ⟨h.rate, h.profile, h.isAnswered, h.started, h.account, h.times⟩

/-- The data of a call on its first or a later bill is not later than the call. -/
lemma lastts_le (h : c.OnCall billrate answered t) :
    (c.nibbleData.getD (NibbleData.start ⟨answered⟩)).lastts ≤ t := by
  rcases hd : c.nibbleData with _ | d
  · exact h.started
  · exact (h.times d hd).1

/-- **What a bill does to a call**: nothing without an account or while paused; otherwise the
amount due is billed and the data is settled. -/
lemma doBilling_cases (h : c.OnCall billrate answered t) (hc : s.channel = some c)
    (ht : t ≤ e.now) :
    (doBilling g e s = s ∧
        (c.nibbleAccount = none ∨ ∃ d, c.nibbleData = some d ∧ d.pausets ≠ 0)) ∨
      ∃ billaccount, c.nibbleAccount = some billaccount ∧
        (∀ d, c.nibbleData = some d → d.pausets = 0) ∧
        let d := c.nibbleData.getD (NibbleData.start ⟨answered⟩)
        d.pausets = 0 ∧
        (doBilling g e s).channel = some (c.afterBill g e (d.billedAt billrate e.now)) ∧
        (doBilling g e s).bills
          = s.bills ++ [⟨billaccount, d.due billrate e.now, e.updates⟩] := by
  rcases haccount : c.nibbleAccount with _ | billaccount
  · exact .inl ⟨doBilling_of_noAccount hc haccount, .inl rfl⟩
  by_cases hrun : ∀ d, c.nibbleData = some d → d.pausets = 0
  · have hd : (c.nibbleData.getD (NibbleData.start ⟨answered⟩)).pausets = 0 := by
      rcases hd : c.nibbleData with _ | d
      · rfl
      · exact hrun d hd
    exact .inr ⟨billaccount, rfl, hrun, hd, doBilling_channel_bills hc h.rate haccount h.profile
      h.isAnswered hrun (h.lastts_le.trans ht)⟩
  · obtain ⟨d, hd, hp⟩ : ∃ d, c.nibbleData = some d ∧ d.pausets ≠ 0 := by
      simpa using hrun
    have hpos : 0 < d.pausets := lt_of_le_of_ne (h.times d hd).2.1 (Ne.symm hp)
    exact .inl ⟨doBilling_of_paused hc hd hpos, .inr ⟨d, hd, hp⟩⟩

lemma afterBill (h : c.OnCall billrate answered t) (ht : t ≤ e.now) (hpause : e.now ≤ e.pauseNow)
    (haccount : c.nibbleAccount.isSome) (hrun : d.pausets = 0) :
    (c.afterBill g e (d.billedAt billrate e.now)).OnCall billrate answered e.pauseNow := by
  have hstart : 1 ≤ e.now := h.isAnswered.trans (h.started.trans ht)
  rcases hh : c.csHangup with _ | _
  · rw [afterBill_of_running _ hh]
    refine h.withData (ht.trans hpause) haccount ?_
    split
    · simp only [NibbleData.pausedAt, NibbleData.billedAt, hrun, if_true]
      omega
    · simp only [NibbleData.billedAt, hrun]
      omega
  · rcases hd : c.nibbleData with _ | d'
    · rw [afterBill_of_hangup_new _ hh hd]
      exact h.later (ht.trans hpause)
    · rw [afterBill_of_hangup _ hh hd]
      refine h.withData (ht.trans hpause) haccount ?_
      simp only [NibbleData.billedAt, hrun]
      omega

end Channel.OnCall

end FreeswitchContrib.Nibblebill
