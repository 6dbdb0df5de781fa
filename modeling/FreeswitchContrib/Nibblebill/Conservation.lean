import FreeswitchContrib.Nibblebill.Accounting

/-!
# Billing conservation

What a call is debited should be the rate times the time it was neither unanswered nor paused.
`CallMeter` says when a call is paused, in terms of the operations alone; every run keeps the data
of the call in agreement with it, up to the hangup.

The hangup processing is meant to resume a paused call before it bills, but the resume is commented
out: a call that hangs up while it is paused is not billed for the time before the pause.
-/

namespace FreeswitchContrib.Nibblebill

open Accrual

/-- When a call is paused.  A pause counts once the call has been billed a first time; a bill that
leaves too little balance pauses the call. -/
structure CallMeter where
  billing : Bool
  watch : Stopwatch ℚ

def CallMeter.start : CallMeter :=
  ⟨false, ⟨none, 0⟩⟩

def CallMeter.step (g : Globals) (account : Option String) (m : CallMeter) (op : Operation)
    (e : Env) : CallMeter :=
  match op with
  | .heartbeat | .flush =>
    if account.isSome && m.watch.pausedAt.isNone then
      { billing := true
        watch := if getBalance e < g.nobalAmt then m.watch.pause e.pauseNow else m.watch }
    else m
  | .pause => if m.billing then { m with watch := m.watch.pause e.now } else m
  | .resume => { m with watch := m.watch.resume e.now }
  | _ => m

/-- The meter after a list of operations. -/
def meter (g : Globals) (account : Option String) : CallMeter → List (Operation × Env) → CallMeter
  | m, [] => m
  | m, (op, e) :: rest => meter g account (m.step g account op e) rest

/-- The operations of a call that only bill, pause and resume. -/
def Operation.BillsOrPauses (op : Operation) : Prop :=
  op = .heartbeat ∨ op = .flush ∨ op = .pause ∨ op = .resume

/-- The call before its hangup owes nothing that the hangup will not bill: it is not paused, or what
accrued up to the pause is what earlier pauses gave back. -/
def NothingLost (billrate : ℚ) (answered hangup : ℤ) (s : State) : Prop :=
  ∀ c ∈ s.channel,
    match c.nibbleAccount, c.nibbleData with
    | none, _ => perMicrosecond billrate * ((hangup - answered : ℤ) : ℚ) = 0
    | some _, none => True
    | some _, some d =>
      d.pausets ≠ 0 →
        perMicrosecond billrate * ((d.pausets - d.lastts : ℤ) : ℚ) = d.billAdjustments

variable {g : Globals} {e : Env} {s : State} {c : Channel} {m : CallMeter} {d : NibbleData}
  {account : Option String} {billrate : ℚ} {answered t : ℤ}

/-- The data of a call agrees with the meter: all that was debited is the rate times the time up to
the last bill, less the pauses, plus the credit still to give. -/
def Agrees (billrate : ℚ) (answered : ℤ) (data : Option NibbleData) (bills : List Bill)
    (m : CallMeter) : Prop :=
  match data with
  | none => m = CallMeter.start ∧ bills = []
  | some d => m.billing = true ∧
      Conserves (perMicrosecond billrate) answered (debited bills) d.account m.watch

/-- A call that goes on at `t`, in agreement with the meter. -/
def Metered (account : Option String) (billrate : ℚ) (answered t : ℤ) (s : State) (m : CallMeter) :
    Prop :=
  ∃ c, s.channel = some c ∧ c.OnCall billrate answered t ∧ c.nibbleAccount = account ∧
    c.csHangup = false ∧ Agrees billrate answered c.nibbleData s.bills m

lemma debited_snoc (bills : List Bill) (billaccount : String) (amount : ℚ) :
    debited (bills ++ [⟨billaccount, amount, true⟩]) = debited bills + amount := by
  rw [debited_append]
  simp [debited]

/-- Before the first bill, the data it will start from agrees with the meter. -/
lemma Agrees.conserves {bills : List Bill} {data : Option NibbleData}
    (h : Agrees billrate answered data bills m) :
    Conserves (perMicrosecond billrate) answered (debited bills)
      (data.getD (NibbleData.start ⟨answered⟩)).account m.watch := by
  rcases data with _ | d
  · obtain ⟨rfl, rfl⟩ := h
    refine ⟨rfl, ?_⟩
    simp [CallMeter.start, account_start, debited]
  · exact h.2

/-- A bill settles what is owed. -/
lemma Agrees.billed {bills : List Bill} {data : Option NibbleData} (billaccount : String)
    (h : Agrees billrate answered data bills m)
    (hrun : (data.getD (NibbleData.start ⟨answered⟩)).pausets = 0) (ts : ℤ) :
    let d := data.getD (NibbleData.start ⟨answered⟩)
    Conserves (perMicrosecond billrate) answered
      (debited (bills ++ [⟨billaccount, d.due billrate ts, true⟩]))
      (d.billedAt billrate ts).account m.watch := by
  intro d
  rw [debited_snoc, due_eq_owed hrun, account_billedAt hrun]
  exact h.conserves.settle (account_pausedAt_eq_none.mpr hrun)

namespace Metered

lemma bill (h : Metered account billrate answered t s m) (ht : t ≤ e.now)
    (hpause : e.now ≤ e.pauseNow) (hupdates : e.updates = true) :
    Metered account billrate answered e.pauseNow (doBilling g e s)
      (m.step g account .heartbeat e) := by
  obtain ⟨c, hc, hcall, haccount, hlive, hagrees⟩ := h
  have hstart : 1 ≤ e.now := hcall.isAnswered.trans (hcall.started.trans ht)
  rcases hcall.doBilling_cases (g := g) hc ht with
    ⟨hsame, hwhy⟩ | ⟨billaccount, hsome, hrun, hd, hchannel, hbills⟩
  · have hstep : m.step g account .heartbeat e = m := by
      rcases hwhy with hnone | ⟨d, hd, hp⟩
      · simp [CallMeter.step, ← haccount, hnone]
      · rw [hd] at hagrees
        have hpaused : m.watch.pausedAt ≠ none := by
          rw [← hagrees.2.pausedAt, ne_eq, account_pausedAt_eq_none]
          exact hp
        simp [CallMeter.step, hpaused]
    rw [hsame, hstep]
    exact ⟨c, hc, hcall.later (ht.trans hpause), haccount, hlive, hagrees⟩
  · rw [hupdates] at hbills
    have hsettled := hagrees.billed billaccount hd e.now
    have hwatch : m.watch.pausedAt = none := by
      rw [← hagrees.conserves.pausedAt]
      exact account_pausedAt_eq_none.mpr hd
    have hstep : m.step g account .heartbeat e = ⟨true,
        if getBalance e < g.nobalAmt then m.watch.pause e.pauseNow else m.watch⟩ := by
      simp [CallMeter.step, ← haccount, hsome, hwatch]
    refine ⟨_, hchannel, hcall.afterBill ht hpause (by simp [hsome]) hd, ?_, ?_, ?_⟩
    · rw [afterBill_of_running _ hlive, haccount]
    · rw [afterBill_of_running _ hlive, hlive]
    · rw [afterBill_of_running _ hlive, hstep, hbills]
      refine ⟨rfl, ?_⟩
      by_cases hlow : getBalance e < g.nobalAmt
      · rw [if_pos hlow, if_pos hlow, account_pausedAt (by omega)]
        exact hsettled.pause
      · rw [if_neg hlow, if_neg hlow]
        exact hsettled

lemma pause (h : Metered account billrate answered t s m) (ht : t ≤ e.now) :
    Metered account billrate answered e.now (nibblebillPause g e.now s)
      (m.step g account .pause e) := by
  obtain ⟨c, hc, hcall, haccount, hlive, hagrees⟩ := h
  have hstart : 1 ≤ e.now := hcall.isAnswered.trans (hcall.started.trans ht)
  rcases hd : c.nibbleData with _ | d
  · rw [hd] at hagrees
    obtain ⟨rfl, hbills⟩ := hagrees
    rw [nibblebillPause_of_noData _ hc hd]
    exact ⟨c, by rw [switchMutexLock_channel, hc], hcall.later ht, haccount, hlive, by
      simp [hd, Agrees, CallMeter.step, CallMeter.start, hbills]⟩
  · rw [hd] at hagrees
    obtain ⟨hbilling, hsum⟩ := hagrees
    obtain ⟨hlastts, hpos, hpaused⟩ := hcall.times d hd
    rw [nibblebillPause_of_data _ hc hd]
    refine ⟨_, by rw [setNibbleData_channel, hc, Option.map_some],
      hcall.withData ht (hcall.account d hd) ?_, haccount, hlive, ?_⟩
    · rw [pausedAt_lastts, NibbleData.pausedAt]
      split
      · exact ⟨hlastts.trans ht, zero_le_one.trans hstart, le_rfl⟩
      · omega
    · simp only [Agrees, CallMeter.step, hbilling, if_true, setNibbleData_bills, true_and]
      rw [account_pausedAt (by omega)]
      exact hsum.pause

lemma resume (h : Metered account billrate answered t s m) (ht : t ≤ e.now) :
    ∃ s', nibblebillResume g e s = some s' ∧
      Metered account billrate answered e.now s' (m.step g account .resume e) := by
  obtain ⟨c, hc, hcall, haccount, hlive, hagrees⟩ := h
  rcases hd : c.nibbleData with _ | d
  · rw [hd] at hagrees
    obtain ⟨rfl, hbills⟩ := hagrees
    refine ⟨s, nibblebillResume_of_noData hc hd, c, hc, hcall.later ht, haccount, hlive, ?_⟩
    simp [hd, Agrees, CallMeter.step, CallMeter.start, Stopwatch.resume, Stopwatch.pausedTime,
      hbills]
  · rw [hd] at hagrees
    obtain ⟨hbilling, hsum⟩ := hagrees
    obtain ⟨hlastts, hpos, hpaused⟩ := hcall.times d hd
    refine ⟨_, nibblebillResume_of_data hc hd hcall.rate,
      _, by rw [setNibbleData_channel, hc, Option.map_some],
      hcall.withData ht (hcall.account d hd) ?_, haccount, hlive, hbilling, ?_⟩
    · rw [resumedAt_lastts, resumedAt_pausets]
      omega
    · rw [account_resumedAt]
      exact hsum.resume

/-- **One operation keeps the data in agreement with the meter.** -/
lemma operate (h : Metered account billrate answered t s m) {op : Operation}
    (hop : op.BillsOrPauses) (ht : t ≤ e.now) (hlast : e.now ≤ op.lastReading e)
    (hupdates : e.updates = true) :
    ∃ s', operate g op e s = some s' ∧
      Metered account billrate answered (op.lastReading e) s' (m.step g account op e) := by
  rcases hop with rfl | rfl | rfl | rfl
  · exact ⟨_, rfl, h.bill ht hlast hupdates⟩
  · exact ⟨_, rfl, h.bill ht hlast hupdates⟩
  · exact ⟨_, rfl, h.pause ht⟩
  · exact h.resume ht

/-- **A run keeps the data in agreement with the meter.** -/
lemma run : ∀ {ops rest : List (Operation × Env)} {t : ℤ} {s : State} {m : CallMeter},
    Metered account billrate answered t s m → (∀ x ∈ ops, x.1.BillsOrPauses) →
    (∀ x ∈ ops, x.2.updates = true) → Timed t (ops ++ rest) →
    ∃ t' s', run g ops s = some s' ∧ Timed t' rest ∧
      Metered account billrate answered t' s' (meter g account m ops)
  | [], _, t, s, _, h, _, _, htimed => ⟨t, s, rfl, htimed, h⟩
  | (op, e) :: ops, rest, t, s, m, h, hops, hupdates, ⟨ht, hlast, htimed⟩ => by
    obtain ⟨s₁, hs₁, h₁⟩ := h.operate (g := g) (hops _ List.mem_cons_self) ht hlast
      (hupdates _ List.mem_cons_self)
    obtain ⟨t', s', hs', htimed', h'⟩ := run h₁ (fun x hx => hops x (List.mem_cons_of_mem _ hx))
      (fun x hx => hupdates x (List.mem_cons_of_mem _ hx)) htimed
    exact ⟨t', s', by simp [Nibblebill.run, hs₁, hs'], htimed', h'⟩

/-- The hangup bills all that is owed if and only if nothing is lost. -/
lemma hangup (h : Metered account billrate answered t s m) (ht : t ≤ e.now)
    (hupdates : e.updates = true) :
    debited (processHangup g e (enterHangup s)).bills
        = perMicrosecond billrate * (e.now - answered - m.watch.pausedTime e.now)
      ↔ NothingLost billrate answered e.now s := by
  obtain ⟨c, hc, hcall, haccount, hlive, hagrees⟩ := h
  have hhung : (enterHangup s).channel = some { c with csHangup := true } := by
    rw [enterHangup, hc, Option.map_some]
  have hbillsHung : (enterHangup s).bills = s.bills := rfl
  rw [processHangup]
  have hall := hagrees.conserves.settled_add_owed e.now
  rcases hcall.enterHangup.doBilling_cases (g := g) hhung ht with
    ⟨hsame, hwhy⟩ | ⟨billaccount, hsome, hrun, hd, hchannel, hbills⟩
  · rw [hsame, hbillsHung, ← hall]
    rcases hwhy with hnone | ⟨d, hd, hp⟩
    · have hnone' : c.nibbleAccount = none := hnone
      have hnew : c.nibbleData = none := by
        rcases hd : c.nibbleData with _ | d
        · rfl
        · simpa [hnone'] using hcall.account d hd
      rw [left_eq_add]
      simp [NothingLost, hc, hnone', hnew, account_start, Account.owed]
    · have hd' : c.nibbleData = some d := hd
      obtain ⟨billaccount, hsome⟩ := Option.isSome_iff_exists.mp (hcall.account d hd')
      rw [left_eq_add]
      simp [NothingLost, hc, hsome, hd', hp, NibbleData.account, Account.owed, sub_eq_zero]
  · rw [hbills, hbillsHung, hupdates, debited_snoc, due_eq_owed hd]
    have hsome' : c.nibbleAccount = some billaccount := hsome
    have hlost : NothingLost billrate answered e.now s := by
      intro c' hc'
      obtain rfl : c = c' := Option.some.inj (hc.symm.trans hc')
      rcases hdata : c.nibbleData with _ | d
      · simp [hsome']
      · have hzero : d.pausets = 0 := hrun d hdata
        simp [hsome', hzero]
    exact iff_of_true hall hlost

end Metered

/-- A call that starts agrees with a meter that starts. -/
lemma metered_start (depth : ℤ) (hrate : c.nibbleRate = some billrate)
    (hprofile : c.profile = some ⟨answered⟩) (hanswered : 1 ≤ answered)
    (hnew : c.nibbleData = none) (hlive : c.csHangup = false) :
    Metered c.nibbleAccount billrate answered answered ⟨some c, depth, []⟩ CallMeter.start := by
  refine ⟨c, rfl, ⟨hrate, hprofile, hanswered, le_rfl, ?_, ?_⟩, rfl, hlive, ?_⟩
  · simp [hnew]
  · simp [hnew]
  · rw [hnew]
    exact ⟨rfl, rfl⟩

/-- **Billing is conserved exactly when nothing is lost at the hangup**: the amounts debited add up
to the rate times the time that was not paused if and only if the hangup finds the call not paused,
or paused with nothing owed. -/
theorem hangup_conserves_iff (g : Globals) (c : Channel) (depth : ℤ) (billrate : ℚ) (answered : ℤ)
    (ops : List (Operation × Env)) (final : Env) (hrate : c.nibbleRate = some billrate)
    (hprofile : c.profile = some ⟨answered⟩) (hanswered : 1 ≤ answered)
    (hnew : c.nibbleData = none) (hlive : c.csHangup = false)
    (hops : ∀ x ∈ ops, x.1.BillsOrPauses)
    (htimed : Timed answered (ops ++ [(.hangup, final)]))
    (hupdates : ∀ x ∈ ops ++ [(.hangup, final)], x.2.updates = true) :
    ∃ s s', run g ops ⟨some c, depth, []⟩ = some s ∧ operate g .hangup final s = some s' ∧
      (debited s'.bills = billrate / 60 * ((final.now - answered
            - (meter g c.nibbleAccount CallMeter.start ops).watch.pausedTime final.now) / 1000000)
        ↔ NothingLost billrate answered final.now s) := by
  have hstart := metered_start depth hrate hprofile hanswered hnew hlive
  obtain ⟨t, s, hs, ⟨ht, -, -⟩, hmetered⟩ := hstart.run (g := g) hops
    (fun x hx => hupdates x (List.mem_append_left _ hx)) htimed
  have hfinal : final.updates = true :=
    hupdates (.hangup, final) (List.mem_append_right _ List.mem_cons_self)
  refine ⟨s, _, hs, rfl, ?_⟩
  rw [← hmetered.hangup (g := g) ht hfinal]
  refine Eq.congr_right ?_
  unfold perMicrosecond
  ring

/-- Billed at 5, paused from 6 to 8, hung up at 10. -/
def resumedCall : List (Operation × Env) :=
  [(.heartbeat, momentAt 5), (.pause, momentAt 6), (.resume, momentAt 8)]

theorem hangup_conserves_resumedCall :
    ∃ s s', run ⟨true, 0⟩ resumedCall ⟨some answeredAtOne, 0, []⟩ = some s ∧
      operate ⟨true, 0⟩ .hangup (momentAt 10) s = some s' ∧
      (debited s'.bills = 60000000 / 60 * ((((momentAt 10).now : ℚ) - ((1 : ℤ) : ℚ)
            - (meter ⟨true, 0⟩ answeredAtOne.nibbleAccount CallMeter.start
                resumedCall).watch.pausedTime (momentAt 10).now) / 1000000)
        ↔ NothingLost 60000000 1 (momentAt 10).now s) :=
  hangup_conserves_iff ⟨true, 0⟩ answeredAtOne 0 60000000 1 resumedCall (momentAt 10) rfl rfl le_rfl
    rfl rfl (by simp [resumedCall, Operation.BillsOrPauses]) (by decide)
    (by simp [resumedCall, momentAt, Env.updates])

/-- Billed at 1, paused at 5, hung up at 10: the time from 1 to 5 is not billed. -/
theorem not_conserved : ¬∀ (g : Globals) (c : Channel) (billrate : ℚ) (answered : ℤ)
    (ops : List (Operation × Env)) (final : Env), c.nibbleRate = some billrate →
    c.profile = some ⟨answered⟩ → 1 ≤ answered → c.nibbleData = none → c.csHangup = false →
    (∀ x ∈ ops, x.1.BillsOrPauses) → Timed answered (ops ++ [(.hangup, final)]) →
    (∀ x ∈ ops ++ [(.hangup, final)], x.2.updates = true) →
    ∀ s, run g (ops ++ [(.hangup, final)]) ⟨some c, 0, []⟩ = some s →
      debited s.bills = billrate / 60 * ((final.now - answered
        - (meter g c.nibbleAccount CallMeter.start ops).watch.pausedTime final.now) / 1000000) := by
  intro h
  have hsum := h ⟨true, 0⟩ answeredAtOne 60000000 1
    [(.heartbeat, momentAt 1), (.pause, momentAt 5)] (momentAt 10) rfl rfl le_rfl rfl rfl
    (by simp [Operation.BillsOrPauses]) (by decide) (by simp [momentAt, Env.updates]) _ rfl
  exact absurd hsum (by with_unfolding_all decide)

end FreeswitchContrib.Nibblebill
