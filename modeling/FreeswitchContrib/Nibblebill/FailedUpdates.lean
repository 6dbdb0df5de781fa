import Mathlib.Data.List.Induction
import FreeswitchContrib.Nibblebill.Accounting

/-!
# Updates of the account that fail

`bill_event` logs a failed UPDATE and reports a success, so `do_billing` counts the amount in
`nibble_data.total` and moves `lastts` on: nobody asks for the amount again.

* `bills_doBilling`, `recordTotal_eq`: what one bill passes to the database and what it counts, on
  every channel and at every time;
* `storedTotal_run`: over a run the total is the sum of all amounts, debited or not;
* `losesNothing_iff`: nothing is lost if and only if updates fail only when nothing is due.
-/

namespace FreeswitchContrib.Nibblebill

variable {g : Globals} {e : Env} {s s' : State} {c : Channel} {op : Operation}
  {ops earlier later : List (Operation × Env)}

/-! ## One bill -/

/-- What `do_billing` passes to `bill_event`: the account, and the amount due since the last bill;
nothing when it returns before that, or when the clock went back. -/
def charge (ts : ℤ) (s : State) : Option (String × ℚ) :=
  match s.channel with
  | none => none
  | some c =>
    match c.nibbleRate, c.nibbleAccount, c.profile with
    | some billrate, some billaccount, some profile =>
      if profile.answered < 1 ∨ (c.nibbleData.any fun d => decide (d.pausets > 0)) then none
      else
        let d := c.nibbleData.getD (NibbleData.start profile)
        if d.lastts ≤ ts then some (billaccount, d.due billrate ts) else none
    | _, _, _ => none

def amountDue (ts : ℤ) (s : State) : ℚ := ((charge ts s).map Prod.snd).getD 0

/-- `nibble_data.total`, 0 when there is no data yet. -/
def storedTotal (s : State) : ℚ :=
  ((s.channel.bind Channel.nibbleData).map NibbleData.total).getD 0

/-- `nibble_data.total` when `do_billing` returns: of the data it worked on, also when that is new
and the channel is hung up, so that it is not stored. -/
def recordTotal (e : Env) (s : State) : ℚ :=
  match s.channel with
  | none => storedTotal s
  | some c =>
    match c.nibbleRate, c.nibbleAccount, c.profile with
    | some billrate, some billaccount, some profile =>
      if profile.answered < 1 ∨ (c.nibbleData.any fun d => decide (d.pausets > 0)) then storedTotal s
      else
        (billSinceLast e billrate billaccount (c.nibbleData.getD (NibbleData.start profile)) s).1.total
    | _, _, _ => storedTotal s

def hungUp (s : State) : Bool := s.channel.any Channel.csHangup

/-- The total that a bill starts from. -/
lemma storedTotal_eq (hc : s.channel = some c) (profile : CallerProfile) :
    storedTotal s = (c.nibbleData.getD (NibbleData.start profile)).total := by
  rw [storedTotal, hc]
  cases hd : c.nibbleData with
  | none => simp [hd, NibbleData.start]
  | some d => simp [hd]

section Bill

variable {d : NibbleData} {billrate : ℚ} {billaccount : String} {profile : CallerProfile}

lemma bills_billSinceLast (s : State) :
    (billSinceLast e billrate billaccount d s).2.bills = s.bills ++
      if d.lastts ≤ e.now then [⟨billaccount, d.due billrate e.now, e.updates⟩] else [] := by
  by_cases hts : d.lastts ≤ e.now
  · rw [billSinceLast_of_le hts, if_pos hts]
  · rw [billSinceLast_of_lt (not_le.mp hts), if_neg hts, List.append_nil]

lemma billRunning_bills (hc : s.channel = some c) :
    (billRunning g e c billrate billaccount profile s).bills
      = (billSinceLast e billrate billaccount (c.nibbleData.getD (NibbleData.start profile))
        s).2.bills := by
  set billed := billSinceLast e billrate billaccount
    (c.nibbleData.getD (NibbleData.start profile)) s with hbilled
  have hchannel : billed.2.channel = some c := by rw [hbilled, billSinceLast_channel, hc]
  have hwritten : (setNibbleData billed.1 billed.2).channel
      = some { c with nibbleData := some billed.1 } := by
    rw [setNibbleData_channel, hchannel, Option.map_some]
  simp only [billRunning, ← hbilled]
  split_ifs
  · rfl
  · rfl
  · rw [saveAndCheckBalance_bills _ hwritten]
    rfl
  · rw [saveAndCheckBalance_bills _ hchannel]

/-- The data is stored while the call goes on. -/
lemma billRunning_channel (hc : s.channel = some c) (hup : c.csHangup = false) :
    ∃ d', (billRunning g e c billrate billaccount profile s).channel
        = some { c with nibbleData := some d' } ∧
      d'.total = (billSinceLast e billrate billaccount
        (c.nibbleData.getD (NibbleData.start profile)) s).1.total := by
  set billed := billSinceLast e billrate billaccount
    (c.nibbleData.getD (NibbleData.start profile)) s with hbilled
  have hchannel : billed.2.channel = some c := by rw [hbilled, billSinceLast_channel, hc]
  have hwritten : (setNibbleData billed.1 billed.2).channel
      = some { c with nibbleData := some billed.1 } := by
    rw [setNibbleData_channel, hchannel, Option.map_some]
  have htotal : ∀ ts, (billed.1.pausedAt ts).total = billed.1.total := fun ts => by
    unfold NibbleData.pausedAt
    split <;> rfl
  refine ⟨if getBalance e < g.nobalAmt then billed.1.pausedAt e.pauseNow else billed.1, ?_, ?_⟩
  · simp only [billRunning, ← hbilled]
    rw [if_neg (show ¬c.csHangup = true by rw [hup]; decide)]
    split
    · rw [saveAndCheckBalance_channel _ hwritten]
    · rw [saveAndCheckBalance_channel _ hchannel]
  · split
    · exact htotal _
    · rfl

/-- What it takes to bill: a rate, an account, an answered call, and no pause. -/
structure Bills (s : State) (c : Channel) (billrate : ℚ) (billaccount : String)
    (profile : CallerProfile) : Prop where
  channel : s.channel = some c
  rate : c.nibbleRate = some billrate
  account : c.nibbleAccount = some billaccount
  caller : c.profile = some profile
  running : ¬(profile.answered < 1 ∨ (c.nibbleData.any fun d => decide (d.pausets > 0)))

/-- Everything else returns before the bill. -/
lemma bills_or_returns (s : State) :
    (∃ c billrate billaccount profile, Bills s c billrate billaccount profile) ∨
      ∀ g e, doBilling g e s = s ∧ charge e.now s = none ∧ recordTotal e s = storedTotal s := by
  cases hc : s.channel with
  | none => exact Or.inr fun g e => by simp [doBilling, charge, recordTotal, hc]
  | some c =>
    cases hrate : c.nibbleRate with
    | none => exact Or.inr fun g e => by simp [doBilling, charge, recordTotal, hc, hrate]
    | some billrate =>
      cases haccount : c.nibbleAccount with
      | none =>
        exact Or.inr fun g e => by simp [doBilling, charge, recordTotal, hc, hrate, haccount]
      | some billaccount =>
        cases hprofile : c.profile with
        | none =>
          exact Or.inr fun g e => by
            simp [doBilling, charge, recordTotal, hc, hrate, haccount, hprofile]
        | some profile =>
          by_cases hreturns : profile.answered < 1 ∨
              (c.nibbleData.any fun d => decide (d.pausets > 0)) = true
          · refine Or.inr fun g e => ?_
            simp only [charge, recordTotal, doBilling, hc, hrate, haccount, hprofile,
              if_pos hreturns, and_true]
            split_ifs with hanswered hpaused
            · rfl
            · exact switchMutexUnlock_lock g s
            · exact absurd hreturns (not_or.mpr ⟨hanswered, hpaused⟩)
          · exact Or.inl ⟨c, billrate, billaccount, profile, hc, hrate, haccount, hprofile, hreturns⟩

namespace Bills

variable (h : Bills s c billrate billaccount profile)
include h

lemma doBilling : doBilling g e s = switchMutexUnlock g
    (billRunning g e c billrate billaccount profile (switchMutexLock g s)) := by
  have hrunning := not_or.mp h.running
  simp only [Nibblebill.doBilling, h.channel, h.rate, h.account, h.caller, if_neg hrunning.1]
  rw [if_neg hrunning.2]

lemma charge (ts : ℤ) : charge ts s =
    if (c.nibbleData.getD (NibbleData.start profile)).lastts ≤ ts then
      some (billaccount, (c.nibbleData.getD (NibbleData.start profile)).due billrate ts)
    else none := by
  simp only [Nibblebill.charge, h.channel, h.rate, h.account, h.caller]
  rw [if_neg h.running]

lemma recordTotal : recordTotal e s = (billSinceLast e billrate billaccount
    (c.nibbleData.getD (NibbleData.start profile)) s).1.total := by
  simp only [Nibblebill.recordTotal, h.channel, h.rate, h.account, h.caller]
  rw [if_neg h.running]

end Bills

end Bill

/-- **One bill** passes the amount due to the database, once. -/
theorem bills_doBilling (g : Globals) (e : Env) (s : State) : (doBilling g e s).bills = s.bills ++
    (charge e.now s).toList.map fun due => ⟨due.1, due.2, e.updates⟩ := by
  rcases bills_or_returns s with ⟨c, billrate, billaccount, profile, h⟩ | hreturns
  · have hlocked : (switchMutexLock g s).channel = some c := by
      rw [switchMutexLock_channel, h.channel]
    rw [h.doBilling, switchMutexUnlock_bills, billRunning_bills hlocked, bills_billSinceLast,
      switchMutexLock_bills, h.charge]
    split_ifs <;> rfl
  · obtain ⟨hsame, hcharge, -⟩ := hreturns g e
    rw [hsame, hcharge]
    simp

/-- **One bill counts the amount due**, whatever becomes of the update. -/
theorem recordTotal_eq (e : Env) (s : State) :
    recordTotal e s = storedTotal s + amountDue e.now s := by
  rw [amountDue]
  rcases bills_or_returns s with ⟨c, billrate, billaccount, profile, h⟩ | hreturns
  · rw [h.recordTotal, h.charge, storedTotal_eq h.channel profile]
    split_ifs with hts
    · rw [billSinceLast_of_le hts]
      rfl
    · rw [billSinceLast_of_lt (not_le.mp hts)]
      simp
  · obtain ⟨-, hcharge, hrecord⟩ := hreturns ⟨false, 0⟩ e
    rw [hcharge, hrecord]
    simp

/-- **While the call goes on** a bill leaves the data with the total it counted. -/
theorem storedTotal_doBilling (hup : hungUp s = false) :
    storedTotal (doBilling g e s) = recordTotal e s ∧ hungUp (doBilling g e s) = false := by
  rcases bills_or_returns s with ⟨c, billrate, billaccount, profile, h⟩ | hreturns
  · have hlocked : (switchMutexLock g s).channel = some c := by
      rw [switchMutexLock_channel, h.channel]
    have hup' : c.csHangup = false := by simpa [hungUp, h.channel] using hup
    have hsame : ∀ s₁ : State, (billSinceLast e billrate billaccount
        (c.nibbleData.getD (NibbleData.start profile)) s₁).1
          = (billSinceLast e billrate billaccount
            (c.nibbleData.getD (NibbleData.start profile)) s).1 := fun s₁ => by
      rcases le_or_gt (c.nibbleData.getD (NibbleData.start profile)).lastts e.now with hts | hts
      · rw [billSinceLast_of_le hts, billSinceLast_of_le hts]
      · rw [billSinceLast_of_lt hts, billSinceLast_of_lt hts]
    obtain ⟨d', hchannel, htotal⟩ : ∃ d', (billRunning g e c billrate billaccount profile
        (switchMutexLock g s)).channel = some { c with nibbleData := some d' } ∧ d'.total = _ :=
      billRunning_channel hlocked hup'
    rw [hsame, ← h.recordTotal] at htotal
    rw [h.doBilling, storedTotal, hungUp, switchMutexUnlock_channel, hchannel]
    exact ⟨by simpa using htotal, hup'⟩
  · obtain ⟨hsame, -, hrecord⟩ := hreturns g e
    rw [hsame, hrecord]
    exact ⟨rfl, hup⟩

/-! ## The bills of a call -/

/-- The operations that run `do_billing`. -/
def Operation.bills : Operation → Bool
  | .heartbeat | .flush | .hangup => true
  | _ => false

/-- The state in which an operation runs `do_billing`. -/
def Operation.billedState : Operation → State → State
  | .hangup, s => enterHangup s
  | _, s => s

/-- What `do_billing` passes to the database in a run.  The manual adjustments of an account are
not part of the call's bill. -/
def callBills (g : Globals) : List (Operation × Env) → State → List Bill
  | [], _ => []
  | (op, e) :: rest, s =>
    match operate g op e s with
    | none => []
    | some s' => (if op.bills then s'.bills.drop s.bills.length else []) ++ callBills g rest s'

def amounts (bills : List Bill) : ℚ := (bills.map Bill.amount).sum

/-- The sum of the amounts whose UPDATE failed. -/
def failed (bills : List Bill) : ℚ := ((bills.filter fun b => !b.updated).map Bill.amount).sum

lemma amounts_append (l₁ l₂ : List Bill) : amounts (l₁ ++ l₂) = amounts l₁ + amounts l₂ := by
  simp [amounts]

lemma failed_append (l₁ l₂ : List Bill) : failed (l₁ ++ l₂) = failed l₁ + failed l₂ := by
  simp [failed]

lemma amounts_eq (bills : List Bill) : amounts bills = debited bills + failed bills := by
  induction bills with
  | nil => simp [amounts, debited, failed]
  | cons b bills ih =>
    have hcons : ∀ l : List Bill, b :: l = [b] ++ l := fun _ => rfl
    rw [hcons, amounts_append, debited_append, failed_append, ih]
    cases hb : b.updated <;> simp [amounts, debited, failed, hb] <;> ring

lemma charge_billedState (ts : ℤ) (op : Operation) (s : State) :
    charge ts (op.billedState s) = charge ts s := by
  cases op <;> try rfl
  rcases s with ⟨channel, depth, bills⟩
  cases channel <;> rfl

lemma storedTotal_billedState (op : Operation) (s : State) :
    storedTotal (op.billedState s) = storedTotal s := by
  cases op <;> try rfl
  rcases s with ⟨channel, depth, bills⟩
  cases channel <;> rfl

lemma operate_of_bills (hop : op.bills = true) :
    operate g op e s = some (doBilling g e (op.billedState s)) := by
  cases op <;> first | rfl | cases hop

/-- **The bill of an operation.** -/
lemma callBills_single (g : Globals) (op : Operation) (e : Env) (s : State) :
    callBills g [(op, e)] s = if op.bills then
      (charge e.now s).toList.map fun due => ⟨due.1, due.2, e.updates⟩ else [] := by
  by_cases hop : op.bills = true
  · have hbills : (op.billedState s).bills = s.bills := by cases op <;> rfl
    simp only [callBills, operate_of_bills hop, hop, if_true, List.append_nil]
    rw [bills_doBilling, hbills, List.drop_left, charge_billedState]
  · simp only [callBills, hop]
    cases operate g op e s <;> rfl

lemma callBills_append {s₁ : State} : ∀ {ops : List (Operation × Env)} {s : State},
    run g ops s = some s₁ → ∀ rest,
      callBills g (ops ++ rest) s = callBills g ops s ++ callBills g rest s₁
  | [], s, h, rest => by
    obtain rfl : s = s₁ := Option.some.inj h
    rfl
  | (op, e) :: ops, s, h, rest => by
    rw [run, Option.bind_eq_some_iff] at h
    obtain ⟨s', hstep, h⟩ := h
    simp only [List.cons_append, callBills, hstep]
    rw [callBills_append h rest, List.append_assoc]

/-- A run that does not return has no further bills. -/
lemma callBills_append_of_none (h : run g ops s = none) (rest : List (Operation × Env)) :
    callBills g (ops ++ rest) s = callBills g ops s := by
  induction ops generalizing s with
  | nil => cases h
  | cons op ops ih =>
    obtain ⟨op, e⟩ := op
    simp only [List.cons_append, callBills]
    cases hstep : operate g op e s with
    | none => rfl
    | some s' =>
      rw [run, hstep, Option.bind_some] at h
      simp only
      rw [ih h]

lemma amounts_single (hop : op.bills = true) :
    amounts (callBills g [(op, e)] s) = amountDue e.now s := by
  rw [callBills_single, if_pos hop, amountDue]
  cases charge e.now s <;> simp [amounts]

lemma failed_single (g : Globals) (op : Operation) (e : Env) (s : State) :
    failed (callBills g [(op, e)] s)
      = if op.bills = true ∧ e.updates = false then amountDue e.now s else 0 := by
  rw [callBills_single, amountDue]
  cases op.bills
  · rfl
  · cases hcharge : charge e.now s <;> cases hupdates : e.updates <;> simp [failed]

/-! ## Runs -/

lemma storedTotal_setNibbleData {d d' : NibbleData} (hc : s.channel = some c)
    (hd : c.nibbleData = some d) (htotal : d'.total = d.total) :
    storedTotal (setNibbleData d' s) = storedTotal s ∧
      hungUp (setNibbleData d' s) = hungUp s := by
  simp [storedTotal, hungUp, hc, hd, htotal]

/-- The other operations leave the total alone. -/
lemma storedTotal_operate (hop : op.bills = false) (h : operate g op e s = some s') :
    storedTotal s' = storedTotal s ∧ hungUp s' = hungUp s := by
  have htotal : ∀ (d : NibbleData) ts, (d.pausedAt ts).total = d.total := fun d ts => by
    unfold NibbleData.pausedAt
    split <;> rfl
  cases hc : s.channel with
  | none =>
    have hsame : s' = s := by
      cases op with
      | pause => exact (Option.some.inj h).symm.trans (by simp only [nibblebillPause, hc])
      | resume =>
        simp only [operate, nibblebillResume, hc] at h
        exact (Option.some.inj h).symm
      | reset => exact (Option.some.inj h).symm.trans (by simp only [nibblebillReset, hc])
      | adjust amount => exact (Option.some.inj h).symm.trans (by simp only [nibblebillAdjust, hc])
      | check => exact (Option.some.inj h).symm.trans (nibblebillCheck_state g s)
      | _ => cases hop
    rw [hsame]
    exact ⟨rfl, rfl⟩
  | some c =>
    cases op with
    | pause =>
      obtain rfl := Option.some.inj h
      cases hd : c.nibbleData with
      | none =>
        rw [nibblebillPause_of_noData _ hc hd]
        simp [storedTotal, hungUp]
      | some d =>
        rw [nibblebillPause_of_data _ hc hd]
        exact storedTotal_setNibbleData hc hd (htotal d _)
    | resume =>
      rw [operate] at h
      cases hd : c.nibbleData with
      | none =>
        rw [nibblebillResume_of_noData hc hd] at h
        obtain rfl := Option.some.inj h
        exact ⟨rfl, rfl⟩
      | some d =>
        cases hrate : c.nibbleRate with
        | none =>
          simp only [nibblebillResume, hc, hd, hrate] at h
          split_ifs at h
          obtain rfl := Option.some.inj h
          exact ⟨rfl, rfl⟩
        | some billrate =>
          rw [nibblebillResume_of_data hc hd hrate] at h
          obtain rfl := Option.some.inj h
          refine storedTotal_setNibbleData hc hd ?_
          unfold NibbleData.resumedAt
          split <;> rfl
    | reset =>
      obtain rfl := Option.some.inj h
      cases hd : c.nibbleData with
      | none =>
        rw [nibblebillReset_of_noData hc hd]
        exact ⟨rfl, rfl⟩
      | some d =>
        rw [nibblebillReset_of_data hc hd]
        exact storedTotal_setNibbleData hc hd rfl
    | adjust amount =>
      obtain rfl := Option.some.inj h
      simp only [nibblebillAdjust, hc]
      cases c.nibbleAccount with
      | none => exact ⟨rfl, rfl⟩
      | some billaccount =>
        simp only [billEvent_eq]
        exact ⟨rfl, rfl⟩
    | check =>
      obtain rfl := Option.some.inj h
      rw [nibblebillCheck_state]
      exact ⟨rfl, rfl⟩
    | _ => cases hop

/-- **The total of a call that goes on**: the sum of all amounts, debited or not. -/
theorem storedTotal_run {s₁ : State} : ∀ {ops : List (Operation × Env)} {s : State},
    hungUp s = false → (∀ op ∈ ops, op.1 ≠ .hangup) → run g ops s = some s₁ →
      storedTotal s₁ = storedTotal s + amounts (callBills g ops s) ∧ hungUp s₁ = false
  | [], s, hup, _, h => by
    obtain rfl : s = s₁ := Option.some.inj h
    exact ⟨by simp [amounts, callBills], hup⟩
  | (op, e) :: ops, s, hup, hops, h => by
    rw [run, Option.bind_eq_some_iff] at h
    obtain ⟨s', hstep, h⟩ := h
    have hfirst : run g [(op, e)] s = some s' := by rw [run, hstep]; rfl
    have hnext : storedTotal s' = storedTotal s + amounts (callBills g [(op, e)] s) ∧
        hungUp s' = false := by
      cases hop : op.bills with
      | true =>
        have hgoes : op.billedState s = s := by
          cases op <;> first | rfl | exact absurd rfl (hops _ List.mem_cons_self)
        rw [operate_of_bills hop, hgoes] at hstep
        obtain rfl := Option.some.inj hstep
        obtain ⟨htotal, hup'⟩ := storedTotal_doBilling (g := g) (e := e) hup
        exact ⟨by rw [htotal, recordTotal_eq, amounts_single hop], hup'⟩
      | false =>
        obtain ⟨htotal, hup'⟩ := storedTotal_operate hop hstep
        rw [callBills_single, hop]
        exact ⟨by simpa [amounts] using htotal, hup'.trans hup⟩
    obtain ⟨htotal, hup₁⟩ := storedTotal_run hnext.2
      (fun op' hop' => hops op' (List.mem_cons_of_mem _ hop')) h
    have hsplit := callBills_append hfirst ops
    rw [List.singleton_append] at hsplit
    exact ⟨by rw [htotal, hnext.1, hsplit, amounts_append, add_assoc], hup₁⟩

/-! ## The run in which no UPDATE fails -/

/-- The same moment with a database that executes the UPDATE. -/
def Env.succeeding (e : Env) : Env where
  now := e.now
  pauseNow := e.pauseNow
  odbcAvailable := true
  execSucceeds := true
  balance := if e.odbcAvailable then e.balance else none

def succeeding (ops : List (Operation × Env)) : List (Operation × Env) :=
  ops.map fun op => (op.1, op.2.succeeding)

def Bill.succeeded (b : Bill) : Bill := { b with updated := true }

/-- The state with every bill debited. -/
def State.succeeded (s : State) : State := { s with bills := s.bills.map Bill.succeeded }

lemma getBalance_succeeding (e : Env) : getBalance e.succeeding = getBalance e := by
  cases h : e.odbcAvailable <;> simp [getBalance, Env.succeeding, h]

lemma billEvent_succeeding (e : Env) (billamount : ℚ) (billaccount : String) (s : State) :
    billEvent e.succeeding billamount billaccount s.succeeded
      = (.success, (billEvent e billamount billaccount s).2.succeeded) := by
  rw [billEvent_eq, billEvent_eq]
  simp [State.succeeded, Bill.succeeded, Env.updates, Env.succeeding]

lemma lock_succeeded (g : Globals) (s : State) :
    switchMutexLock g s.succeeded = (switchMutexLock g s).succeeded := by
  unfold switchMutexLock
  split <;> rfl

lemma unlock_succeeded (g : Globals) (s : State) :
    switchMutexUnlock g s.succeeded = (switchMutexUnlock g s).succeeded := by
  unfold switchMutexUnlock
  split <;> rfl

lemma setNibbleData_succeeded (d : NibbleData) (s : State) :
    setNibbleData d s.succeeded = (setNibbleData d s).succeeded := rfl

lemma channel_succeeded (s : State) : s.succeeded.channel = s.channel := rfl

lemma nibblebillPause_succeeded (g : Globals) (ts : ℤ) (s : State) :
    nibblebillPause g ts s.succeeded = (nibblebillPause g ts s).succeeded := by
  simp only [nibblebillPause, channel_succeeded, lock_succeeded]
  split
  · rfl
  · split
    · rfl
    · split_ifs <;> simp only [setNibbleData_succeeded, unlock_succeeded]

lemma billSinceLast_succeeding (e : Env) (billrate : ℚ) (billaccount : String) (d : NibbleData)
    (s : State) : billSinceLast e.succeeding billrate billaccount d s.succeeded
      = ((billSinceLast e billrate billaccount d s).1,
        (billSinceLast e billrate billaccount d s).2.succeeded) := by
  have hnow : e.succeeding.now = e.now := rfl
  rcases le_or_gt d.lastts e.now with hts | hts
  · rw [billSinceLast_of_le hts, billSinceLast_of_le (hnow.symm ▸ hts)]
    simp [State.succeeded, Bill.succeeded, Env.updates, Env.succeeding]
  · rw [billSinceLast_of_lt hts, billSinceLast_of_lt (hnow.symm ▸ hts)]
    rfl

lemma saveAndCheckBalance_succeeding (g : Globals) (e : Env) (d : NibbleData) (s : State) :
    saveAndCheckBalance g e.succeeding d s.succeeded = (saveAndCheckBalance g e d s).succeeded := by
  simp only [saveAndCheckBalance, getBalance_succeeding, setNibbleData_succeeded]
  split_ifs
  · exact nibblebillPause_succeeded g e.pauseNow _
  · rfl

lemma billRunning_succeeding (g : Globals) (e : Env) (c : Channel) (billrate : ℚ)
    (billaccount : String) (profile : CallerProfile) (s : State) :
    billRunning g e.succeeding c billrate billaccount profile s.succeeded
      = (billRunning g e c billrate billaccount profile s).succeeded := by
  simp only [billRunning, billSinceLast_succeeding, setNibbleData_succeeded]
  split_ifs
  · rfl
  · rfl
  · exact saveAndCheckBalance_succeeding g e _ _
  · exact saveAndCheckBalance_succeeding g e _ _

lemma doBilling_succeeding (g : Globals) (e : Env) (s : State) :
    doBilling g e.succeeding s.succeeded = (doBilling g e s).succeeded := by
  simp only [doBilling, channel_succeeded]
  split
  · rfl
  · split
    · split_ifs <;> simp only [lock_succeeded, unlock_succeeded, billRunning_succeeding]
    · rfl

/-- **An operation runs alike**, whether its UPDATE fails or not. -/
theorem operate_succeeding (g : Globals) (op : Operation) (e : Env) (s : State) :
    operate g op e.succeeding s.succeeded = (operate g op e s).map State.succeeded := by
  cases op with
  | heartbeat => exact congrArg some (doBilling_succeeding g e s)
  | flush => exact congrArg some (doBilling_succeeding g e s)
  | pause => exact congrArg some (nibblebillPause_succeeded g e.now s)
  | resume =>
    simp only [operate, nibblebillResume, channel_succeeded]
    split
    · rfl
    · split
      · rfl
      · split_ifs
        · rfl
        · split
          · rfl
          · simp only [lock_succeeded, setNibbleData_succeeded, unlock_succeeded, Option.map_some]
            rfl
  | reset =>
    simp only [operate, nibblebillReset, channel_succeeded]
    split
    · rfl
    · split
      · rfl
      · simp only [lock_succeeded, setNibbleData_succeeded, unlock_succeeded, Option.map_some]
        rfl
  | adjust amount =>
    simp only [operate, nibblebillAdjust, channel_succeeded]
    split
    · rfl
    · split
      · rfl
      · simp only [billEvent_succeeding, Option.map_some]
  | check => simp only [operate, nibblebillCheck_state, Option.map_some]
  | hangup => exact congrArg some (doBilling_succeeding g e (enterHangup s))

lemma callBills_succeeding (g : Globals) : ∀ (ops : List (Operation × Env)) (s : State),
    callBills g (succeeding ops) s.succeeded = (callBills g ops s).map Bill.succeeded
  | [], _ => rfl
  | (op, e) :: ops, s => by
    have ih := callBills_succeeding g ops
    rw [succeeding] at ih
    simp only [succeeding, List.map_cons, callBills, operate_succeeding]
    cases operate g op e s with
    | none => rfl
    | some s' =>
      simp only [Option.map_some, ih, List.map_append]
      congr 1
      split_ifs
      · simp [State.succeeded]
      · rfl

lemma debited_succeeded (bills : List Bill) : debited (bills.map Bill.succeeded) = amounts bills := by
  induction bills with
  | nil => simp [debited, amounts]
  | cons b bills ih =>
    have hcons : ∀ l : List Bill, b :: l = [b] ++ l := fun _ => rfl
    rw [hcons, List.map_append, debited_append, amounts_append, ih]
    simp [debited, amounts, Bill.succeeded]

/-! ## Is anything lost? -/

/-- After each `do_billing` the total is the sum of the amounts debited; and after each one that
debits, as much is debited as if no UPDATE had failed, so what failed before is in it. -/
def LosesNothing (g : Globals) (ops : List (Operation × Env)) (s : State) : Prop :=
  ∀ earlier op e later s₁, ops = earlier ++ (op, e) :: later → op.bills = true →
    run g earlier s = some s₁ →
      recordTotal e (op.billedState s₁) = debited (callBills g (earlier ++ [(op, e)]) s) ∧
      (e.updates = true → charge e.now s₁ ≠ none →
        debited (callBills g (earlier ++ [(op, e)]) s)
          = debited (callBills g (succeeding (earlier ++ [(op, e)])) s))

/-- An UPDATE fails only when nothing is due. -/
def FailsForNothing (g : Globals) (ops : List (Operation × Env)) (s : State) : Prop :=
  ∀ earlier op e later s₁, ops = earlier ++ (op, e) :: later → op.bills = true →
    e.updates = false → run g earlier s = some s₁ → amountDue e.now s₁ = 0

/-- The amounts that failed, up to each moment of a run. -/
lemma failed_snoc {s₁ : State} (hrun : run g earlier s = some s₁) :
    failed (callBills g (earlier ++ [(op, e)]) s) = failed (callBills g earlier s)
      + if op.bills = true ∧ e.updates = false then amountDue e.now s₁ else 0 := by
  rw [callBills_append hrun, failed_append, failed_single]

lemma FailsForNothing.failed_eq_zero (h : FailsForNothing g ops s) :
    ∀ earlier, earlier <+: ops → failed (callBills g earlier s) = 0 := by
  intro earlier
  induction earlier using List.reverseRecOn with
  | nil => intro _; simp [callBills, failed]
  | append_singleton earlier op ih =>
    rintro ⟨later, hops⟩
    have hzero := ih ⟨op :: later, by rw [← hops, List.append_assoc]; rfl⟩
    obtain ⟨op, e⟩ := op
    cases hrun : run g earlier s with
    | none => rw [callBills_append_of_none hrun, hzero]
    | some s₁ =>
      rw [failed_snoc hrun, hzero, zero_add]
      split_ifs with hfails
      · exact h earlier op e later s₁ (by rw [← hops, List.append_assoc]; rfl) hfails.1 hfails.2 hrun
      · rfl

/-- The total of `do_billing` in a run is short of the amounts that failed. -/
lemma recordTotal_run {s₁ : State} (hnew : storedTotal s = 0) (hup : hungUp s = false)
    (hgoes : ∀ op ∈ earlier, op.1 ≠ .hangup) (hop : op.bills = true)
    (hrun : run g earlier s = some s₁) : recordTotal e (op.billedState s₁)
      = debited (callBills g (earlier ++ [(op, e)]) s)
        + failed (callBills g (earlier ++ [(op, e)]) s) := by
  obtain ⟨htotal, -⟩ := storedTotal_run hup hgoes hrun
  rw [hnew, zero_add] at htotal
  have hdue : amountDue e.now (op.billedState s₁) = amountDue e.now s₁ := by
    rw [amountDue, charge_billedState, amountDue]
  rw [← amounts_eq, recordTotal_eq, storedTotal_billedState, htotal, hdue, callBills_append hrun,
    amounts_append, amounts_single hop]

/-- **Failed updates.**  In the run of a call, with the hangup at its end if there is one, nothing
is lost if and only if an UPDATE fails only when nothing is due. -/
theorem losesNothing_iff (g : Globals) (c : Channel) (depth : ℤ) (ops : List (Operation × Env))
    (hnew : c.nibbleData = none) (hup : c.csHangup = false)
    (hlast : ∀ op ∈ ops.dropLast, op.1 ≠ .hangup) :
    LosesNothing g ops ⟨some c, depth, []⟩ ↔ FailsForNothing g ops ⟨some c, depth, []⟩ := by
  set s : State := ⟨some c, depth, []⟩ with hs
  have htotal : storedTotal s = 0 := by simp [storedTotal, hs, hnew]
  have hgoes : ∀ {earlier op later}, ops = earlier ++ op :: later →
      ∀ op' ∈ earlier, op'.1 ≠ .hangup := by
    rintro earlier op later rfl op' hmem
    refine hlast op' ?_
    rw [List.dropLast_append_of_ne_nil (List.cons_ne_nil op later)]
    exact List.mem_append_left _ hmem
  constructor
  · intro h
    -- whatever the operation, what failed so far comes to nothing
    have hzero : ∀ earlier, earlier <+: ops → failed (callBills g earlier s) = 0 := by
      intro earlier
      induction earlier using List.reverseRecOn with
      | nil => intro _; simp [callBills, failed]
      | append_singleton earlier op ih =>
        rintro ⟨later, hops⟩
        have hops' : ops = earlier ++ op :: later := by rw [← hops, List.append_assoc]; rfl
        have hearlier := ih ⟨op :: later, hops'.symm⟩
        obtain ⟨op, e⟩ := op
        cases hrun : run g earlier s with
        | none => rw [callBills_append_of_none hrun, hearlier]
        | some s₁ =>
          cases hop : op.bills with
          | true =>
            have hrecord := recordTotal_run (e := e) htotal hup (hgoes hops') hop hrun
            have hdebited := (h earlier op e later s₁ hops' hop hrun).1
            rw [hdebited] at hrecord
            linarith
          | false => rw [failed_snoc hrun, hearlier, hop]; simp
    intro earlier op e later s₁ hops hop hfails hrun
    have hsnoc : failed (callBills g (earlier ++ [(op, e)]) s) = _ := failed_snoc hrun
    rw [hzero _ ⟨later, by rw [hops, List.append_assoc]; rfl⟩,
      hzero earlier ⟨(op, e) :: later, hops.symm⟩, if_pos ⟨hop, hfails⟩, zero_add] at hsnoc
    exact hsnoc.symm
  · intro h earlier op e later s₁ hops hop hrun
    have hzero := h.failed_eq_zero (earlier ++ [(op, e)])
      ⟨later, by rw [hops, List.append_assoc]; rfl⟩
    have hrecord := recordTotal_run (e := e) htotal hup (hgoes hops) hop hrun
    refine ⟨by rw [hrecord, hzero, add_zero], fun _ _ => ?_⟩
    have hsame : s.succeeded = s := rfl
    have htwin := callBills_succeeding g (earlier ++ [(op, e)]) s
    rw [hsame] at htwin
    rw [htwin, debited_succeeded, amounts_eq, hzero, add_zero]

/-- A moment with a database that does not execute the UPDATE. -/
def failingAt (now : ℤ) : Env := { momentAt now with execSucceeds := false }

/-- A bill at the moment of the answer, when nothing is due, whose UPDATE fails. -/
theorem losesNothing_answer :
    LosesNothing ⟨true, 0⟩ [(.heartbeat, failingAt 1), (.hangup, momentAt 5)]
      ⟨some answeredAtOne, 0, []⟩ := by
  refine (losesNothing_iff ⟨true, 0⟩ answeredAtOne 0 _ rfl rfl (by decide)).mpr ?_
  intro earlier op e later s₁ hops hop hfails hrun
  cases earlier with
  | nil =>
    obtain ⟨hfirst, -⟩ := List.cons.inj hops
    obtain ⟨rfl, rfl⟩ := Prod.mk.inj hfirst
    obtain rfl := Option.some.inj hrun
    with_unfolding_all decide
  | cons first earlier =>
    cases earlier with
    | nil =>
      obtain ⟨-, hrest⟩ := List.cons.inj hops
      obtain ⟨rfl, rfl⟩ := Prod.mk.inj (List.cons.inj hrest).1
      cases hfails
    | cons second earlier => simp at hops

/-- Four microseconds are billed once, to a database that fails. -/
theorem not_losesNothing : ¬∀ (g : Globals) (c : Channel) (depth : ℤ)
    (ops : List (Operation × Env)), c.nibbleData = none → c.csHangup = false →
    (∀ op ∈ ops.dropLast, op.1 ≠ .hangup) → LosesNothing g ops ⟨some c, depth, []⟩ := by
  intro h
  have hloses := h ⟨true, 0⟩ answeredAtOne 0 [(.heartbeat, failingAt 5)] rfl rfl (by decide)
  have htotal := (hloses [] .heartbeat (failingAt 5) [] _ rfl rfl rfl).1
  exact absurd htotal (by with_unfolding_all decide)

end FreeswitchContrib.Nibblebill
