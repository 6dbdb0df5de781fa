import Mathlib.Algebra.Order.Field.Rat
import Mathlib.Algebra.BigOperators.Group.List.Basic

/-!
# The billing operations of mod_nibblebill

The module bills a call at a rate per minute: heartbeats and flushes bill the time since the last
bill, a pause stops the clock until the resume, and the hangup bills what is left.  What it knows
about a call is the `NibbleData` kept on the channel as the private `_nibble_data_`.

Amounts are exact rationals where the source has `float` and `double`.  What an operation learns
from outside (the clock, the database) is its `Env`; `transfer_call` leaves the module's state alone
and is not modelled, nor are the log and the channel variable `nibble_total_billed`.
-/

namespace FreeswitchContrib.Nibblebill

/-- `nibble_data_t`: times in microseconds, `pausets` 0 when the billing is not paused. -/
structure NibbleData where
  lastts : ℤ
  total : ℚ
  pausets : ℤ
  billAdjustments : ℚ
deriving DecidableEq

/-- The answer time of the caller profile, 0 when the call is not answered. -/
structure CallerProfile where
  answered : ℤ
deriving DecidableEq

/-- What the module reads of a channel.  `nibbleRate` is the value `atof` reads from the variable
`nibble_rate`, `csHangup` says that the channel's state is `CS_HANGUP`. -/
structure Channel where
  nibbleRate : Option ℚ
  nibbleAccount : Option String
  profile : Option CallerProfile
  csHangup : Bool
  nibbleData : Option NibbleData
deriving DecidableEq

/-- One call of `bill_event`, and whether its UPDATE was executed. -/
structure Bill where
  account : String
  amount : ℚ
  updated : Bool
deriving DecidableEq

/-- A session (no channel when there is no session), the nesting depth of the module mutex held by
the calling thread, and the bills so far. -/
structure State where
  channel : Option Channel
  lockDepth : ℤ
  bills : List Bill
deriving DecidableEq

/-- The globals: whether the mutex was initialised, and the balance that must remain. -/
structure Globals where
  mutex : Bool
  nobalAmt : ℚ

/-- What one operation reads from outside: the clock, the clock again in a nested pause, and the
answers of the database. -/
structure Env where
  now : ℤ
  pauseNow : ℤ
  odbcAvailable : Bool
  execSucceeds : Bool
  balance : Option ℚ

inductive SwitchStatus where
  | success
  | false
deriving DecidableEq

def switchMutexLock (g : Globals) (s : State) : State :=
  if g.mutex then { s with lockDepth := s.lockDepth + 1 } else s

def switchMutexUnlock (g : Globals) (s : State) : State :=
  if g.mutex then { s with lockDepth := s.lockDepth - 1 } else s

/-- A write through the pointer `nibble_data`, and `switch_channel_set_private`. -/
def setNibbleData (d : NibbleData) (s : State) : State :=
  { s with channel := s.channel.map fun c => { c with nibbleData := some d } }

/-- `bill_event`: a failed query is logged and still reported as a success. -/
def billEvent (e : Env) (billamount : ℚ) (billaccount : String) (s : State) :
    SwitchStatus × State :=
  if !e.odbcAvailable then
    (.success, { s with bills := s.bills ++ [⟨billaccount, billamount, false⟩] })
  else
    (.success, { s with bills := s.bills ++ [⟨billaccount, billamount, e.execSucceeds⟩] })

/-- `get_balance`: -1 when the database cannot be asked. -/
def getBalance (e : Env) : ℚ :=
  if !e.odbcAvailable then -1
  else
    match e.balance with
    | none => -1
    | some balance => balance

/-- `nibblebill_pause`. -/
def nibblebillPause (g : Globals) (ts : ℤ) (s : State) : State :=
  match s.channel with
  | none => s
  | some c =>
    let s := switchMutexLock g s
    match c.nibbleData with
    | none => s -- "Can't pause": this return does not unlock
    | some d =>
      let s := if d.pausets = 0 then setNibbleData { d with pausets := ts } s else s
      switchMutexUnlock g s

/-- The data of a call that is billed for the first time. -/
def NibbleData.start (profile : CallerProfile) : NibbleData where
  lastts := profile.answered
  total := 0
  pausets := 0
  billAdjustments := 0

/-- The rate per minute as a rate per microsecond. -/
def perMicrosecond (billrate : ℚ) : ℚ :=
  billrate / 1000000 / 60

/-- The part of `do_billing` that bills the time since the last bill. -/
def billSinceLast (e : Env) (billrate : ℚ) (billaccount : String) (d : NibbleData) (s : State) :
    NibbleData × State :=
  let ts := e.now
  let (d, s) :=
    if ts - d.lastts ≥ 0 then
      let billamount := perMicrosecond billrate * ((ts - d.lastts : ℤ) : ℚ) - d.billAdjustments
      match billEvent e billamount billaccount s with
      | (.success, s) => ({ d with total := d.total + billamount, billAdjustments := 0 }, s)
      | (.false, s) => (d, s)
    else (d, s)
  ({ d with lastts := ts }, s)

/-- The part of `do_billing` for a call that goes on: the data is saved, and a call whose balance is
too low is paused before it is transferred. -/
def saveAndCheckBalance (g : Globals) (e : Env) (d : NibbleData) (s : State) : State :=
  let s := setNibbleData d s
  if getBalance e < g.nobalAmt then nibblebillPause g e.pauseNow s else s

/-- The part of `do_billing` for an answered call that is not paused, under the lock. -/
def billRunning (g : Globals) (e : Env) (c : Channel) (billrate : ℚ) (billaccount : String)
    (profile : CallerProfile) (s : State) : State :=
  let d := c.nibbleData.getD (NibbleData.start profile)
  let billed := billSinceLast e billrate billaccount d s
  -- data already on the channel is written in place, new data only while the call goes on
  let s := if c.nibbleData.isSome then setNibbleData billed.1 billed.2 else billed.2
  if c.csHangup then s else saveAndCheckBalance g e billed.1 s

/-- `do_billing`. -/
def doBilling (g : Globals) (e : Env) (s : State) : State :=
  match s.channel with
  | none => s
  | some c =>
    match c.nibbleRate, c.nibbleAccount, c.profile with
    | some billrate, some billaccount, some profile =>
      if profile.answered < 1 then s
      else
        let s := switchMutexLock g s
        if c.nibbleData.any fun d => decide (d.pausets > 0) then switchMutexUnlock g s
        else switchMutexUnlock g (billRunning g e c billrate billaccount profile s)
    | _, _, _ => s

/-- `nibblebill_resume`; `none` is `atof` of a missing `nibble_rate`, which does not return. -/
def nibblebillResume (g : Globals) (e : Env) (s : State) : Option State :=
  match s.channel with
  | none => some s
  | some c =>
    match c.nibbleData with
    | none => some s
    | some d =>
      if d.pausets = 0 then some s
      else
        let s := switchMutexLock g s
        match c.nibbleRate with
        | none => none
        | some billrate =>
          let lost := perMicrosecond billrate * ((e.now - d.pausets : ℤ) : ℚ)
          let s := setNibbleData
            { d with billAdjustments := d.billAdjustments + lost, pausets := 0 } s
          some (switchMutexUnlock g s)

/-- `nibblebill_reset`. -/
def nibblebillReset (g : Globals) (e : Env) (s : State) : State :=
  match s.channel with
  | none => s
  | some c =>
    match c.nibbleData with
    | none => s
    | some d =>
      let s := switchMutexLock g s
      let s := setNibbleData { d with lastts := e.now } s
      switchMutexUnlock g s

/-- `nibblebill_check`: the total billed so far. -/
def nibblebillCheck (g : Globals) (s : State) : ℚ × State :=
  match s.channel with
  | none => (-99999, s)
  | some c =>
    match c.nibbleData with
    | none => (-99999, s)
    | some d =>
      let s := switchMutexLock g s
      let amount := d.total
      (amount, switchMutexUnlock g s)

/-- `nibblebill_adjust`: the bill is the opposite of the amount added to the account. -/
def nibblebillAdjust (e : Env) (amount : ℚ) (s : State) : State :=
  match s.channel with
  | none => s
  | some c =>
    match c.nibbleAccount with
    | none => s
    | some billaccount => (billEvent e (-amount) billaccount s).2

/-- `process_hangup`: the call of `nibblebill_resume` is commented out in the source. -/
def processHangup (g : Globals) (e : Env) (s : State) : State :=
  doBilling g e s

/-- The operations of the module on one session.  A heartbeat is the event, a flush the command. -/
inductive Operation where
  | heartbeat
  | flush
  | pause
  | resume
  | reset
  | adjust (amount : ℚ)
  | check
  | hangup
deriving DecidableEq

/-- The core runs the hangup handler on a channel whose state is `CS_HANGUP`. -/
def enterHangup (s : State) : State :=
  { s with channel := s.channel.map fun c => { c with csHangup := true } }

/-- One operation; `none` when it does not return. -/
def operate (g : Globals) (op : Operation) (e : Env) (s : State) : Option State :=
  match op with
  | .heartbeat => some (doBilling g e s)
  | .flush => some (doBilling g e s)
  | .pause => some (nibblebillPause g e.now s)
  | .resume => nibblebillResume g e s
  | .reset => some (nibblebillReset g e s)
  | .adjust amount => some (nibblebillAdjust e amount s)
  | .check => some (nibblebillCheck g s).2
  | .hangup => some (processHangup g e (enterHangup s))

/-- A run of operations, one after the other. -/
def run (g : Globals) : List (Operation × Env) → State → Option State
  | [], s => some s
  | (op, e) :: rest, s => (operate g op e s).bind (run g rest)

/-- The sum of all amounts debited: those whose UPDATE was executed. -/
def debited (bills : List Bill) : ℚ :=
  ((bills.filter Bill.updated).map Bill.amount).sum

/-! ## Small lemmas -/

@[simp] lemma switchMutexLock_channel (g : Globals) (s : State) :
    (switchMutexLock g s).channel = s.channel := by
  unfold switchMutexLock
  split <;> rfl

@[simp] lemma switchMutexUnlock_channel (g : Globals) (s : State) :
    (switchMutexUnlock g s).channel = s.channel := by
  unfold switchMutexUnlock
  split <;> rfl

@[simp] lemma switchMutexLock_bills (g : Globals) (s : State) :
    (switchMutexLock g s).bills = s.bills := by
  unfold switchMutexLock
  split <;> rfl

@[simp] lemma switchMutexUnlock_bills (g : Globals) (s : State) :
    (switchMutexUnlock g s).bills = s.bills := by
  unfold switchMutexUnlock
  split <;> rfl

@[simp] lemma switchMutexUnlock_lock (g : Globals) (s : State) :
    switchMutexUnlock g (switchMutexLock g s) = s := by
  cases hm : g.mutex <;> simp [switchMutexUnlock, switchMutexLock, hm]

@[simp] lemma switchMutexUnlock_setNibbleData_lock (g : Globals) (d : NibbleData) (s : State) :
    switchMutexUnlock g (setNibbleData d (switchMutexLock g s)) = setNibbleData d s := by
  cases hm : g.mutex <;> simp [switchMutexUnlock, switchMutexLock, setNibbleData, hm]

@[simp] lemma setNibbleData_lockDepth (d : NibbleData) (s : State) :
    (setNibbleData d s).lockDepth = s.lockDepth := rfl

@[simp] lemma setNibbleData_bills (d : NibbleData) (s : State) :
    (setNibbleData d s).bills = s.bills := rfl

@[simp] lemma setNibbleData_channel (d : NibbleData) (s : State) :
    (setNibbleData d s).channel = s.channel.map fun c => { c with nibbleData := some d } := rfl

/-- Whether an UPDATE sent now is executed. -/
def Env.updates (e : Env) : Bool :=
  e.odbcAvailable && e.execSucceeds

/-- Every call of `bill_event` is a success, whatever the database says. -/
lemma billEvent_eq (e : Env) (billamount : ℚ) (billaccount : String) (s : State) :
    billEvent e billamount billaccount s
      = (.success, { s with bills := s.bills ++ [⟨billaccount, billamount, e.updates⟩] }) := by
  cases h : e.odbcAvailable <;> simp [billEvent, Env.updates, h]

/-- The amount due for the time since the last bill. -/
def NibbleData.due (d : NibbleData) (billrate : ℚ) (ts : ℤ) : ℚ :=
  perMicrosecond billrate * ((ts - d.lastts : ℤ) : ℚ) - d.billAdjustments

lemma billSinceLast_of_le {e : Env} {d : NibbleData} (h : d.lastts ≤ e.now) (billrate : ℚ)
    (billaccount : String) (s : State) :
    billSinceLast e billrate billaccount d s
      = (⟨e.now, d.total + d.due billrate e.now, d.pausets, 0⟩,
        { s with bills := s.bills ++ [⟨billaccount, d.due billrate e.now, e.updates⟩] }) := by
  have hts : e.now - d.lastts ≥ 0 := by omega
  simp only [billSinceLast, if_pos hts, billEvent_eq, NibbleData.due]

/-- A clock that went back bills nothing. -/
lemma billSinceLast_of_lt {e : Env} {d : NibbleData} (h : e.now < d.lastts) (billrate : ℚ)
    (billaccount : String) (s : State) :
    billSinceLast e billrate billaccount d s = ({ d with lastts := e.now }, s) := by
  have hts : ¬e.now - d.lastts ≥ 0 := by omega
  simp only [billSinceLast, if_neg hts]

@[simp] lemma billSinceLast_lockDepth (e : Env) (billrate : ℚ) (billaccount : String)
    (d : NibbleData) (s : State) :
    (billSinceLast e billrate billaccount d s).2.lockDepth = s.lockDepth := by
  rcases le_or_gt d.lastts e.now with h | h
  · rw [billSinceLast_of_le h]
  · rw [billSinceLast_of_lt h]

@[simp] lemma billSinceLast_channel (e : Env) (billrate : ℚ) (billaccount : String)
    (d : NibbleData) (s : State) :
    (billSinceLast e billrate billaccount d s).2.channel = s.channel := by
  rcases le_or_gt d.lastts e.now with h | h
  · rw [billSinceLast_of_le h]
  · rw [billSinceLast_of_lt h]

lemma run_append (g : Globals) : ∀ (ops rest : List (Operation × Env)) (s : State),
    run g (ops ++ rest) s = (run g ops s).bind (run g rest)
  | [], _, _ => rfl
  | (op, e) :: ops, rest, s => by
    simp only [List.cons_append, run]
    cases operate g op e s with
    | none => rfl
    | some s' => exact run_append g ops rest s'

lemma debited_append (l₁ l₂ : List Bill) : debited (l₁ ++ l₂) = debited l₁ + debited l₂ := by
  simp [debited]

end FreeswitchContrib.Nibblebill
