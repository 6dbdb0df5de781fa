import FreeswitchContrib.Library.Interleaving
import FreeswitchContrib.VoicemailOriginate.UserProfiles

/-!
# Originating voicemail callbacks

The table of `mod_voicemail_originate` and those who work on it: the poll tick of the runtime
thread, the threads that it starts, the state handlers of the channels, and the events about new
messages.  A step is one statement of the database, one call of the core that takes time, or what a
thread does between two of them.  What the database and the core answer comes with the action.

An attempt is a thread with its user profile and, once the call is answered, its channel.  Reading a
user profile that was freed, or a string of a pool that was destroyed, is a fault; the step goes on
with what was there.
-/

namespace FreeswitchContrib.VoicemailOriginate

abbrev Account := Text × Text

/-! ## The queue -/

/-- `originate_state` -/
inductive OriginateState where
  | waitForNextAttempt
  | callInProgress
  deriving DecidableEq

/-- A row of `voicemail_originate`, and how often its user was called since it was inserted. -/
structure Row where
  account : Account
  originateState : OriginateState := .waitForNextAttempt
  created : ℤ
  nextAttempt : ℤ
  attemptCount : ℕ := 0
  calls : ℕ := 0
  deriving DecidableEq

/-- The statements, and the originate call, which the rows only count. -/
inductive Change where
  | delete (account : Account)
  | claim (account : Account)
  | requeue (account : Account) (nextAttempt : ℤ)
  | insert (account : Account) (created nextAttempt : ℤ)
  | call (account : Account)

/-- `UPDATE … WHERE vm_user = … and vm_domain = …` -/
def updateRows (account : Account) (f : Row → Row) (rows : List Row) : List Row :=
  rows.map fun row => if row.account = account then f row else row

def Change.exec (rows : List Row) : Change → List Row
  | .delete account => rows.filter (·.account ≠ account)
  | .claim account =>
    updateRows account (fun row => { row with
      originateState := .callInProgress, attemptCount := row.attemptCount + 1 }) rows
  | .requeue account nextAttempt =>
    updateRows account (fun row => { row with
      originateState := .waitForNextAttempt, nextAttempt := nextAttempt }) rows
  | .insert account created nextAttempt =>
    rows ++ [{ account := account, created := created, nextAttempt := nextAttempt }]
  | .call account => updateRows account (fun row => { row with calls := row.calls + 1 }) rows

/-- The rows that the runtime thread selects. -/
def due (now : ℤ) (rows : List Row) : List Row :=
  rows.filter fun row => row.nextAttempt ≤ now ∧ row.originateState = .waitForNextAttempt

/-- A statement changes the table when it is executed. -/
def statement (executed : Bool) (change : Change) : List Change :=
  if executed then [change] else []

/-! ## Attempts -/

/-- `switch_channel_state_t` -/
inductive ChannelState where
  | new
  | init
  | routing
  | softExecute
  | execute
  | exchangeMedia
  | park
  | consumeMedia
  | hibernate
  | reset
  | hangup
  | reporting
  | destroy
  deriving DecidableEq

namespace ChannelState

def isOver : ChannelState → Bool
  | hangup | reporting | destroy => true
  | _ => false

/-- The core takes a channel from `hangup` through `reporting` to `destroy`, and not back. -/
def canBecome : ChannelState → ChannelState → Bool
  | hangup, state => state = reporting
  | reporting, state => state = destroy
  | destroy, _ => false
  | _, state => state = hangup || !state.isOver

lemma canBecome_of_not_isOver {old state : ChannelState} (h : old.isOver = false)
    (hbecome : old.canBecome state = true) : state = hangup ∨ state.isOver = false := by
  cases old <;> simp_all [isOver, canBecome]

end ChannelState

/-- Where `originate_call_thread_run` is. -/
inductive Phase where
  /-- before `set_user_profile` -/
  | starting
  | deciding
  /-- before the DELETE that ends the attempt -/
  | removing
  /-- before the UPDATE to `CALL_IN_PROGRESS` -/
  | claiming
  | originating
  /-- in `switch_ivr_originate` -/
  | dialing
  /-- before the DELETE after a call that failed -/
  | dropping
  /-- before the UPDATE to `WAIT_FOR_NEXT_ATTEMPT` -/
  | requeueing
  /-- before the state handler is installed -/
  | answered
  | confirming
  /-- in `switch_ivr_play_file` -/
  | playing
  /-- in `switch_ivr_collect_digits_count` -/
  | collecting
  /-- before the digits are compared -/
  | comparing (buf : Text)
  | transferring
  /-- before the cause is logged -/
  | reporting
  | finished
  deriving DecidableEq

/-- Behind the call. -/
def Phase.isLate : Phase → Bool
  | .confirming | .playing | .collecting | .comparing _ | .transferring | .reporting | .finished =>
    true
  | _ => false

inductive Fault where
  | useAfterFree
  | doubleFree
  /-- a string in the pool of a configuration profile that was destroyed -/
  | releasedString (config : ℕ)
  deriving DecidableEq

/-- A thread with its `call_helper`, its user profile and its channel. -/
structure Attempt where
  account : Account
  attemptNumber : ℕ
  phase : Phase := .starting
  /-- whether `set_user_profile` returned a user profile -/
  allocated : Bool := false
  profile : UserProfile := .defaults
  numFreed : ℕ := 0
  channel : Option ChannelState := none
  /-- whether `state_handler` is installed -/
  hooked : Bool := false
  faults : List Fault := []
  deriving DecidableEq

/-- What the database and the core answer to a thread. -/
structure Outcome where
  now : ℤ
  /-- the UPDATE to `CALL_IN_PROGRESS` is executed -/
  claimed : Bool
  /-- `switch_ivr_originate` succeeds, with a session -/
  originated : Bool
  /-- what it leaves in `cause` -/
  cause : Cause
  /-- what `switch_ivr_collect_digits_count` returns -/
  confirmStatus : Status
  buf : Text
  /-- the last statement of the attempt is executed -/
  ended : Bool
  deriving DecidableEq

/-- The pool of a configuration profile that was destroyed. -/
def Str.releasedIn (released : ℕ → Bool) (s : Str) : Option ℕ :=
  match s.pool with
  | .config id => if released id then some id else none
  | _ => none

namespace Attempt

/-- `originate_callback` -/
def ofRow (row : Row) : Attempt where
  account := row.account
  attemptNumber := row.attemptCount

/-- The user profile is read, and these strings of it. -/
def access (released : ℕ → Bool) (strings : List Str) (attempt : Attempt) : Attempt :=
  { attempt with
    faults := attempt.faults ++ (if attempt.numFreed = 0 then [] else [.useAfterFree]) ++
      (strings.filterMap (·.releasedIn released)).map .releasedString }

def goto (attempt : Attempt) (phase : Phase) : Attempt := { attempt with phase := phase }

def setConfirmStatus (attempt : Attempt) (status : Status) : Attempt :=
  { attempt with profile := { attempt.profile with confirmStatus := status } }

def setCause (attempt : Attempt) (cause : Cause) : Attempt :=
  { attempt with profile := { attempt.profile with cause := cause } }

/-- `set_user_profile` has returned. -/
def prepare (attempt : Attempt) : Option UserProfile → Attempt
  | none => attempt.goto .removing
  | some profile => { attempt with allocated := true, profile := profile, phase := .deciding }

/-- The profile is enabled, there is an attempt left, and there is someone to call and somewhere to
transfer the call to. -/
def dials (profile : UserProfile) (attemptNumber : ℕ) : Bool :=
  profile.profileEnabled && !decide (profile.attempts ≤ attemptNumber) &&
    (!zstr profile.dialString && !zstr profile.transfer)

/-- Where a thread goes on with its user profile. -/
def decision (profile : UserProfile) (attemptNumber : ℕ) : Phase :=
  if profile.profileEnabled = false then .removing
  else if profile.attempts ≤ attemptNumber then .removing
  else if !zstr profile.dialString && !zstr profile.transfer then .claiming
  else .finished

/-- Where a thread goes on after a call that failed. -/
def afterFailure (profile : UserProfile) (attemptNumber : ℕ) : Cause → Phase
  | .originatorCancel => .dropping
  | .noAnswer => if profile.attempts ≤ attemptNumber + 1 then .dropping else .requeueing
  | _ => .reporting

/-- A step of `originate_call_thread_run` with its user profile. -/
def step (released : ℕ → Bool) (o : Outcome) (attempt : Attempt) :
    Option (Attempt × List Change) :=
  let profile := attempt.profile
  let account := attempt.account
  match attempt.phase with
  | .starting => none
  | .deciding =>
    let strings :=
      if profile.profileEnabled = false then []
      else if profile.attempts ≤ attempt.attemptNumber then profile.transfer.toList
      else profile.transfer.toList ++ profile.dialString.toList
    some ((attempt.access released strings).goto (decision profile attempt.attemptNumber), [])
  | .removing => some (attempt.goto .finished, statement o.ended (.delete account))
  | .claiming =>
    some (attempt.goto (if o.claimed then .originating else .finished),
      statement o.claimed (.claim account))
  | .originating =>
    let strings := profile.dialString.toList ++ [profile.callerName]
    let confirmStatus := if profile.enableConfirm then .failed else .success
    some ((((attempt.access released strings).setCause .normalClearing).setConfirmStatus
      confirmStatus).goto .dialing, [.call account])
  | .dialing =>
    -- The call has used its arguments until now, and a failure logs the dial string.
    let strings := profile.dialString.toList ++ [profile.callerName]
    let attempt := (attempt.access released strings).setCause o.cause
    if o.originated then
      some ({ attempt with channel := some .consumeMedia, phase := .answered }, [])
    else
      some (attempt.goto (afterFailure profile attempt.attemptNumber o.cause), [])
  | .dropping => some (attempt.goto .reporting, statement o.ended (.delete account))
  | .requeueing =>
    some ((attempt.access released []).goto .reporting,
      statement o.ended (.requeue account (o.now + profile.wait)))
  | .answered => some ({ attempt with hooked := true, phase := .confirming }, [])
  | .confirming =>
    if profile.enableConfirm then
      some ((attempt.access released [profile.confirmDigits, profile.confirmPlayFile]).goto
        .playing, [])
    else
      some ((attempt.access released []).goto .transferring, [])
  | .playing =>
    let played := if zstr (some profile.confirmPlayFile) then [] else [profile.confirmPlayFile]
    some ((attempt.access released (played ++ [profile.confirmDigits])).goto .collecting, [])
  | .collecting =>
    let confirmStatus := if o.confirmStatus = .timeout then .failed else o.confirmStatus
    some (((attempt.access released []).setConfirmStatus confirmStatus).goto
      (.comparing o.buf), [])
  | .comparing buf =>
    let attempt := attempt.access released [profile.confirmDigits]
    if buf = profile.confirmDigits.text then
      some (attempt.goto .transferring, [])
    else
      some ((attempt.setConfirmStatus .failed).goto .transferring, [])
  | .transferring => some (attempt.goto .reporting, [])
  | .reporting => some ((attempt.access released []).goto .finished, [])
  | .finished => none

/-- The state handler is removed, and `free_user_profile`. -/
def free (attempt : Attempt) : Attempt :=
  { attempt with
    hooked := false
    numFreed := attempt.numFreed + 1
    faults := attempt.faults ++ (if attempt.numFreed = 0 then [] else [.doubleFree]) }

/-- `state_handler` -/
def stateHandler (released : ℕ → Bool) (state : ChannelState) (executed : Bool) (now : ℤ)
    (attempt : Attempt) : Attempt × List Change :=
  let attempt := attempt.access released []
  let profile := attempt.profile
  if profile.attempts ≤ attempt.attemptNumber + 1 then
    (attempt.free, statement executed (.delete attempt.account))
  else if profile.confirmStatus = .success ∧ profile.cause = .success then
    (attempt.free, statement executed (.delete attempt.account))
  else if state = .hangup then
    (attempt.free, statement executed (.requeue attempt.account (now + profile.wait)))
  else
    (attempt, [])

/-- A state change of the channel.  With the session its state handler is gone. -/
def changeState (released : ℕ → Bool) (state : ChannelState) (executed : Bool) (now : ℤ)
    (attempt : Attempt) : Option (Attempt × List Change) :=
  match attempt.channel with
  | none => none
  | some old =>
    if old.canBecome state then
      let attempt := { attempt with channel := some state }
      let result :=
        if attempt.hooked then attempt.stateHandler released state executed now else (attempt, [])
      if state = .destroy then some ({ result.1 with hooked := false }, result.2) else some result
    else
      none

/-- The state handler gives the row up: the last attempt was made, or the call was confirmed. -/
def Done (attempt : Attempt) : Prop :=
  attempt.profile.attempts ≤ attempt.attemptNumber + 1 ∨
    attempt.profile.confirmStatus = .success ∧ attempt.profile.cause = .success

/-- What a state change can do. -/
inductive Changed (released : ℕ → Bool) (state : ChannelState) (executed : Bool) (now : ℤ)
    (attempt : Attempt) : Attempt → List Change → Prop
  | unhooked (hhooked : attempt.hooked = false) :
      Changed released state executed now attempt { attempt with channel := some state } []
  | removed (hhooked : attempt.hooked = true) (hdone : attempt.Done) :
      Changed released state executed now attempt
        { (attempt.access released []).free with channel := some state }
        (statement executed (.delete attempt.account))
  | requeued (hhooked : attempt.hooked = true) (hdone : ¬ attempt.Done) (hstate : state = .hangup) :
      Changed released state executed now attempt
        { (attempt.access released []).free with channel := some state }
        (statement executed (.requeue attempt.account (now + attempt.profile.wait)))
  | kept (hhooked : attempt.hooked = true) (hdone : ¬ attempt.Done) (hstate : state ≠ .hangup) :
      Changed released state executed now attempt
        { attempt.access released [] with
          channel := some state, hooked := decide (state ≠ .destroy) } []

lemma changeState_changed {released : ℕ → Bool} {state : ChannelState} {executed : Bool} {now : ℤ}
    {attempt attempt' : Attempt} {changes : List Change}
    (h : attempt.changeState released state executed now = some (attempt', changes)) :
    ∃ old, attempt.channel = some old ∧ old.canBecome state = true ∧
      Changed released state executed now attempt attempt' changes := by
  rw [changeState] at h
  cases hchannel : attempt.channel with
  | none =>
    rw [hchannel] at h
    cases h
  | some old =>
    simp only [hchannel] at h
    split_ifs at h with hbecome hdestroy hhooked hhooked
    · refine ⟨old, rfl, hbecome, ?_⟩
      simp only [Option.some.injEq, Prod.mk.injEq, stateHandler] at h
      obtain ⟨rfl, rfl⟩ := h
      split_ifs with hlimit hconfirmed hhangup
      · exact .removed hhooked (.inl hlimit)
      · exact .removed hhooked (.inr hconfirmed)
      · exact absurd (hdestroy.symm.trans hhangup) (by simp)
      · subst hdestroy
        exact .kept hhooked (not_or.mpr ⟨hlimit, hconfirmed⟩) hhangup
    · simp only [Bool.not_eq_true] at hhooked
      simp only [Option.some.injEq, Prod.mk.injEq] at h
      obtain ⟨rfl, rfl⟩ := h
      refine ⟨old, rfl, hbecome, ?_⟩
      rw [← hhooked]
      exact .unhooked hhooked
    · refine ⟨old, rfl, hbecome, ?_⟩
      simp only [stateHandler] at h
      split_ifs at h with hlimit hconfirmed hhangup <;>
        simp only [Option.some.injEq, Prod.mk.injEq] at h <;> obtain ⟨rfl, rfl⟩ := h
      · exact .removed hhooked (.inl hlimit)
      · exact .removed hhooked (.inr hconfirmed)
      · exact .requeued hhooked (not_or.mpr ⟨hlimit, hconfirmed⟩) hhangup
      · have hkept : Changed released state executed now attempt _ _ :=
          .kept hhooked (not_or.mpr ⟨hlimit, hconfirmed⟩) hhangup
        rw [decide_eq_true hdestroy, ← hhooked] at hkept
        exact hkept
    · simp only [Bool.not_eq_true] at hhooked
      simp only [Option.some.injEq, Prod.mk.injEq] at h
      obtain ⟨rfl, rfl⟩ := h
      exact ⟨old, rfl, hbecome, .unhooked hhooked⟩

/-- The thread is where it was, and the attempt the same. -/
lemma changeState_frame {released : ℕ → Bool} {state : ChannelState} {executed : Bool} {now : ℤ}
    {attempt attempt' : Attempt} {changes : List Change}
    (h : attempt.changeState released state executed now = some (attempt', changes)) :
    attempt'.phase = attempt.phase ∧ attempt'.account = attempt.account ∧
      attempt'.attemptNumber = attempt.attemptNumber := by
  obtain ⟨old, -, -, hchanged⟩ := changeState_changed h
  cases hchanged <;> exact ⟨rfl, rfl, rfl⟩

lemma decision_ne_starting (profile : UserProfile) (attemptNumber : ℕ) :
    decision profile attemptNumber ≠ .starting := by
  rw [decision]
  split_ifs <;> simp

lemma afterFailure_cases (profile : UserProfile) (attemptNumber : ℕ) (cause : Cause) :
    afterFailure profile attemptNumber cause = .dropping ∨
      afterFailure profile attemptNumber cause = .requeueing ∨
        afterFailure profile attemptNumber cause = .reporting := by
  cases cause with
  | noAnswer =>
    rw [afterFailure]
    split_ifs <;> simp
  | _ => simp [afterFailure]

/-- A thread does not begin again, and the attempt is the same. -/
lemma step_frame {released : ℕ → Bool} {o : Outcome} {attempt attempt' : Attempt}
    {changes : List Change} (h : attempt.step released o = some (attempt', changes)) :
    attempt'.phase ≠ .starting ∧ attempt'.account = attempt.account ∧
      attempt'.attemptNumber = attempt.attemptNumber := by
  cases hphase : attempt.phase with
  | starting | finished =>
    simp only [step, hphase] at h
    cases h
  | deciding =>
    simp only [step, hphase, Option.some.injEq, Prod.mk.injEq] at h
    obtain ⟨rfl, rfl⟩ := h
    exact ⟨decision_ne_starting _ _, rfl, rfl⟩
  | claiming =>
    simp only [step, hphase, Option.some.injEq, Prod.mk.injEq] at h
    obtain ⟨rfl, rfl⟩ := h
    refine ⟨?_, rfl, rfl⟩
    show (if o.claimed then Phase.originating else .finished) ≠ .starting
    split_ifs <;> simp
  | dialing =>
    simp only [step, hphase] at h
    split_ifs at h
    · simp only [Option.some.injEq, Prod.mk.injEq] at h
      obtain ⟨rfl, rfl⟩ := h
      exact ⟨by simp, rfl, rfl⟩
    · simp only [Option.some.injEq, Prod.mk.injEq] at h
      obtain ⟨rfl, rfl⟩ := h
      refine ⟨?_, rfl, rfl⟩
      show afterFailure attempt.profile attempt.attemptNumber o.cause ≠ .starting
      rcases afterFailure_cases attempt.profile attempt.attemptNumber o.cause with h | h | h <;>
        simp [h]
  | confirming | comparing buf =>
    simp only [step, hphase] at h
    split_ifs at h
    all_goals
      simp only [Option.some.injEq, Prod.mk.injEq] at h
      obtain ⟨rfl, rfl⟩ := h
      exact ⟨by simp [goto], rfl, rfl⟩
  | removing | originating | dropping | requeueing | answered | playing | collecting
  | transferring | reporting =>
    simp only [step, hphase, Option.some.injEq, Prod.mk.injEq] at h
    obtain ⟨rfl, rfl⟩ := h
    exact ⟨by simp [goto], rfl, rfl⟩

end Attempt

/-! ## New messages -/

/-- Where `queue_originate_event` is with its statements. -/
inductive QueueingPhase where
  | counting
  | deleting
  | inserting
  | done
  deriving DecidableEq

structure Queueing where
  account : Account
  firstWait : ℤ
  phase : QueueingPhase := .counting
  deriving DecidableEq

/-- A statement of `queue_originate_event`; `found` is the number in its buffer when the count
fails. -/
def Queueing.step (rows : List Row) (executed : Bool) (found now : ℤ) (queueing : Queueing) :
    Option (Queueing × List Change) :=
  match queueing.phase with
  | .counting =>
    let count := if executed then
      ((rows.filter (·.account = queueing.account)).length : ℤ) else found
    some ({ queueing with phase := if 0 < count then .deleting else .inserting }, [])
  | .deleting =>
    some ({ queueing with phase := .inserting }, statement executed (.delete queueing.account))
  | .inserting =>
    some ({ queueing with phase := .done },
      statement executed (.insert queueing.account now (now + queueing.firstWait)))
  | .done => none

/-! ## The system -/

structure System where
  rows : List Row
  attempts : List Attempt
  queueings : List Queueing
  configs : Configs

def System.init : System := ⟨[], [], [], .init⟩

inductive Action where
  /-- a poll tick of the runtime thread -/
  | tick (now : ℤ)
  | thread (i : ℕ) (o : Outcome)
  | channel (i : ℕ) (state : ChannelState) (executed : Bool) (now : ℤ)
  /-- an event, with whether its status is `switch_false` -/
  | event (account : Account) (action : Text) (cancelled : Bool)
  | queueing (j : ℕ) (executed : Bool) (found now : ℤ)
  /-- `vm_originate load` -/
  | load (name : Text)
  /-- `vm_originate unload` -/
  | unload (name : Text)

namespace System

/-- The table after these changes. -/
def change (s : System) (changes : List Change) : System :=
  { s with rows := changes.foldl Change.exec s.rows }

/-- One attempt has gone on. -/
def setAttempt (s : System) (i : ℕ) (result : Attempt × List Change) : System :=
  { s.change result.2 with attempts := s.attempts.set i result.1 }

/-- One event has gone on. -/
def setQueueing (s : System) (j : ℕ) (result : Queueing × List Change) : System :=
  { s.change result.2 with queueings := s.queueings.set j result.1 }

/-- The runtime thread holds the mutex, so that its threads begin after it has started them all. -/
def tick (s : System) (now : ℤ) : System :=
  { s with attempts := s.attempts ++ (due now s.rows).map .ofRow }

/-- A step of a thread. -/
def thread (env : Env) (s : System) (o : Outcome) (i : ℕ) (attempt : Attempt) : Option System :=
  if attempt.phase = .starting then
    let result := setUserProfile env s.configs attempt.account
    some { s with
      configs := result.1, attempts := s.attempts.set i (attempt.prepare result.2) }
  else
    (attempt.step s.configs.released o).map (s.setAttempt i)

/-- The beginning of `queue_originate_event`.  A false status hangs up the calls of the account,
which is up to their channels. -/
def event (env : Env) (s : System) (account : Account) (action : Text) (cancelled : Bool) :
    System :=
  match setUserProfile env s.configs account with
  | (configs, none) => { s with configs := configs }
  | (configs, some profile) =>
    if !cancelled && CString.strcasecmp action "NEW".toList then
      { s with
        configs := configs
        queueings := s.queueings ++ [{ account := account, firstWait := profile.firstWait }] }
    else
      { s with configs := configs }

end System

/-- One step. -/
def next (env : Env) (s : System) : Action → Option System
  | .tick now => some (s.tick now)
  | .thread i o => s.attempts[i]?.bind (s.thread env o i)
  | .channel i state executed now =>
    s.attempts[i]?.bind fun attempt =>
      (attempt.changeState s.configs.released state executed now).map (s.setAttempt i)
  | .event account action cancelled => some (s.event env account action cancelled)
  | .queueing j executed found now =>
    s.queueings[j]?.bind fun queueing =>
      (queueing.step s.rows executed found now).map (s.setQueueing j)
  | .load name => some { s with configs := (getProfile env s.configs name).1 }
  | .unload name => some { s with configs := destroyProfile s.configs name }

/-! ## A user to call -/

/-- Every user has three attempts. -/
def threeAttempts : Env where
  users _ := some
    [⟨"vm-originate-enabled".toList, "true".toList⟩,
      ⟨"vm-originate-dial-string".toList, "user/1000".toList⟩,
      ⟨"vm-originate-transfer".toList, "vmain".toList⟩,
      ⟨"vm-originate-attempts".toList, "3".toList⟩]
  file _ := none

/-- Every statement is executed, and nobody answers. -/
def noAnswer : Outcome where
  now := 1
  claimed := true
  originated := false
  cause := .noAnswer
  confirmStatus := .failed
  buf := []
  ended := true

def alice : Account := ("alice".toList, "example.org".toList)

/-- A message is left for an account. -/
def newMessage (account : Account) : List Action :=
  [.event account "NEW".toList false, .queueing 0 true 0 0, .queueing 0 true 0 0]

/-- The call is answered. -/
def answeredCall : Outcome := { noAnswer with originated := true, cause := .success }

end FreeswitchContrib.VoicemailOriginate
