import FreeswitchContrib.Library.CString
import FreeswitchContrib.Library.Interleaving
import FreeswitchContrib.Library.Search
import Mathlib.Data.List.DropRight

/-!
# The calls of the soft phone

`Call.cs` of FSClient.  A call is an object with two legs and a state; `calls` is the list that the
window shows and `active_call` the call that the user talks on.  Events of the switch find a call by
a leg or by its portaudio id and take it to another state, and a call that has ended stays in the
list until the user removes it.

A handler that throws has no result.  Times, audio levels and what the window shows are left out.
-/

namespace FreeswitchContrib.FsClient

abbrev Text := List Char

/-! ## Calls -/

/-- `CALL_STATE` -/
inductive CallState
  | none | answered | ringing | ended | busy | failed | missed | hold | holdRinging
  deriving DecidableEq

structure Account where
  gatewayId : Option Text

structure Channel where
  gatewayId : Option Text := none

structure Call where
  legAUuid : Option Text := none
  legBUuid : Option Text := none
  portaudioId : ℤ := 0
  otherPartyName : Option Text := none
  otherPartyNumber : Option Text := none
  note : Option Text := none
  isConferenceCall : Bool := false
  isOutgoing : Bool := false
  state : CallState := .none
  callEnded : Bool := false
  account : Option Account := none

/-- A reference to a call. -/
abbrev Ref := ℕ

/-- The static fields, and the objects that the references are to.  There are `made` of them. -/
structure State where
  object : Ref → Call
  made : ℕ
  calls : List Ref
  activeCall : Option Ref
  channels : Text → Option Channel

def State.init : State := ⟨fun _ => {}, 0, [], none, fun _ => none⟩

/-- What a handler reads of the rest of the program: the accounts, and whether anybody has
subscribed to `ActiveCallChanged`. -/
structure Surroundings where
  accounts : List Account
  activeCallChanged : Bool

inductive EventId
  | channelCreate | channelOutgoing | channelHangupComplete | channelAnswer | custom
  | channelDestroy | dtmf | other

structure FSEvent where
  eventId : EventId
  subclassName : Option Text
  getHeader : Text → Option Text

/-! ## The library -/

/-- `SingleOrDefault`, which throws when there are several. -/
def singleOrDefault {α : Type} : List α → Option (Option α)
  | [] => some none
  | [a] => some (some a)
  | _ :: _ :: _ => none

/-- `String.IsNullOrEmpty` -/
def isNullOrEmpty (text : Option Text) : Bool := text == none || text == some []

/-- `Int32.Parse` -/
def int32Parse (text : Text) : Option ℤ :=
  match Numeral.signedDecimal ((text.dropWhile CString.isspace).rdropWhile CString.isspace) with
  | some n => if -2 ^ 31 ≤ n ∧ n < 2 ^ 31 then some n else none
  | none => none

/-- A text, digits, another text and then anything up to the end of the line: the digits and the
rest. -/
def matchHere (literal separator text : Text) : Option (Text × Text) :=
  let rest := text.drop literal.length
  let digits := rest.takeWhile Char.isDigit
  let tail := rest.dropWhile Char.isDigit
  let number := (tail.drop separator.length).takeWhile (· ≠ '\n')
  if literal <+: text ∧ digits ≠ [] ∧ separator <+: tail ∧ number ≠ [] then some (digits, number)
  else none

/-- `DestNumberRegex` -/
def destNumberRegex (text : Text) : Option (Text × Text) :=
  (Search.search (matchHere "sofia/gateway/".toList "/".toList) text).map Prod.snd

/-- `DestSipRegex` -/
def destSipRegex (text : Text) : Option (Text × Text) :=
  (Search.search (matchHere "gw_ref=".toList "\x7dsofia/softphone/".toList) text).map Prod.snd

/-! ## What an event says about a call -/

variable (around : Surroundings)

def accountOf (gatewayId : Option Text) : Option (Option Account) :=
  singleOrDefault (around.accounts.filter fun a => a.gatewayId = gatewayId)

/-- The outgoing half of `SetCallInfoFromEvent`. -/
def Call.setDestination (call : Call) (destination : Text) : Option Call :=
  let isSipDirect := destNumberRegex destination = none
  let found := if isSipDirect then destSipRegex destination else destNumberRegex destination
  match found with
  | none => some call
  | some (gwId, number) => do
    let account ← accountOf around (some gwId)
    let otherPartyNumber := if isSipDirect then "sip:".toList ++ number else number
    pure { call with account := account, otherPartyNumber := some otherPartyNumber }

def Call.setParty (call : Call) (evt : FSEvent) : Option Call :=
  if call.isOutgoing then
    -- a regular expression is not matched against null
    (evt.getHeader "Caller-Destination-Number".toList).bind (call.setDestination around)
  else
    some { call with
      otherPartyName := evt.getHeader "Caller-Caller-ID-Name".toList
      otherPartyNumber := evt.getHeader "Caller-Caller-ID-Number".toList }

def Call.setPortaudioId (call : Call) (evt : FSEvent) : Option Call :=
  match evt.getHeader "variable_pa_call_id".toList with
  | none | some [] => some call
  | some paidStr => (int32Parse paidStr).map fun id => { call with portaudioId := id }

def Call.setCallInfoFromEvent (call : Call) (evt : FSEvent) : Option Call := do
  let call := { call with
    legAUuid := evt.getHeader "Unique-ID".toList
    legBUuid := evt.getHeader "Other-Leg-Unique-ID".toList }
  let call ← call.setParty around evt
  let call := if isNullOrEmpty call.otherPartyName then
    { call with otherPartyName := call.otherPartyNumber } else call
  call.setPortaudioId evt

/-! ## The list -/

/-- The call of the list that this is true of; two of them are an exception. -/
def State.findCall (s : State) (p : Call → Prop) [DecidablePred p] : Option (Option Ref) :=
  singleOrDefault (s.calls.filter fun call => p (s.object call))

def State.setCall (s : State) (call : Ref) (c : Call) : State :=
  { s with object := Function.update s.object call c }

/-- A new object, added to the list. -/
def State.addCall (s : State) (c : Call) : State :=
  { s with
    object := Function.update s.object s.made c
    made := s.made + 1
    calls := s.calls ++ [s.made] }

/-- The part of `UpdateCallState` that is about the call. -/
def Call.toState (c : Call) (newState : CallState) : Call :=
  let setCallEnded := newState ≠ .answered ∧ newState ≠ .ringing ∧ newState ≠ .hold ∧
    newState ≠ .holdRinging ∧ c.callEnded = false
  { c with state := newState, callEnded := if setCallEnded then true else c.callEnded }

def updateCallState (s : State) (call : Ref) (newState : CallState) (newActiveCall : Option Ref) :
    Option State :=
  if s.activeCall ≠ newActiveCall ∧ around.activeCallChanged = false then none
  else some { s.setCall call ((s.object call).toState newState) with activeCall := newActiveCall }

/-! ## Handlers -/

def handleOutgoingEvent (s : State) (evt : FSEvent) (uuid : Option Text) : Option State := do
  let otherLeg := evt.getHeader "Other-Leg-Unique-ID".toList
  match ← s.findCall fun c => c.legAUuid = otherLeg ∧ c.callEnded = false with
  | none => pure s
  | some call =>
    if (s.object call).isOutgoing then
      pure (s.setCall call { s.object call with legBUuid := uuid })
    else
      pure s

/-- The state after a hang-up.  `None` is an exception. -/
def Call.hangupState (c : Call) : CallState :=
  if c.state ≠ .answered ∧ c.state ≠ .missed ∧ c.state ≠ .hold then
    if !c.isOutgoing ∧ c.state = .ringing then .missed else .failed
  else if c.state = .answered ∨ c.state = .hold then .ended
  else .none

def Call.setHangupNote (c : Call) (evt : FSEvent) : Call :=
  if (c.state ≠ .answered ∧ c.state ≠ .missed ∧ c.state ≠ .hold) ∧ isNullOrEmpty c.note then
    { c with note := evt.getHeader "variable_sip_hangup_phrase".toList }
  else c

/-- The call that is active when this one is not any more. -/
def State.nextActiveCall (s : State) (call : Ref) : Option Ref :=
  if s.activeCall ≠ some call then s.activeCall
  else s.calls.find? fun c =>
    (s.object c).state = .ringing ∧ (s.object c).isOutgoing = false ∧ c ≠ call

def handleHangupCompleteEvent (s : State) (evt : FSEvent) (uuid : Option Text) : Option State := do
  match ← s.findCall fun c => c.callEnded = false ∧ (c.legAUuid = uuid ∨ c.legBUuid = uuid) with
  | none => pure s
  | some call =>
    let newState := (s.object call).hangupState
    let s := s.setCall call ((s.object call).setHangupNote evt)
    if newState = .none then none
    else updateCallState around s call newState (s.nextActiveCall call)

def handleChannelCreateEvent (s : State) (evt : FSEvent) (uuid : Option Text) : Option State := do
  let uuid ← uuid
  let channel := (s.channels uuid).getD {}
  let gateway := evt.getHeader "variable_sip_gateway".toList
  let channel := if isNullOrEmpty gateway then channel else ⟨gateway⟩
  pure { s with channels := Function.update s.channels uuid (some channel) }

/-- A call that comes in, as portaudio and an automatic answer make it. -/
def incomingCall (s : State) (evt : FSEvent) : Option Call := do
  let call ← ({} : Call).setCallInfoFromEvent around evt
  let gwId := (call.legBUuid.bind s.channels).bind Channel.gatewayId
  let account ← accountOf around gwId
  pure { call with account := account }

def handleRinging (s : State) (evt : FSEvent) (uuid : Option Text) : Option State :=
  if (s.calls.filter fun c => (s.object c).legAUuid = uuid ∧ (s.object c).callEnded = false) ≠ []
  then some s
  else do
    let call ← incomingCall around s evt
    updateCallState around (s.addCall call) s.made .ringing (s.activeCall.or (some s.made))

/-- A call of the user, who may have dialled the conference. -/
def handleMakecall (s : State) (evt : FSEvent) : Option State :=
  if evt.getHeader "fail".toList = some "true".toList then some s
  else do
    let call ← ({ isOutgoing := true } : Call).setCallInfoFromEvent around evt
    let call := { call with
      isConferenceCall := decide (call.otherPartyNumber = some "fsc_conference".toList) }
    updateCallState around (s.addCall call) s.made
      (if call.isConferenceCall then .answered else .ringing) (some s.made)

def handleHeldOrResumed (s : State) (evt : FSEvent) (resumed : Bool) : Option State :=
  match evt.getHeader "variable_pa_call_id".toList with
  | none | some [] => some s
  | some paidStr => do
    let portaudioId ← int32Parse paidStr
    match ← s.findCall fun c => c.portaudioId = portaudioId ∧ c.callEnded = false with
    | none => pure s
    | some call =>
      if resumed then
        updateCallState around s call .answered (some call)
      else
        updateCallState around s call
          (if (s.object call).state = .ringing then .holdRinging else .hold)
          (if s.activeCall = some call then none else s.activeCall)

def handleCustomEvent (s : State) (evt : FSEvent) (uuid : Option Text) : Option State :=
  if evt.subclassName = some "portaudio::ringing".toList then handleRinging around s evt uuid
  else if evt.subclassName = some "portaudio::makecall".toList then handleMakecall around s evt
  else if evt.subclassName = some "portaudio::callheld".toList then
    handleHeldOrResumed around s evt false
  else if evt.subclassName = some "portaudio::callresumed".toList then
    handleHeldOrResumed around s evt true
  else some s

/-- What `HandleChannelAnswerEvent` does with the call. -/
def callAnswered (s : State) (call : Ref) : Option State :=
  let c := s.object call
  if c.state = .answered then some s
  else if c.state = .ringing ∨ (c.state = .holdRinging ∧ !c.isOutgoing) then
    updateCallState around s call .answered
      (if c.isOutgoing || c.isConferenceCall then s.activeCall else some call)
  else if c.state = .holdRinging then updateCallState around s call .hold s.activeCall
  else none

def handleChannelAnswerEvent (s : State) (evt : FSEvent) (uuid : Option Text) : Option State := do
  match ← s.findCall fun c => c.legBUuid = uuid ∧ c.callEnded = false with
  | some call => callAnswered around s call
  | none =>
    if evt.getHeader "Other-Leg-Destination-Number".toList ≠ some "auto_answer".toList then pure s
    else
      let call ← incomingCall around s evt
      let s' ← updateCallState around (s.addCall call) s.made .ringing (some s.made)
      callAnswered around s' s.made

/-- A digit is played to the call, which stays as it is. -/
def handleDTMFEvent (s : State) (evt : FSEvent) (uuid : Option Text) : Option State := do
  match ← s.findCall fun c => (c.legAUuid = uuid ∨ c.legBUuid = uuid) ∧ c.callEnded = false with
  | none => pure s
  | some call =>
    if (s.object call).state = .answered ∧ evt.getHeader "DTMF-Digit".toList = none then none
    else pure s

def newFSEvent (s : State) (evt : FSEvent) : Option State :=
  let uuid := evt.getHeader "Unique-ID".toList
  match evt.eventId with
  | .channelCreate => handleChannelCreateEvent s evt uuid
  | .channelOutgoing => handleOutgoingEvent s evt uuid
  | .channelHangupComplete => handleHangupCompleteEvent around s evt uuid
  -- the destination that is compared here is the name of the header, so that the test always passes
  | .channelAnswer => handleChannelAnswerEvent around s evt uuid
  | .custom => handleCustomEvent around s evt uuid
  | .channelDestroy => uuid.map fun uuid =>
      { s with channels := Function.update s.channels uuid none }
  | .dtmf => handleDTMFEvent s evt uuid
  | .other => some s

/-! ## The history -/

def removeCallFromHistory (s : State) (call : Ref) : State :=
  if (s.object call).callEnded ∧ call ∈ s.calls then { s with calls := s.calls.erase call } else s

def clearCallsFromHistory (s : State) : State := s.calls.foldl removeCallFromHistory s

/-! ## Runs -/

inductive Action
  | event (around : Surroundings) (evt : FSEvent)
  | removeCallFromHistory (call : Ref)
  | clearCallsFromHistory

def next (s : State) : Action → Option State
  | .event around evt => newFSEvent around s evt
  | .removeCallFromHistory call => some (removeCallFromHistory s call)
  | .clearCallsFromHistory => some (clearCallsFromHistory s)

end FreeswitchContrib.FsClient
