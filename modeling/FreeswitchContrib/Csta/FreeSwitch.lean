import FreeswitchContrib.Library.OrderedMap
import Mathlib.Logic.Function.Basic
import Mathlib.Data.Nat.Basic
import Mathlib.Data.String.Basic

/-!
# Devices, calls and connections

The objects of `mod_csta_socket`.  A device keeps a map from the calls it is in to its connections,
a call keeps a map from the ids of its devices to the devices, and the class `FreeSWITCH` keeps the
devices by their ids and the calls by their UUIDs.  All of these are pointers; objects are found in
three heaps, and the place of a new one is the allocator's choice.

A handler runs on these objects.  It leaves a record of the locks it takes and of what it sends, and
faults where the code reads through a pointer to an object that is not there.
-/

namespace Csta

/-- `eDirection` -/
inductive Direction
  | incoming
  | outgoing
  deriving DecidableEq

/-- `eLocalConnectionState` -/
inductive ConnectionState
  | null
  | initiated
  | alerting
  | connected
  | queued
  | fail
  deriving DecidableEq

/-- `FreeSwitchDeviceType` -/
inductive DeviceType
  | internalSubscriber
  | networkInterface
  | queue
  | unknown
  deriving DecidableEq

structure FreeSwitchConnection where
  pCall : ℕ
  strUUID : String
  state : ConnectionState
  direction : Direction
  strChannel : String

structure FreeSwitchDevice where
  strDevice : String
  monitoringSessions : OrderedMap String ℕ
  deviceType : DeviceType
  isMakeCallOriginator : Bool
  connections : OrderedMap ℕ ℕ

structure FreeSwitchCall where
  strUUID : String
  devices : OrderedMap String ℕ

/-! ## What is sent -/

inductive TypeOfNumber
  | dialable
  | device
  deriving DecidableEq

structure DeviceID where
  typeOfNumber : TypeOfNumber
  callNr : String
  deriving DecidableEq

structure ConnectionID where
  deviceID : DeviceID
  callID : String
  deriving DecidableEq

inductive EventKind
  | serviceInitiated
  | originated
  | delivered
  | established
  | connectionCleared
  | queued
  | dtmfDetected
  | play
  | record
  | stop
  deriving DecidableEq

inductive EventCause
  | makeCall
  | normalClearing
  | destNotObtainable
  | busy
  | callNotAnswered
  | endOfMessageDetected
  | resourcesNotAvailable
  | blocked
  | messageDurationExceeded
  deriving DecidableEq

/-- An event with the device and the call of its connection and what is set in it. -/
structure CSTAEvent where
  kind : EventKind
  connection : String × String
  cause : Option EventCause := none
  localConnectionInfo : Option ConnectionState := none
  callingDevice : Option String := none
  calledDevice : Option String := none
  networkCallingDevice : Option String := none
  networkCalledDevice : Option String := none
  associatedCallingDevice : Option String := none
  associatedCalledDevice : Option String := none
  numberQueued : Option ℕ := none
  /-- The digit or the file. -/
  detail : Option String := none
  deriving DecidableEq

inductive ErrorCode
  | invalidMonitorObject
  | invalidDeviceID
  | invalidCallID
  | genericError
  deriving DecidableEq

/-- The positive answers that carry nothing but the `InvokeID`. -/
inductive Service
  | answerCall
  | playMessage
  | recordMessage
  | stop
  | deflectCall
  | clearConnection
  deriving DecidableEq

inductive Response
  | universalError (invokeID : ℤ) (error : ErrorCode)
  | done (invokeID : ℤ) (service : Service)
  | monitorStart (invokeID : ℤ) (crossRefID : String)
  | snapshotDevice (invokeID : ℤ) (data : List (ConnectionID × ConnectionState))
  | snapshotCall (invokeID : ℤ) (data : List (String × ConnectionState))
      (callingDevice calledDevice : String)
  | makeCall (invokeID : ℤ) (connection : ConnectionID)
  | singleStepTransferCall (invokeID : ℤ) (connection : ConnectionID)
  deriving DecidableEq

inductive Effect
  | lock
  | unlock
  | locate (uuid : String) (found : Bool)
  | rwunlock (uuid : String)
  | event (session : ℕ) (event : CSTAEvent) (crossRefID : String)
  | respond (session : ℕ) (response : Response)
  /-- A branch for a device that is mapped to a call without connection. -/
  | withoutConnection (device call : String)
  deriving DecidableEq

/-! ## The state -/

/-- A request of which the call is being originated: the session, the request's `InvokeID`, its
calling device, and the object of that device. -/
structure PendingMakeCall where
  sender : ℕ
  invokeID : ℤ
  callingDevice : DeviceID
  pDevice : Option ℕ

structure FreeSWITCH where
  deviceMap : OrderedMap String ℕ
  callMap : OrderedMap String ℕ
  lastXRefID : ℕ
  devices : ℕ → Option FreeSwitchDevice
  calls : ℕ → Option FreeSwitchCall
  connections : ℕ → Option FreeSwitchConnection
  pendingMakeCalls : List PendingMakeCall
  effects : List Effect

def FreeSWITCH.init : FreeSWITCH where
  deviceMap := .empty
  callMap := .empty
  lastXRefID := 0
  devices := fun _ => none
  calls := fun _ => none
  connections := fun _ => none
  pendingMakeCalls := []
  effects := []

/-- How a handler ends that does not return.  The last two are no run of the program: an allocator
does not give away what is in use, and what never ends has no result. -/
inductive Fault
  | nullString
  | danglingPointer
  | addressInUse
  | endless
  deriving DecidableEq

abbrev Handler := StateT FreeSWITCH (Except Fault)

/-- Where the allocator puts a new object of each kind. -/
structure Place where
  device : ℕ
  call : ℕ
  connection : ℕ

def perform (effect : Effect) : Handler Unit :=
  modify fun s => { s with effects := s.effects ++ [effect] }

/-- What is behind a pointer. -/
def deref {ω : Type} (heap : FreeSWITCH → ℕ → Option ω) (p : ℕ) : Handler ω := do
  match heap (← get) p with
  | some object => return object
  | none => throw .danglingPointer

def device (p : ℕ) : Handler FreeSwitchDevice := deref FreeSWITCH.devices p

def call (p : ℕ) : Handler FreeSwitchCall := deref FreeSWITCH.calls p

def connection (p : ℕ) : Handler FreeSwitchConnection := deref FreeSWITCH.connections p

def setDevice (p : ℕ) (object : FreeSwitchDevice) : Handler Unit :=
  modify fun s => { s with devices := Function.update s.devices p (some object) }

def setCall (p : ℕ) (object : FreeSwitchCall) : Handler Unit :=
  modify fun s => { s with calls := Function.update s.calls p (some object) }

def setConnection (p : ℕ) (object : FreeSwitchConnection) : Handler Unit :=
  modify fun s => { s with connections := Function.update s.connections p (some object) }

/-- The allocator does not give an address away twice. -/
def checkFree {ω : Type} (heap : FreeSWITCH → ℕ → Option ω) (p : ℕ) : Handler Unit := do
  match heap (← get) p with
  | some _ => throw .addressInUse
  | none => return

/-! ## Names -/

def startsWith (text : List Char) (start : String) : Bool := start.toList.isPrefixOf text

/-- `strstr` finds the text. -/
def strstr (text : String) (part : String) : Bool := text.toList.tails.any (startsWith · part)

def withoutHost (name : List Char) : String := String.ofList (name.takeWhile (· ≠ '@'))

def withoutSip (name : List Char) : List Char :=
  if startsWith name "sip:" then name.drop 4 else name

/-- `Channel2Device` -/
def channel2Device (channel : String) : String :=
  if startsWith channel.toList "sofia/internal/" then
    withoutHost (withoutSip (channel.toList.drop 15))
  else ""

/-- `Type2Prefix` -/
def type2Prefix : DeviceType → String
  | .networkInterface => "01"
  | .queue => "02"
  | _ => ""

/-- `Device2Type` -/
def device2Type (device : DeviceID) : DeviceType :=
  if device.typeOfNumber = .dialable then .internalSubscriber
  else if device.callNr.toList.length < 2 then .unknown
  else if startsWith device.callNr.toList (type2Prefix .networkInterface) then .networkInterface
  else if startsWith device.callNr.toList (type2Prefix .queue) then .queue
  else .unknown

/-! ## The members of the classes -/

/-- `FindConnection(FreeSwitchCall*)` -/
def findConnection (p pCall : ℕ) : Handler (Option ℕ) := do
  return (← device p).connections.find? pCall

/-- The loop of `FindConnection(const char*)`. -/
def searchConnection (uuid : String) : List (ℕ × ℕ) → Handler (Option ℕ)
  | [] => return none
  | (pCall, pConnection) :: rest => do
    if (← call pCall).strUUID = uuid then return some pConnection
    else searchConnection uuid rest

def findConnectionByUUID (p : ℕ) (uuid : String) : Handler (Option ℕ) := do
  searchConnection uuid (← device p).connections.entries

def addConnection (place : Place) (p : ℕ) (uuid channel : String) (pCall : ℕ)
    (direction : Direction) : Handler ℕ := do
  checkFree FreeSWITCH.connections place.connection
  let callObject ← call pCall
  let deviceObject ← device p
  setConnection place.connection
    { pCall, strUUID := uuid, state := .initiated, direction, strChannel := channel }
  setCall pCall
    { callObject with devices := callObject.devices.insert deviceObject.strDevice p }
  setDevice p
    { deviceObject with connections := deviceObject.connections.insert pCall place.connection }
  return place.connection

def deleteConnection (p pCall : ℕ) : Handler Unit := do
  let deviceObject ← device p
  match deviceObject.connections.find? pCall with
  | none => return
  | some pConnection =>
    let _ ← connection pConnection
    let callObject ← call pCall
    modify fun s => { s with connections := Function.update s.connections pConnection none }
    setDevice p { deviceObject with connections := deviceObject.connections.erase pCall }
    setCall pCall
      { callObject with devices := callObject.devices.erase deviceObject.strDevice }

def sendEvent (p : ℕ) (event : CSTAEvent) : Handler Unit := do
  (← device p).monitoringSessions.entries.forM fun monitor =>
    perform (.event monitor.2 event monitor.1)

/-- `if(pDevice->IsMonitored()) pDevice->SendEvent(&event)` -/
def sendIfMonitored (p : ℕ) (event : CSTAEvent) : Handler Unit := do
  if (← device p).monitoringSessions.isEmpty then return
  else sendEvent p event

def prepareDevice (place : Place) (pcDevice : String) (type : DeviceType) : Handler ℕ := do
  let strFullDevName := type2Prefix type ++ pcDevice
  match (← get).deviceMap.find? strFullDevName with
  | some p => return p
  | none =>
    checkFree FreeSWITCH.devices place.device
    setDevice place.device
      { strDevice := strFullDevName
        monitoringSessions := .empty
        deviceType := type
        isMakeCallOriginator := false
        connections := .empty }
    modify fun s => { s with deviceMap := s.deviceMap.insert strFullDevName place.device }
    return place.device

def getCall (uuid : String) : Handler (Option ℕ) := do
  return (← get).callMap.find? uuid

/-- A call with this UUID is made and put into `m_CallMap`. -/
def newCall (place : Place) (uuid : String) : Handler ℕ := do
  checkFree FreeSWITCH.calls place.call
  setCall place.call { strUUID := uuid, devices := .empty }
  modify fun s => { s with callMap := s.callMap.insert uuid place.call }
  return place.call

/-- What `FindCallerCalled` reads from a session. -/
structure CallerProfile where
  callerIdNumber : String
  destinationNumber : String
  chanName : String

/-- Caller and called; both are empty when the session no longer exists. -/
def findCallerCalled (uuid : String) (profile : Option CallerProfile) :
    Handler (String × String) := do
  match profile with
  | none =>
    perform (.locate uuid false)
    return ("", "")
  | some profile =>
    perform (.locate uuid true)
    perform (.rwunlock uuid)
    return (profile.callerIdNumber, withoutHost (withoutSip profile.destinationNumber.toList))

/-! ## PrepareCallData -/

/-- Which of the pointers of `PrepareCallData` are not null. -/
structure Wanted where
  queue : Bool := false
  networkInterfaces : Bool := false
  callerCalled : Bool := false

/-- What `PrepareCallData` has found. -/
structure CallData where
  device : Option ℕ := none
  queue : Option ℕ := none
  inboundNID : Option ℕ := none
  outboundNID : Option ℕ := none

/-- The trunk is the one of its direction. -/
def CallData.noteTrunk (wanted : Wanted) (p : ℕ) (direction : Direction) (found : CallData) :
    CallData :=
  if wanted.networkInterfaces then
    match direction with
    | .incoming => { found with inboundNID := some p }
    | .outgoing => { found with outboundNID := some p }
  else found

/-- The trunk is the device where none has been found and the channel is its own. -/
def CallData.noteDevice (p : ℕ) (own : Bool) (found : CallData) : CallData :=
  if found.device.isNone ∧ own then { found with device := some p } else found

/-- A trunk's turn of the loop over the devices of a call. -/
def collectTrunk (wanted : Wanted) (uuid channel : String) (p pConnection : ℕ)
    (found : CallData) : Handler CallData := do
  let object ← connection pConnection
  let found := (found.noteTrunk wanted p object.direction).noteDevice p
    (object.strChannel == channel)
  if found.device.isNone ∧ object.strChannel = "" ∧ object.direction = .outgoing then
    -- the device was made before the channel
    setConnection pConnection { object with strUUID := uuid, strChannel := channel }
    return { found with device := some p }
  else return found

/-- A turn of the loop over the devices of a call. -/
def collect (wanted : Wanted) (pCall : ℕ) (uuid channel : String) (found : CallData)
    (entry : String × ℕ) : Handler CallData := do
  let object ← device entry.2
  if wanted.queue ∧ object.deviceType = .queue then return { found with queue := some entry.2 }
  else if object.deviceType = .networkInterface then
    match object.connections.find? pCall with
    | none =>
      perform (.withoutConnection object.strDevice (← call pCall).strUUID)
      return found
    | some pConnection => collectTrunk wanted uuid channel entry.2 pConnection found
  else return found

/-- The call with one of the two UUIDs; where there is none it is made, if that is wanted. -/
def findOrCreateCall (place : Place) (uuid : String) (uuid2 : Option String) (bCreateCall : Bool) :
    Handler (Option ℕ) := do
  match ← getCall uuid with
  | some pCall => return some pCall
  | none =>
    match uuid2.bind (← get).callMap.find? with
    | some pCall => return some pCall
    | none => if bCreateCall then return some (← newCall place uuid) else return none

/-- The device, the call, the connection, what else is wanted, caller and called. -/
structure Prepared where
  pDevice : ℕ
  pCall : ℕ
  pConnection : Option ℕ
  data : CallData
  caller : String
  called : String

/-- The subscriber of an internal channel.  That of an external one is found later. -/
def findSubscriber (place : Place) (channel : String) : Handler (Option (Option ℕ)) := do
  if startsWith channel.toList "sofia/external" then return some none
  else if channel2Device channel = "" then return none
  else return some (some (← prepareDevice place (channel2Device channel) .internalSubscriber))

/-- The loop over the devices of a call, where it is needed. -/
def collectAll (wanted : Wanted) (pCall : ℕ) (uuid channel : String) (subscriber : Option ℕ) :
    Handler CallData := do
  if subscriber.isNone ∨ wanted.queue ∨ wanted.networkInterfaces then
    (← call pCall).devices.entries.foldlM (collect wanted pCall uuid channel)
      { device := subscriber }
  else return { device := subscriber }

def callerCalledIf (wanted : Bool) (uuid : String) (profile : Option CallerProfile) :
    Handler (String × String) :=
  if wanted then findCallerCalled uuid profile else return ("", "")

def prepareCallData (place : Place) (uuid : String) (uuid2 : Option String) (channel : String)
    (bCreateCall : Bool) (wanted : Wanted) (profile : Option CallerProfile) :
    Handler (Option Prepared) := do
  match ← findOrCreateCall place uuid uuid2 bCreateCall with
  | none => return none
  | some pCall =>
    match ← findSubscriber place channel with
    | none => return none
    | some subscriber =>
      let data ← collectAll wanted pCall uuid channel subscriber
      match data.device with
      | none => return none
      | some pDevice =>
        let pConnection ← findConnection pDevice pCall
        let callerCalled ← callerCalledIf wanted.callerCalled uuid profile
        return some
          { pDevice, pCall, pConnection, data
            caller := callerCalled.1
            called := callerCalled.2 }

end Csta
