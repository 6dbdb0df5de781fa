import FreeswitchContrib.Csta.Handlers

/-!
# Requests of the sessions

What `mod_csta_socket` does with a CSTA request, up to its answer, and the steps of a run.  What the
FreeSWITCH core answers is part of a step.
-/

namespace Csta

def respond (sender : ℕ) (response : Response) : Handler Unit := perform (.respond sender response)

/-- The mutex is released before the error goes out. -/
def refuse (sender : ℕ) (invokeID : ℤ) (error : ErrorCode) : Handler Unit := do
  perform .unlock
  respond sender (.universalError invokeID error)

/-! ## Monitors -/

/-- The keys that `RemoveMonitor` erases.  The loop steps over the entry behind an erased one. -/
def erasedMonitors (session : ℕ) : List (String × ℕ) → List String
  | [] => []
  | [(crossRefID, s)] => if s = session then [crossRefID] else []
  | (crossRefID, s) :: next :: rest =>
    if s = session then crossRefID :: erasedMonitors session rest
    else erasedMonitors session (next :: rest)

def removeMonitor (session p : ℕ) : Handler Unit := do
  let object ← device p
  setDevice p
    { object with
      monitoringSessions := (erasedMonitors session object.monitoringSessions.entries).foldl
        OrderedMap.erase object.monitoringSessions }

def onSessionFinished (session : ℕ) : Handler Unit := do
  perform .lock
  (← get).deviceMap.entries.forM fun entry => removeMonitor session entry.2
  perform .unlock

/-- The loop of `IsXRefIDUsed`. -/
def anyMonitoredWithID (crossRefID : String) : List (String × ℕ) → Handler Bool
  | [] => return false
  | entry :: rest => do
    if ((← device entry.2).monitoringSessions.find? crossRefID).isSome then return true
    else anyMonitoredWithID crossRefID rest

def isXRefIDUsed (crossRefID : String) : Handler Bool := do
  perform .lock
  let used ← anyMonitoredWithID crossRefID (← get).deviceMap.entries
  perform .unlock
  return used

def getNextXRefID : Handler String := do
  let last := (← get).lastXRefID + 1
  let next := if last > 100000 then 1 else last
  modify fun s => { s with lastXRefID := next }
  return toString next

/-- The loop of `MonitorStart`.  After as many ids as there are it starts all over again. -/
def searchXRefID : ℕ → String → Handler String
  | 0, _ => throw .endless
  | n + 1, crossRefID => do
    if ← isXRefIDUsed crossRefID then searchXRefID n (← getNextXRefID)
    else return crossRefID

/-- The device without the two characters that say its type. -/
def deviceNumber (type : DeviceType) (callNr : String) : String :=
  if type = .internalSubscriber then callNr else String.ofList (callNr.toList.drop 2)

def addMonitor (p session : ℕ) (crossRefID : String) : Handler Bool := do
  let object ← device p
  if (object.monitoringSessions.find? crossRefID).isSome then return false
  else
    setDevice p
      { object with
        monitoringSessions := object.monitoringSessions.insert crossRefID session }
    return true

def monitorStart (place : Place) (sender : ℕ) (invokeID : ℤ) (monitorObject : DeviceID) :
    Handler Unit := do
  let type := device2Type monitorObject
  if monitorObject.callNr = "" ∨ type = .unknown then
    respond sender (.universalError invokeID .invalidMonitorObject)
  else
    perform .lock
    let pDevice ← prepareDevice place (deviceNumber type monitorObject.callNr) type
    let crossRefID ← searchXRefID 100002 (← device pDevice).strDevice
    if ← addMonitor pDevice sender crossRefID then
      respond sender (.monitorStart invokeID crossRefID)
      perform .unlock
    else
      respond sender (.universalError invokeID .invalidMonitorObject)
      perform .unlock

/-! ## Snapshots -/

/-- What a snapshot says about a connection of the device. -/
def snapshotConnection (snapshotObject : DeviceID) (entry : ℕ × ℕ) :
    Handler (ConnectionID × ConnectionState) := do
  let object ← connection entry.2
  return (⟨snapshotObject, (← call object.pCall).strUUID⟩, object.state)

def snapshotDevice (place : Place) (sender : ℕ) (invokeID : ℤ) (snapshotObject : DeviceID) :
    Handler Unit := do
  let type := device2Type snapshotObject
  if type = .unknown then respond sender (.universalError invokeID .invalidDeviceID)
  else
    perform .lock
    let pDevice ← prepareDevice place (deviceNumber type snapshotObject.callNr) type
    let data ← (← device pDevice).connections.entries.mapM (snapshotConnection snapshotObject)
    respond sender (.snapshotDevice invokeID data)
    perform .unlock

/-- What a snapshot says about a device of the call. -/
def snapshotMember (pCall : ℕ) (uuid : String) (entry : String × ℕ) :
    Handler (String × ConnectionState) := do
  let object ← device entry.2
  match object.connections.find? pCall with
  | none =>
    perform (.withoutConnection object.strDevice uuid)
    return (object.strDevice, .null)
  | some pConnection => return (object.strDevice, (← connection pConnection).state)

def snapshotCall (sender : ℕ) (invokeID : ℤ) (callID : String)
    (profile : Option CallerProfile) : Handler Unit := do
  perform .lock
  match ← getCall callID with
  | none => refuse sender invokeID .invalidCallID
  | some pCall =>
    let object ← call pCall
    let data ← object.devices.entries.mapM (snapshotMember pCall object.strUUID)
    let callerCalled ← findCallerCalled object.strUUID profile
    respond sender (.snapshotCall invokeID data callerCalled.1 callerCalled.2)
    perform .unlock

/-! ## MakeCall -/

def setMakeCallOriginator (value : Bool) : Option ℕ → Handler Unit
  | none => return
  | some p => do setDevice p { ← device p with isMakeCallOriginator := value }

/-- The calling device; a subscriber is prepared. -/
def callingDevice (place : Place) (device : DeviceID) : Handler (Option ℕ) := do
  if device.typeOfNumber = .dialable then
    return some (← prepareDevice place device.callNr .internalSubscriber)
  else return none

/-- `MakeCall` up to `switch_ivr_originate`; the mutex is not taken. -/
def makeCall (place : Place) (sender : ℕ) (invokeID : ℤ) (device : DeviceID) : Handler Unit := do
  let pDevice ← callingDevice place device
  setMakeCallOriginator true pDevice
  modify fun s =>
    { s with pendingMakeCalls := s.pendingMakeCalls ++ [⟨sender, invokeID, device, pDevice⟩] }

/-- The rest of `MakeCall`, with the UUID of the session that has been originated, if any. -/
def makeCallOriginated (n : ℕ) (session : Option String) : Handler Unit := do
  match (← get).pendingMakeCalls[n]? with
  | none => return
  | some pending =>
    modify fun s => { s with pendingMakeCalls := s.pendingMakeCalls.eraseIdx n }
    match session with
    | none =>
      respond pending.sender (.universalError pending.invokeID .genericError)
      setMakeCallOriginator false pending.pDevice
    | some uuid =>
      respond pending.sender (.makeCall pending.invokeID ⟨pending.callingDevice, uuid⟩)
      setMakeCallOriginator false pending.pDevice
      perform (.rwunlock uuid)

/-! ## Requests about a connection -/

/-- The device, the call and the connection that a request names, with an error where one of them is
missing. -/
def withConnection (sender : ℕ) (invokeID : ℤ) (connectionID : ConnectionID)
    (act : ℕ → Handler Unit) : Handler Unit := do
  perform .lock
  match ← getCall connectionID.callID with
  | none => refuse sender invokeID .invalidCallID
  | some pCall =>
    match (← call pCall).devices.find? connectionID.deviceID.callNr with
    | none => refuse sender invokeID .invalidDeviceID
    | some pDevice =>
      match ← findConnection pDevice pCall with
      | none => refuse sender invokeID .invalidDeviceID
      | some pConnection => act pConnection

/-- The session of a connection, with an error where it is missing. -/
def withSession (sender : ℕ) (invokeID : ℤ) (error : ErrorCode) (located : Bool)
    (act : String → Handler Unit) (pConnection : ℕ) : Handler Unit := do
  let uuid := (← connection pConnection).strUUID
  perform (.locate uuid located)
  if located then act uuid else refuse sender invokeID error

/-- The answer to a request that the core has accepted, or not. -/
def answer (sender : ℕ) (invokeID : ℤ) (service : Service) (accepted : Bool) : Handler Unit :=
  respond sender
    (if accepted then .done invokeID service else .universalError invokeID .genericError)

/-- The core is asked to do this with the session, which is released then. -/
def answerAndRelease (sender : ℕ) (invokeID : ℤ) (service : Service) (accepted : Bool)
    (uuid : String) : Handler Unit := do
  answer sender invokeID service accepted
  perform (.rwunlock uuid)
  perform .unlock

def answerCall (sender : ℕ) (invokeID : ℤ) (callToBeAnswered : ConnectionID)
    (located answered : Bool) : Handler Unit :=
  withConnection sender invokeID callToBeAnswered <|
    withSession sender invokeID .invalidCallID located <|
      answerAndRelease sender invokeID .answerCall answered

def playMessage (sender : ℕ) (invokeID : ℤ) (overConnection : ConnectionID) (broadcast : Bool) :
    Handler Unit :=
  withConnection sender invokeID overConnection fun pConnection => do
    let _ ← connection pConnection
    answer sender invokeID .playMessage broadcast
    perform .unlock

/-- The session stays locked where a record or broadcast is in progress. -/
def recordMessage (sender : ℕ) (invokeID : ℤ) (callToBeRecorded : ConnectionID)
    (located inProgress eventCreated : Bool) : Handler Unit :=
  withConnection sender invokeID callToBeRecorded <|
    withSession sender invokeID .invalidCallID located fun uuid =>
      if inProgress then refuse sender invokeID .genericError
      else answerAndRelease sender invokeID .recordMessage eventCreated uuid

/-- The session stays locked where no record or broadcast is running. -/
def stopMessage (sender : ℕ) (invokeID : ℤ) (connectionID : ConnectionID)
    (located inProgress : Bool) : Handler Unit :=
  withConnection sender invokeID connectionID <|
    withSession sender invokeID .invalidCallID located fun uuid =>
      if inProgress then answerAndRelease sender invokeID .stop true uuid
      else refuse sender invokeID .genericError

def clearConnection (sender : ℕ) (invokeID : ℤ) (connectionToBeCleared : ConnectionID)
    (located hungUp : Bool) : Handler Unit :=
  withConnection sender invokeID connectionToBeCleared <|
    withSession sender invokeID .invalidDeviceID located <|
      answerAndRelease sender invokeID .clearConnection hungUp

/-! ## Transfers -/

/-- What the core says to the sessions of a transfer, at the turn of each device. -/
structure Transfer where
  located : String → Bool
  transferred : String → Bool

/-- The loop over the other devices of the call; it says whether it has come to its end. -/
def transferOthers (sender : ℕ) (invokeID : ℤ) (done : Response) (core : Transfer)
    (pTransferringDevice pCall : ℕ) (uuid : String) : List (String × ℕ) → Handler Bool
  | [] => return true
  | (id, p) :: rest => do
    if p = pTransferringDevice then
      transferOthers sender invokeID done core pTransferringDevice pCall uuid rest
    else
      match ← findConnection p pCall with
      | none =>
        perform (.withoutConnection id uuid)
        refuse sender invokeID .invalidDeviceID
        return false
      | some pConnection =>
        let session := (← connection pConnection).strUUID
        perform (.locate session (core.located id))
        if core.located id then
          respond sender
            (if core.transferred id then done else .universalError invokeID .genericError)
          perform (.rwunlock session)
          transferOthers sender invokeID done core pTransferringDevice pCall uuid rest
        else
          refuse sender invokeID .invalidDeviceID
          return false

/-- `SingleStepTransferCall` and `DeflectCall`, which differ in their positive answers. -/
def transfer (sender : ℕ) (invokeID : ℤ) (activeCall : ConnectionID) (core : Transfer)
    (done : String → Response) : Handler Unit := do
  perform .lock
  match ← getCall activeCall.callID with
  | none => refuse sender invokeID .invalidCallID
  | some pCall =>
    let object ← call pCall
    match object.devices.find? activeCall.deviceID.callNr with
    | none => refuse sender invokeID .invalidDeviceID
    | some pTransferringDevice =>
      if ← transferOthers sender invokeID (done object.strUUID) core pTransferringDevice pCall
          object.strUUID object.devices.entries then
        deleteConnection pTransferringDevice pCall
        perform .unlock
      else return

def singleStepTransferCall (sender : ℕ) (invokeID : ℤ) (activeCall : ConnectionID)
    (transferredTo : DeviceID) (core : Transfer) : Handler Unit :=
  transfer sender invokeID activeCall core fun uuid =>
    .singleStepTransferCall invokeID ⟨transferredTo, uuid⟩

def deflectCall (sender : ℕ) (invokeID : ℤ) (callToBeDiverted : ConnectionID) (core : Transfer) :
    Handler Unit :=
  transfer sender invokeID callToBeDiverted core fun _ => .done invokeID .deflectCall

/-! ## Runs -/

/-- What makes a handler run. -/
inductive Action
  | channelCreate (event : Event)
  | progress (event : Event) (profile : Option CallerProfile)
  | channelAnswer (event : Event) (profile : Option CallerProfile)
  | channelHangup (event : Event)
  | dtmf (event : Event)
  | playback (event : Event)
  | record (event : Event)
  | callQueued (queue : Option String) (session : CoreSession)
  | callNetworkIncoming (trunk : Option String) (session : CoreSession)
  | callNetworkOutgoing (trunk : Option String) (session : CoreSession)
  | sessionFinished (session : ℕ)
  | monitorStart (sender : ℕ) (invokeID : ℤ) (monitorObject : DeviceID)
  | snapshotDevice (sender : ℕ) (invokeID : ℤ) (snapshotObject : DeviceID)
  | snapshotCall (sender : ℕ) (invokeID : ℤ) (callID : String) (profile : Option CallerProfile)
  | makeCall (sender : ℕ) (invokeID : ℤ) (callingDevice : DeviceID)
  | makeCallOriginated (n : ℕ) (session : Option String)
  | answerCall (sender : ℕ) (invokeID : ℤ) (callToBeAnswered : ConnectionID)
      (located answered : Bool)
  | playMessage (sender : ℕ) (invokeID : ℤ) (overConnection : ConnectionID) (broadcast : Bool)
  | recordMessage (sender : ℕ) (invokeID : ℤ) (callToBeRecorded : ConnectionID)
      (located inProgress eventCreated : Bool)
  | stopMessage (sender : ℕ) (invokeID : ℤ) (connectionID : ConnectionID)
      (located inProgress : Bool)
  | clearConnection (sender : ℕ) (invokeID : ℤ) (connectionToBeCleared : ConnectionID)
      (located hungUp : Bool)
  | singleStepTransferCall (sender : ℕ) (invokeID : ℤ) (activeCall : ConnectionID)
      (transferredTo : DeviceID) (core : Transfer)
  | deflectCall (sender : ℕ) (invokeID : ℤ) (callToBeDiverted : ConnectionID) (core : Transfer)

/-- The handler of an action. -/
def handle (place : Place) : Action → Handler Unit
  | .channelCreate event => onChannelCreate place event
  | .progress event profile => onProgress place event profile
  | .channelAnswer event profile => onChannelAnswer place event profile
  | .channelHangup event => onChannelHangup place event
  | .dtmf event => onDtmf place event
  | .playback event => onPlayback place event
  | .record event => onRecord place event
  | .callQueued queue session => onCallQueued place queue session
  | .callNetworkIncoming trunk session => onCallNetworkIncoming place trunk session
  | .callNetworkOutgoing trunk session => onCallNetworkOutgoing place trunk session
  | .sessionFinished session => onSessionFinished session
  | .monitorStart sender invokeID monitorObject =>
    monitorStart place sender invokeID monitorObject
  | .snapshotDevice sender invokeID snapshotObject =>
    snapshotDevice place sender invokeID snapshotObject
  | .snapshotCall sender invokeID callID profile => snapshotCall sender invokeID callID profile
  | .makeCall sender invokeID device => makeCall place sender invokeID device
  | .makeCallOriginated n session => makeCallOriginated n session
  | .answerCall sender invokeID connectionID located answered =>
    answerCall sender invokeID connectionID located answered
  | .playMessage sender invokeID connectionID broadcast =>
    playMessage sender invokeID connectionID broadcast
  | .recordMessage sender invokeID connectionID located inProgress eventCreated =>
    recordMessage sender invokeID connectionID located inProgress eventCreated
  | .stopMessage sender invokeID connectionID located inProgress =>
    stopMessage sender invokeID connectionID located inProgress
  | .clearConnection sender invokeID connectionID located hungUp =>
    clearConnection sender invokeID connectionID located hungUp
  | .singleStepTransferCall sender invokeID activeCall transferredTo core =>
    singleStepTransferCall sender invokeID activeCall transferredTo core
  | .deflectCall sender invokeID callToBeDiverted core =>
    deflectCall sender invokeID callToBeDiverted core

/-- The actions one after the other, each with the places of its new objects. -/
def run : FreeSWITCH → List (Place × Action) → Except Fault FreeSWITCH
  | s, [] => .ok s
  | s, (place, action) :: actions =>
    match (handle place action).run s with
    | .ok (_, s') => run s' actions
    | .error fault => .error fault

end Csta
