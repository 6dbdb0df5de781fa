import FreeswitchContrib.Csta.FreeSwitch

/-!
# The handlers of `mod_csta_socket`

What is done for the events of channels, for calls that enter a queue or pass a trunk, and for the
requests of the sessions.  Every handler but `MakeCall` holds the mutex while it works on the
objects, so that it is one step of a run; `MakeCall` originates its call between two steps.
-/

namespace Csta

/-- `switch_event_t`: whether it is a `CHANNEL_EXECUTE_COMPLETE`, and the headers. -/
structure Event where
  executeComplete : Bool
  getHeader : String → Option String

/-- The channel and the two UUIDs that an event is about. -/
def Event.leg (event : Event) : Option (String × String × Option String) := do
  let channel ← event.getHeader "Channel-Name"
  let uuid ← event.getHeader "Unique-ID"
  return (channel, uuid, event.getHeader "Other-Leg-Unique-ID")

/-- The id of the device that `PrepareCallData` has found, where there is one. -/
def deviceIdOf (p : Option ℕ) : Handler (Option String) :=
  match p with
  | none => return none
  | some p => do return some (← device p).strDevice

/-! ## Events of channels -/

def onChannelCreate (place : Place) (event : Event) : Handler Unit := do
  match event.getHeader "Channel-Name" with
  | none => return
  | some channel =>
    if strstr channel "sofia/external" ∨ channel2Device channel = "" then return
    else
      perform .lock
      let pDevice ← prepareDevice place (channel2Device channel) .internalSubscriber
      let object ← device pDevice
      match event.getHeader "Call-Direction", event.getHeader "Unique-ID" with
      | some direction, some uuid =>
        if direction ≠ "inbound" ∧ object.isMakeCallOriginator = false then perform .unlock
        else
          match ← getCall uuid with
          | some _ => perform .unlock
          | none =>
            let pCall ← newCall place uuid
            let _ ← addConnection place pDevice uuid channel pCall .outgoing
            sendIfMonitored pDevice
              { kind := .serviceInitiated
                connection := (object.strDevice, uuid)
                cause := if object.isMakeCallOriginator then some .makeCall else none }
            perform .unlock
      | _, _ => perform .unlock

/-- The events of a progress: the first one goes out when the device is the caller. -/
def progressEvents (object : FreeSwitchDevice) (uuid : String) (state : ConnectionState)
    (caller called : String) (inboundNID outboundNID : Option String) : List CSTAEvent :=
  let network := if inboundNID.isSome then some called else none
  let originated : CSTAEvent :=
    { kind := .originated
      connection := (caller, uuid)
      localConnectionInfo := some .connected
      callingDevice := some caller
      calledDevice := some called
      networkCalledDevice := network
      networkCallingDevice := if inboundNID.isSome then some caller else none
      associatedCallingDevice := inboundNID }
  let delivered : CSTAEvent :=
    { kind := .delivered
      connection := (outboundNID.getD called, uuid)
      localConnectionInfo := some state
      callingDevice := some caller
      calledDevice := some called
      networkCalledDevice := network
      networkCallingDevice := if inboundNID.isSome then some caller else none
      associatedCallingDevice := inboundNID
      associatedCalledDevice := outboundNID }
  if object.monitoringSessions.isEmpty then []
  else if state = .connected then [originated, delivered]
  else [delivered]

/-- The connection that `PrepareCallData` has found, or a new one. -/
def foundOrAdded (place : Place) (uuid channel : String) (prepared : Prepared) : Handler ℕ :=
  match prepared.pConnection with
  | none => addConnection place prepared.pDevice uuid channel prepared.pCall .incoming
  | some pConnection => return pConnection

def setState (pConnection : ℕ) (state : ConnectionState) : Handler Unit := do
  setConnection pConnection { ← connection pConnection with state := state }

def onProgress (place : Place) (event : Event) (profile : Option CallerProfile) :
    Handler Unit := do
  match event.leg with
  | none => return
  | some (channel, uuid, uuid2) =>
    perform .lock
    match ← prepareCallData place uuid uuid2 channel true
        { networkInterfaces := true, callerCalled := true } profile with
    | none => perform .unlock
    | some prepared =>
      let pConnection ← foundOrAdded place uuid channel prepared
      let state :=
        if prepared.pConnection.isNone then ConnectionState.alerting else .connected
      setState pConnection state
      let inbound ← deviceIdOf prepared.data.inboundNID
      let outbound ← deviceIdOf prepared.data.outboundNID
      (progressEvents (← device prepared.pDevice) (← call prepared.pCall).strUUID state
        prepared.caller prepared.called inbound outbound).forM (sendEvent prepared.pDevice)
      perform .unlock

def onChannelAnswer (place : Place) (event : Event) (profile : Option CallerProfile) :
    Handler Unit := do
  match event.leg with
  | none => return
  | some (channel, uuid, uuid2) =>
    perform .lock
    match ← prepareCallData place uuid uuid2 channel true
        { queue := true, networkInterfaces := true, callerCalled := true } profile with
    | none => perform .unlock
    | some prepared =>
      let pConnection ← foundOrAdded place uuid channel prepared
      setState pConnection .connected
      let queue ← deviceIdOf prepared.data.queue
      let inbound ← deviceIdOf prepared.data.inboundNID
      let outbound ← deviceIdOf prepared.data.outboundNID
      let established : CSTAEvent :=
        { kind := .established
          connection := (outbound.getD (queue.getD prepared.called),
            (← call prepared.pCall).strUUID)
          callingDevice := some prepared.caller
          calledDevice := some prepared.called
          networkCalledDevice := if inbound.isSome then some prepared.called else none
          networkCallingDevice := if inbound.isSome then some prepared.caller else none
          associatedCallingDevice := inbound
          associatedCalledDevice := outbound }
      sendIfMonitored prepared.pDevice established
      prepared.data.queue.toList.forM fun pQueue => sendIfMonitored pQueue established
      perform .unlock

/-- The cause of a hangup; the last comparison is made for a null pointer too. -/
def hangupCause : Option String → Handler (Option EventCause)
  | none => throw .nullString
  | some cause =>
    if cause = "NORMAL_CLEARING" then return some .normalClearing
    else if cause = "NO_ROUTE_DESTINATION" then return some .destNotObtainable
    else if cause = "USER_BUSY" then return some .busy
    else if cause = "ORIGINATOR_CANCEL" then return some .callNotAnswered
    else return none

/-- A turn of the loop of `OnChannelHangup`; what it hands on is the last queue. -/
def hangUpDevice (pDevice : ℕ) (uuid : String) (devicesInCall : ℕ) (cleared : CSTAEvent)
    (pQueueDevice : Option ℕ) (entry : String × ℕ) : Handler (Option ℕ) := do
  match ← findConnectionByUUID entry.2 uuid with
  | none =>
    perform (.withoutConnection entry.1 uuid)
    return pQueueDevice
  | some pConnection =>
    let object ← device entry.2
    let connectionObject ← connection pConnection
    let state :=
      if object.deviceType = .queue ∨ entry.2 = pDevice then .null
      else if devicesInCall ≤ 2 then .fail
      else connectionObject.state
    setConnection pConnection { connectionObject with state := state }
    sendIfMonitored entry.2 { cleared with localConnectionInfo := some state }
    return if object.deviceType = .queue then some entry.2 else pQueueDevice

/-- The connection of the last queue is cleared. -/
def clearQueue (pCall : ℕ) (uuid : String) (cause : Option EventCause) :
    Option ℕ → Handler Unit
  | none => return
  | some pQueue => do
    sendIfMonitored pQueue
      { kind := .connectionCleared
        connection := ((← device pQueue).strDevice, uuid)
        localConnectionInfo := some .null
        cause := cause }
    deleteConnection pQueue pCall

/-- A call without devices is taken out of `m_CallMap` and deleted. -/
def deleteIfEmpty (pCall : ℕ) : Handler Unit := do
  let object ← call pCall
  if object.devices.isEmpty then
    modify fun s =>
      { s with
        callMap := s.callMap.erase object.strUUID
        calls := Function.update s.calls pCall none }
  else return

def onChannelHangup (place : Place) (event : Event) : Handler Unit := do
  match event.leg with
  | none => return
  | some (channel, uuid, uuid2) =>
    perform .lock
    match ← prepareCallData place uuid uuid2 channel false {} none with
    | none => perform .unlock
    | some prepared =>
      let object ← call prepared.pCall
      let strDevice := (← device prepared.pDevice).strDevice
      let cause ← hangupCause (event.getHeader "Hangup-Cause")
      let pQueueDevice ← object.devices.entries.foldlM
        (hangUpDevice prepared.pDevice object.strUUID object.devices.entries.length
          { kind := .connectionCleared, connection := (strDevice, object.strUUID), cause := cause })
        none
      deleteConnection prepared.pDevice prepared.pCall
      clearQueue prepared.pCall object.strUUID cause pQueueDevice
      deleteIfEmpty prepared.pCall
      perform .unlock

def onDtmf (place : Place) (event : Event) : Handler Unit := do
  match event.leg with
  | none => return
  | some (channel, uuid, uuid2) =>
    perform .lock
    match ← prepareCallData place uuid uuid2 channel false { queue := true } none with
    | none => perform .unlock
    | some prepared =>
      match event.getHeader "DTMF-Digit" with
      | none => perform .unlock
      | some digit =>
        let detected : CSTAEvent :=
          { kind := .dtmfDetected
            connection :=
              ((← device prepared.pDevice).strDevice, (← call prepared.pCall).strUUID)
            detail := some (String.ofList (digit.toList.take 1)) }
        sendIfMonitored prepared.pDevice detected
        prepared.data.queue.toList.forM fun pQueue => sendIfMonitored pQueue detected
        perform .unlock

/-- `OnPlayback` and `OnRecord`: an event about a file goes to all devices of the call. -/
def onFile (place : Place) (event : Event) (kind : EventKind) (cause : Option EventCause)
    (file : String → String) : Handler Unit := do
  match event.leg with
  | none => return
  | some (channel, uuid, uuid2) =>
    perform .lock
    match ← prepareCallData place uuid uuid2 channel false {} none with
    | none => perform .unlock
    | some prepared =>
      match event.getHeader "Application-Data" with
      | none => perform .unlock
      | some data =>
        let object ← call prepared.pCall
        let strDevice := (← device prepared.pDevice).strDevice
        object.devices.entries.forM fun entry =>
          sendIfMonitored entry.2
            { kind := if event.executeComplete then .stop else kind
              connection := (strDevice, object.strUUID)
              cause := if event.executeComplete then cause else none
              detail := some (file data) }
        perform .unlock

/-- What is said about a playback that has ended. -/
def playbackCause : Option String → Option EventCause
  | none => none
  | some result =>
    if result = "FILE PLAYED" then some .endOfMessageDetected
    else if result = "FILE NOT FOUND" then some .resourcesNotAvailable
    else if result = "PLAYBACK ERROR" then some .blocked
    else none

def onPlayback (place : Place) (event : Event) : Handler Unit :=
  onFile place event .play (playbackCause (event.getHeader "Application-Response")) id

/-- The name of a file up to the length parameter behind it. -/
def withoutLength : List Char → List Char
  | [] => []
  | c :: text =>
    if startsWith (c :: text) ".wav " then ".wav".toList else c :: withoutLength text

def onRecord (place : Place) (event : Event) : Handler Unit :=
  onFile place event .record (some .messageDurationExceeded) fun data =>
    String.ofList (withoutLength data.toList)

/-! ## Queues and trunks -/

/-- What an application reads from the session it runs on. -/
structure CoreSession where
  uuid : String
  channelName : String
  profile : CallerProfile

/-- The call of this UUID, which is made where there is none. -/
def getOrCreateCall (place : Place) (uuid : String) : Handler ℕ := do
  match ← getCall uuid with
  | some pCall => return pCall
  | none => newCall place uuid

/-- The first trunk among these devices. -/
def firstTrunk : List (String × ℕ) → Handler (Option String)
  | [] => return none
  | entry :: rest => do
    let object ← device entry.2
    if object.deviceType = .networkInterface then return some object.strDevice
    else firstTrunk rest

/-- The trunk that an external call has come by. -/
def associatedTrunk (external : Bool) (entries : List (String × ℕ)) : Handler (Option String) :=
  if external then firstTrunk entries else return none

/-- The name of a queue or a trunk comes from the dialplan and may be missing. -/
def givenName : Option String → Handler String
  | none => throw .nullString
  | some name => return name

/-- What a call that enters a queue or a trunk gets: the device, the call and a connection. -/
def enterCall (place : Place) (name : Option String) (type : DeviceType) (session : CoreSession)
    (uuid channel : String) (direction : Direction) : Handler (ℕ × ℕ × ℕ) := do
  let pDevice ← prepareDevice place (← givenName name) type
  let pCall ← getOrCreateCall place session.uuid
  let pConnection ← addConnection place pDevice uuid channel pCall direction
  return (pDevice, pCall, pConnection)

def onCallQueued (place : Place) (queue : Option String) (session : CoreSession) :
    Handler Unit := do
  perform .lock
  let (pDevice, pCall, pConnection) ←
    enterCall place queue .queue session session.uuid session.channelName .incoming
  setState pConnection .queued
  let object ← device pDevice
  let entries := (← call pCall).devices.entries
  let external := strstr session.profile.chanName "sofia/external"
  let trunk ← associatedTrunk external entries
  entries.forM fun entry =>
    sendIfMonitored entry.2
      { kind := .queued
        connection := (object.strDevice, session.uuid)
        callingDevice := some session.profile.callerIdNumber
        calledDevice := some session.profile.destinationNumber
        networkCallingDevice := if external then some session.profile.callerIdNumber else none
        networkCalledDevice := if external then some session.profile.destinationNumber else none
        associatedCallingDevice := trunk
        numberQueued := some object.connections.entries.length }
  perform .unlock

def onCallNetworkIncoming (place : Place) (trunk : Option String) (session : CoreSession) :
    Handler Unit := do
  perform .lock
  let (pDevice, _, _) ←
    enterCall place trunk .networkInterface session session.uuid session.channelName .incoming
  sendIfMonitored pDevice
    { kind := .serviceInitiated, connection := ((← device pDevice).strDevice, session.uuid) }
  perform .unlock

/-- The UUID and the channel of the trunk's leg are not yet known. -/
def onCallNetworkOutgoing (place : Place) (trunk : Option String) (session : CoreSession) :
    Handler Unit := do
  perform .lock
  let _ ← enterCall place trunk .networkInterface session "" "" .outgoing
  perform .unlock

end Csta
