import FreeswitchContrib.Library.CString
import FreeswitchContrib.Library.Printing

/-!
# The configuration of `mod_amqp`, and its log

`do_config` takes the names of the routing key's fields and the event filters from comma separated
lists, and `logConfigValues` prints what it found: the settings by one `snprintf` that is limited to
the buffer, and then each filter at a cursor that grows by what the `snprintf` before it *would
have* printed.

* `doConfig_fields_length`: there are no more fields than a routing key has.
* `staysInBuffer_iff`: how long the settings and the filters may be for the cursor to stay in the
  buffer.

The numbers of the events are those of `switch_event_types_t`, which is not here: `value` says which
number the name has.
-/

namespace FreeswitchContrib.Amqp

open Printing (Piece Chained)

/-! ## Events -/

/-- The names of `parse_fs_event_name` and `fs_event_get_name`, in their order. -/
def eventNames : List String := [
  "SWITCH_EVENT_CUSTOM", "SWITCH_EVENT_CLONE", "SWITCH_EVENT_CHANNEL_CREATE",
  "SWITCH_EVENT_CHANNEL_DESTROY", "SWITCH_EVENT_CHANNEL_STATE", "SWITCH_EVENT_CHANNEL_CALLSTATE",
  "SWITCH_EVENT_CHANNEL_ANSWER", "SWITCH_EVENT_CHANNEL_HANGUP",
  "SWITCH_EVENT_CHANNEL_HANGUP_COMPLETE", "SWITCH_EVENT_CHANNEL_EXECUTE",
  "SWITCH_EVENT_CHANNEL_EXECUTE_COMPLETE", "SWITCH_EVENT_CHANNEL_HOLD",
  "SWITCH_EVENT_CHANNEL_UNHOLD", "SWITCH_EVENT_CHANNEL_BRIDGE", "SWITCH_EVENT_CHANNEL_UNBRIDGE",
  "SWITCH_EVENT_CHANNEL_PROGRESS", "SWITCH_EVENT_CHANNEL_PROGRESS_MEDIA",
  "SWITCH_EVENT_CHANNEL_OUTGOING", "SWITCH_EVENT_CHANNEL_PARK", "SWITCH_EVENT_CHANNEL_UNPARK",
  "SWITCH_EVENT_CHANNEL_APPLICATION", "SWITCH_EVENT_CHANNEL_ORIGINATE",
  "SWITCH_EVENT_CHANNEL_UUID", "SWITCH_EVENT_API", "SWITCH_EVENT_LOG", "SWITCH_EVENT_INBOUND_CHAN",
  "SWITCH_EVENT_OUTBOUND_CHAN", "SWITCH_EVENT_STARTUP", "SWITCH_EVENT_SHUTDOWN",
  "SWITCH_EVENT_PUBLISH", "SWITCH_EVENT_UNPUBLISH", "SWITCH_EVENT_TALK", "SWITCH_EVENT_NOTALK",
  "SWITCH_EVENT_SESSION_CRASH", "SWITCH_EVENT_MODULE_LOAD", "SWITCH_EVENT_MODULE_UNLOAD",
  "SWITCH_EVENT_DTMF", "SWITCH_EVENT_MESSAGE", "SWITCH_EVENT_PRESENCE_IN",
  "SWITCH_EVENT_NOTIFY_IN", "SWITCH_EVENT_PRESENCE_OUT", "SWITCH_EVENT_PRESENCE_PROBE",
  "SWITCH_EVENT_MESSAGE_WAITING", "SWITCH_EVENT_MESSAGE_QUERY", "SWITCH_EVENT_ROSTER",
  "SWITCH_EVENT_CODEC", "SWITCH_EVENT_BACKGROUND_JOB", "SWITCH_EVENT_DETECTED_SPEECH",
  "SWITCH_EVENT_DETECTED_TONE", "SWITCH_EVENT_PRIVATE_COMMAND", "SWITCH_EVENT_HEARTBEAT",
  "SWITCH_EVENT_TRAP", "SWITCH_EVENT_ADD_SCHEDULE", "SWITCH_EVENT_DEL_SCHEDULE",
  "SWITCH_EVENT_EXE_SCHEDULE", "SWITCH_EVENT_RE_SCHEDULE", "SWITCH_EVENT_RELOADXML",
  "SWITCH_EVENT_NOTIFY", "SWITCH_EVENT_SEND_MESSAGE", "SWITCH_EVENT_RECV_MESSAGE",
  "SWITCH_EVENT_REQUEST_PARAMS", "SWITCH_EVENT_CHANNEL_DATA", "SWITCH_EVENT_GENERAL",
  "SWITCH_EVENT_COMMAND", "SWITCH_EVENT_SESSION_HEARTBEAT", "SWITCH_EVENT_CLIENT_DISCONNECTED",
  "SWITCH_EVENT_SERVER_DISCONNECTED", "SWITCH_EVENT_SEND_INFO", "SWITCH_EVENT_RECV_INFO",
  "SWITCH_EVENT_RECV_RTCP_MESSAGE", "SWITCH_EVENT_CALL_SECURE", "SWITCH_EVENT_NAT",
  "SWITCH_EVENT_RECORD_START", "SWITCH_EVENT_RECORD_STOP", "SWITCH_EVENT_PLAYBACK_START",
  "SWITCH_EVENT_PLAYBACK_STOP", "SWITCH_EVENT_CALL_UPDATE", "SWITCH_EVENT_FAILURE",
  "SWITCH_EVENT_SOCKET_DATA", "SWITCH_EVENT_MEDIA_BUG_START", "SWITCH_EVENT_MEDIA_BUG_STOP",
  "SWITCH_EVENT_CONFERENCE_DATA_QUERY", "SWITCH_EVENT_CONFERENCE_DATA",
  "SWITCH_EVENT_CALL_SETUP_REQ", "SWITCH_EVENT_CALL_SETUP_RESULT", "SWITCH_EVENT_ALL"]

/-- The number of the event, or -1. -/
def parseFsEventName (value : String → ℤ) (eventName : List Char) : ℤ :=
  match eventNames.find? fun name => CString.strcasecmp eventName name.toList with
  | some name => value name
  | none => -1

def fsEventGetName (value : String → ℤ) (eventType : ℤ) : List Char :=
  match eventNames.find? fun name => value name = eventType with
  | some name => name.toList
  | none => "<unknown event type>".toList

/-! ## `do_config` -/

/-- The part of `globals` that is logged. -/
structure Settings where
  amqpHostnames : List Char
  amqpVirtualHost : List Char
  amqpPort : ℤ
  amqpUsername : List Char
  amqpHeartbeatSeconds : ℤ
  eventExchange : List Char
  eventExchangeType : List Char
  commandExchange : List Char
  commandExchangeType : List Char
  commandBindingKey : List Char
  amqpSendQueueSize : ℤ
  circuit_breaker_ms : ℤ
  reconnect_interval_ms : ℤ

/-- What is parsed from `amqp.conf`. -/
structure AmqpConf where
  settings : Settings
  eventRoutingKeyFormatFieldsCsv : List Char
  event_filter : List Char

/-- `globals` when `do_config` logs it. -/
structure Configured where
  settings : Settings
  eventRoutingKeyFormatFields : List (List Char)
  event_ids : List ℤ

/-- The tokens that `strtok_r` finds one after the other. -/
def tokens (csv : List Char) : List (List Char) := (csv.splitOn ',').filter (· ≠ [])

/-- The settings when `amqp.conf` cannot be parsed. -/
def defaultSettings : Settings where
  amqpHostnames := "localhost".toList
  amqpVirtualHost := "/".toList
  amqpPort := 5672
  amqpUsername := "guest".toList
  amqpHeartbeatSeconds := 0
  eventExchange := "TAP.Events".toList
  eventExchangeType := "topic".toList
  commandExchange := "TAP.Commands".toList
  commandExchangeType := "topic".toList
  commandBindingKey := "#".toList
  amqpSendQueueSize := 500
  circuit_breaker_ms := 10000
  reconnect_interval_ms := 1000

/-- The loop over the event filters.  A name that is not known has a negative number only where the
enumeration is signed, which is up to the compiler. -/
def eventFilters (value : String → ℤ) (isSigned : Bool) (event_filter : List Char) :
    Option (List ℤ) :=
  ((tokens event_filter).take (value "SWITCH_EVENT_ALL").toNat).mapM fun eventName =>
    let event_id := parseFsEventName value eventName
    if isSigned ∧ event_id < 0 then none else some event_id

/-- `do_config` up to its log, if it comes to it. -/
def doConfig (value : String → ℤ) (isSigned : Bool) : Option AmqpConf → Option Configured
  | none => some ⟨defaultSettings, [], [value "SWITCH_EVENT_ALL"]⟩
  | some conf =>
    let fields := tokens conf.eventRoutingKeyFormatFieldsCsv
    if 10 < fields.length then none
    else (eventFilters value isSigned conf.event_filter).map fun event_ids =>
      ⟨conf.settings, fields, event_ids⟩

variable {value : String → ℤ} {isSigned : Bool}

/-- The fields are no more than a routing key has. -/
theorem doConfig_fields_length {amqpConf : Option AmqpConf} {configured : Configured}
    (h : doConfig value isSigned amqpConf = some configured) :
    configured.eventRoutingKeyFormatFields.length ≤ 10 := by
  cases amqpConf with
  | none =>
    obtain rfl := Option.some.inj h
    exact Nat.zero_le _
  | some conf =>
    rw [doConfig] at h
    split_ifs at h with hmany
    obtain ⟨event_ids, -, rfl⟩ := Option.map_eq_some_iff.mp h
    exact Nat.le_of_not_lt hmany

/-! ## `logConfigValues` -/

/-- `%d` -/
def decimal : ℤ → List Char
  | .ofNat n => Nat.toDigits 10 n
  | .negSucc n => '-' :: Nat.toDigits 10 (n + 1)

def settingsText (globals : Settings) : List Char :=
  ["Amqp Settings:-\n amqpHostnames: ".toList, globals.amqpHostnames,
    "\n amqpVirtualHost: ".toList, globals.amqpVirtualHost,
    "\n amqpPort: ".toList, decimal globals.amqpPort,
    "\n amqpUsername: ".toList, globals.amqpUsername,
    "\n amqpHeartbeatSeconds: ".toList, decimal globals.amqpHeartbeatSeconds,
    "\n eventExchange: ".toList, globals.eventExchange,
    "\n eventExchangeType: ".toList, globals.eventExchangeType,
    "\n commandExchange: ".toList, globals.commandExchange,
    "\n commandExchangeType: ".toList, globals.commandExchangeType,
    "\n commandBindingKey: ".toList, globals.commandBindingKey,
    "\n amqpSendQueueSize: ".toList, decimal globals.amqpSendQueueSize,
    "\n circuit_breaker_ms: ".toList, decimal globals.circuit_breaker_ms,
    "\n reconnect_interval_ms: ".toList, decimal globals.reconnect_interval_ms,
    "\n eventFilter: ".toList].flatten

/-- `"%s(%d) "` -/
def filterText (value : String → ℤ) (event_id : ℤ) : List Char :=
  fsEventGetName value event_id ++ '(' :: decimal event_id ++ [')', ' ']

/-- The loop over the filters: what is printed at which cursor, an offset into the buffer. -/
def filterCalls (value : String → ℤ) : ℕ → List ℤ → List Piece
  | _, [] => []
  | cursor, event_id :: event_ids =>
    ⟨cursor, filterText value event_id⟩ ::
      filterCalls value (cursor + (filterText value event_id).length) event_ids

/-- The `strlen` of the settings that were printed into the 1024 characters. -/
def settingsEnd (globals : Settings) : ℕ := ((settingsText globals).take 1023).length

/-- The calls of the loop, which begins behind the settings. -/
def logConfigValues (value : String → ℤ) (globals : Settings) (event_ids : List ℤ) : List Piece :=
  filterCalls value (settingsEnd globals) event_ids

/-- The size that is passed, before it becomes a `size_t`. -/
def remaining (cursor : ℕ) : ℤ := 1024 - cursor - 2

/-- The cursor, before and behind each call, is not behind the buffer's end, and each size that is
passed is a size. -/
structure StaysInBuffer (cursor : ℕ) (calls : List Piece) : Prop where
  before : cursor ≤ 1024
  behind : ∀ call ∈ calls, call.last ≤ 1024
  size : ∀ call ∈ calls, 0 ≤ remaining call.offset

variable {globals : Settings} {event_ids : List ℤ}

lemma filterCalls_append (event_ids : List ℤ) (event_id : ℤ) (cursor : ℕ) :
    filterCalls value cursor (event_ids ++ [event_id]) = filterCalls value cursor event_ids ++
      [⟨cursor + (event_ids.flatMap (filterText value)).length, filterText value event_id⟩] := by
  induction event_ids generalizing cursor with
  | nil => rfl
  | cons first event_ids ih =>
    simp only [List.cons_append, filterCalls, ih, List.flatMap_cons, List.length_append,
      Nat.add_assoc]

/-- Each filter is printed where the one before it would have ended. -/
lemma filterCalls_chained (value : String → ℤ) (event_ids : List ℤ) (cursor : ℕ) :
    Chained cursor (filterCalls value cursor event_ids) ∧
      Printing.text (filterCalls value cursor event_ids) =
        event_ids.flatMap (filterText value) := by
  induction event_ids generalizing cursor with
  | nil => exact ⟨trivial, rfl⟩
  | cons event_id event_ids ih =>
    obtain ⟨hchained, htext⟩ := ih (cursor + (filterText value event_id).length)
    exact ⟨⟨rfl, hchained⟩, by rw [filterCalls, Printing.text_cons, htext, List.flatMap_cons]⟩

lemma settingsEnd_eq (globals : Settings) :
    settingsEnd globals = min 1023 (settingsText globals).length := List.length_take

lemma remaining_nonneg_iff {cursor : ℕ} : 0 ≤ remaining cursor ↔ cursor ≤ 1022 := by
  rw [remaining]
  omega

/-- **When the cursor stays in the buffer**: without filters, or when the settings with all filters
but the last leave two characters, and with all filters end in the buffer. -/
theorem staysInBuffer_iff (value : String → ℤ) (globals : Settings) (event_ids : List ℤ) :
    StaysInBuffer (settingsEnd globals) (logConfigValues value globals event_ids) ↔
      event_ids = [] ∨
        (settingsText globals).length + (event_ids.dropLast.flatMap (filterText value)).length
            ≤ 1022 ∧
          (settingsText globals).length + (event_ids.flatMap (filterText value)).length ≤ 1024 := by
  have hstart := settingsEnd_eq globals
  rcases List.eq_nil_or_concat' event_ids with rfl | ⟨first, event_id, rfl⟩
  · have hbuffer : StaysInBuffer (settingsEnd globals) (logConfigValues value globals []) :=
      ⟨by omega, nofun, nofun⟩
    exact iff_of_true hbuffer (Or.inl rfl)
  · obtain ⟨hchained, htext⟩ := filterCalls_chained value (first ++ [event_id])
      (settingsEnd globals)
    have hfirst := (filterCalls_chained value first (settingsEnd globals)).2
    rw [filterCalls_append] at hchained htext
    have hoffset : (∀ call : Piece, call ∈ _ → call.offset ≤ 1022) ↔ _ :=
      hchained.forall_offset_le_iff
    have hend : (∀ call : Piece, call ∈ _ → call.last < 1025) ↔ _ := hchained.forall_end_lt_iff
    rw [hfirst] at hoffset
    rw [htext] at hend
    rw [List.dropLast_concat, logConfigValues, filterCalls_append]
    constructor
    · intro h
      have hsize := hoffset.mp fun call hcall => remaining_nonneg_iff.mp (h.size call hcall)
      have hbehind := hend.mp fun call hcall => Nat.lt_succ_of_le (h.behind call hcall)
      exact Or.inr (by omega)
    · rintro (hnil | ⟨hsize, hbehind⟩)
      · simp at hnil
      · exact ⟨by omega, fun call hcall => Nat.le_of_lt_succ (hend.mpr (by omega) call hcall),
          fun call hcall => remaining_nonneg_iff.mpr (hoffset.mpr (by omega) call hcall)⟩

/-- So many brokers that their names fill the buffer. -/
def manyHostnames : AmqpConf where
  settings := { defaultSettings with amqpHostnames := List.replicate 1024 'h' }
  eventRoutingKeyFormatFieldsCsv := "Event-Name".toList
  event_filter := "SWITCH_EVENT_CUSTOM".toList

theorem not_staysInBuffer : ¬ ∀ (value : String → ℤ) (isSigned : Bool) (conf : Option AmqpConf)
    (configured : Configured), doConfig value isSigned conf = some configured →
      StaysInBuffer (settingsEnd configured.settings)
        (logConfigValues value configured.settings configured.event_ids) := by
  intro h
  have hconf : doConfig (fun name => if name = "SWITCH_EVENT_CUSTOM" then 0 else 85) true
      (some manyHostnames) = some ⟨manyHostnames.settings, ["Event-Name".toList], [0]⟩ := by rfl
  have hend : settingsEnd manyHostnames.settings = 1023 := by set_option maxRecDepth 8192 in decide
  have hsize := (h _ _ _ _ hconf).size _ List.mem_cons_self
  rw [remaining_nonneg_iff, hend] at hsize
  exact absurd hsize (by decide)

end FreeswitchContrib.Amqp
