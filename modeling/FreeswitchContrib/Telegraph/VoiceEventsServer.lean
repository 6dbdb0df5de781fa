import FreeswitchContrib.Library.Numeral
import FreeswitchContrib.Library.Search
import Mathlib.Data.List.DropRight

/-!
# The voice events server of Telegraph

`receive_data` appends to a buffer and searches the whole buffer with patterns.  An event is taken
from the beginning of the buffer once it has the announced size, but it is not cut off: what is left
is stored under a misspelt name, so that an event stays in the buffer until the next header is
found behind it.

A pattern is given by what it matches at one place, and `search` looks for the leftmost one.  The
router is not modelled: an event counts as passed when its name and its headers are known.
-/

namespace FreeswitchContrib.Telegraph

open Search

abbrev Text := List Char

/-- A hash of symbols and strings. -/
abbrev Headers := Text → Option Text

/-! ## The patterns -/

/-- `\s` -/
def space (c : Char) : Bool :=
  c ∈ [' ', '\t', '\n', '\r', '\x0b', '\x0c']

/-- `\w` or a slash -/
def typeLetter (c : Char) : Bool :=
  c.isAlphanum || c == '_' || c == '/'

/-- What follows this text. -/
def behind (literal text : Text) : Option Text :=
  if literal <+: text then some (text.drop literal.length) else none

/-- `\s` and then one or more of these letters: the letters, and what follows. -/
def spaced (letter : Char → Bool) : Text → Option (Text × Text)
  | [] => none
  | c :: rest =>
    if space c ∧ rest.takeWhile letter ≠ [] then
      some (rest.takeWhile letter, rest.dropWhile letter)
    else
      none

/-- `/Content-Type:\s([\w\/]+)/` -/
def contentTypeHere (text : Text) : Option (Text × Text) :=
  (behind "Content-Type:".toList text).bind (spaced typeLetter)

/-- `/Content-Length:\s(\d+)/` -/
def lengthHere (text : Text) : Option (Text × Text) :=
  (behind "Content-Length:".toList text).bind (spaced Char.isDigit)

/-- `/Content-Length:\s(\d+)\nContent-Type:\s([\w\/\-]+)/`: the digits, the type, and what
follows. -/
def announcementHere (text : Text) : Option (Text × Text × Text) := do
  let (digits, rest) ← lengthHere text
  let rest ← behind "\nContent-Type:".toList rest
  let (type, rest) ← spaced (fun c => typeLetter c || c == '-') rest
  pure (digits, type, rest)

/-- `/Content-Length:\s(\d+)\n\n/` -/
def contentHere (text : Text) : Option (Text × Text) := do
  let (digits, rest) ← lengthHere text
  let rest ← behind "\n\n".toList rest
  pure (digits, rest)

/-! ## Events -/

/-- `gsub('-', '_').downcase.to_sym` -/
def symbol (name : Text) : Text :=
  name.map fun c => if c = '-' then '_' else c.toLower

def isHexDigit (c : Char) : Bool :=
  c.isDigit || ('a' ≤ c && c ≤ 'f') || ('A' ≤ c && c ≤ 'F')

def hexValue (c : Char) : ℕ :=
  if c.isDigit then c.toNat - '0'.toNat else c.toLower.toNat - 'a'.toNat + 10

/-- `URI.decode` -/
def uriDecode : Text → Text
  | '%' :: a :: b :: rest =>
    if isHexDigit a && isHexDigit b then
      Char.ofNat (16 * hexValue a + hexValue b) :: uriDecode rest
    else
      '%' :: uriDecode (a :: b :: rest)
  | c :: rest => c :: uriDecode rest
  | [] => []

/-- `split(': ')`, which leaves out empty parts at the end. -/
def splitColon (line : Text) : List Text :=
  (splitPair ':' ' ' line).rdropWhile (·.isEmpty)

def addLine (headers : Headers) (line : Text) : Headers :=
  match splitColon line with
  | k :: v :: _ => Function.update headers (symbol k) (some (uriDecode v))
  | _ => headers

/-- The event split at its content length: what is before it, and the content up to another one.
Without anything behind it there is no content. -/
def splitContent (eventData : Text) : Text × Option Text :=
  match search contentHere eventData with
  | none => (eventData, none)
  | some (i, _, rest) =>
    match search contentHere rest with
    | some (j, _) => (eventData.take i, some (rest.take j))
    | none => (eventData.take i, if rest = [] then none else some rest)

/-- `gsub('::', '_')` -/
def replaceColons : Text → Text
  | ':' :: ':' :: rest => '_' :: replaceColons rest
  | c :: rest => c :: replaceColons rest
  | [] => []

/-- The name under which an event is dispatched; there is none without an event name, nor for a
custom event without a subclass. -/
def eventName (headers : Headers) : Option Text :=
  match headers "event_name".toList with
  | none => none
  | some name =>
    if name = "CUSTOM".toList then
      (headers "event_subclass".toList).map fun subclass => "custom_".toList ++ replaceColons subclass
    else
      some (name.map Char.toLower)

def headersOf (eventData : Text) : Headers :=
  let data := splitContent eventData
  let headers := (data.1.splitOn '\n').foldl addLine fun _ => none
  match data.2 with
  | some content => Function.update headers "content".toList (some content)
  | none => headers

/-- What is passed to the router.  Without event data there is nothing to be split. -/
def readEvent (eventData : Text) : Option (Text × Headers) :=
  if eventData = [] then none
  else (eventName (headersOf eventData)).map (·, headersOf eventData)

/-! ## The server -/

/-- The connection, with what was sent and the events that were passed to the router. -/
structure VoiceEventsServer where
  receivedBuffer : Text
  nextEventSize : Option ℕ
  sent : List Text
  passed : List (Text × Headers)

namespace VoiceEventsServer

def new : VoiceEventsServer :=
  ⟨[], none, [], []⟩

def sendCommand (s : VoiceEventsServer) (str : Text) : VoiceEventsServer :=
  { s with sent := s.sent ++ [str ++ "\n\n".toList] }

/-- An event of size zero would be the whole buffer.  An exception carries the state. -/
def processEvent (s : VoiceEventsServer) : Except VoiceEventsServer VoiceEventsServer :=
  match s.nextEventSize with
  | none => .ok s
  | some size =>
    if size ≤ s.receivedBuffer.length then
      let eventData := if size = 0 then s.receivedBuffer else s.receivedBuffer.take size
      let s := { s with nextEventSize := none }
      match readEvent eventData with
      | some event => .ok { s with passed := s.passed ++ [event] }
      | none => .error s
    else
      .ok s

/-- The inner loop; each round makes the buffer shorter. -/
def eventLoop : ℕ → VoiceEventsServer → Option (Except VoiceEventsServer VoiceEventsServer)
  | 0, _ => none
  | fuel + 1, s =>
    match search announcementHere s.receivedBuffer with
    | none => some (.ok s)
    | some (_, digits, _, rest) =>
      let s := { s with
        nextEventSize := some ((Numeral.decimal digits).getD 0)
        receivedBuffer := rest.dropWhile space }
      match s.processEvent with
      | .ok s => eventLoop fuel s
      | .error s => some (.error s)

variable (subscribedEvents : Text)

/-- The outer loop; a round that takes nothing off the buffer is repeated for ever. -/
def bufferLoop : ℕ → VoiceEventsServer → Option (Except VoiceEventsServer VoiceEventsServer)
  | 0, _ => none
  | fuel + 1, s =>
    match search contentTypeHere s.receivedBuffer with
    | none => some (.ok s)
    | some (_, contentType, afterBuffer) =>
      if contentType = "auth/request".toList then
        bufferLoop fuel ({ s with receivedBuffer := afterBuffer }.sendCommand "auth ClueCon".toList)
      else if contentType = "command/reply".toList then
        let s := { s with receivedBuffer := [] }
        if (indexOf "Reply-Text: +OK accepted".toList afterBuffer).isSome then
          bufferLoop fuel (s.sendCommand ("event plain ".toList ++ subscribedEvents))
        else
          bufferLoop fuel s
      else
        match eventLoop (s.receivedBuffer.length + 1) s with
        | some (.ok s) => bufferLoop fuel s
        | result => result

def receiveData (s : VoiceEventsServer) (data : Text) :
    Option (Except VoiceEventsServer VoiceEventsServer) :=
  match { s with receivedBuffer := s.receivedBuffer ++ data }.processEvent with
  | .ok s => bufferLoop subscribedEvents (s.receivedBuffer.length + 1) s
  | .error s => some (.error s)

/-- Data that come in several calls, as long as each call returns. -/
def receiveAll (s : VoiceEventsServer) : List Text → Option VoiceEventsServer
  | [] => some s
  | data :: chunks =>
    match s.receiveData subscribedEvents data with
    | some (.ok s) => receiveAll s chunks
    | _ => none

end VoiceEventsServer

end FreeswitchContrib.Telegraph
