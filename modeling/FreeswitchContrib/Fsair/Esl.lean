import FreeswitchContrib.Library.Numeral
import FreeswitchContrib.Library.Search
import Mathlib.Data.List.AList

/-!
# The event socket of the AIR client

`ESL` keeps the text that it has not processed, a table of event callbacks, and one slot each for
the callback of an api command and of any other command.  `dataHandler` cuts the messages off the
text and hands each to the branch for its content type.

What the runtime does with numbers, escapes and XML is a parameter, and so is what the callbacks
do: a callback may send commands, and it may throw.  Nothing in the class catches an exception, so
it leaves the handler at once.
-/

namespace FreeswitchContrib.Fsair

open Search

abbrev Text := List Char

/-- What the classes use of the runtime: `int`, `unescape` (which also takes undefined), and the
XML parser, which throws on malformed text, with its lookup below `headers`. -/
structure Runtime (ξ : Type) where
  int : Text → ℤ
  unescape : Option Text → Text
  xml : Text → Option ξ
  elements : ξ → Text → Text
  int_decimal : ∀ {digits n}, Numeral.decimal digits = some n → n ≤ 2147483647 → int digits = n

/-- `split(": ")` -/
def splitColon (str : Text) : List Text :=
  splitPair ':' ' ' str

/-- `substr(start)`; a negative start counts from the end. -/
def substr (str : Text) (start : ℤ) : Text :=
  if 0 ≤ start then str.drop start.toNat else str.drop (str.length - start.natAbs)

/-! ## Headers -/

/-- The dictionary of a header; a name that comes again replaces the value. -/
abbrev EslHeader := AList fun _ : Text => Text

namespace EslHeader

def addLine (header : EslHeader) (line : Text) : EslHeader :=
  match splitColon line with
  | [name, value] => header.insert name value
  | _ => header

def new (str : Text) : EslHeader :=
  (str.splitOn '\n').foldl addLine ∅

def getHeader (header : EslHeader) (key : Text) : Option Text :=
  header.lookup key

def contentType (header : EslHeader) : Option Text :=
  header.lookup "Content-Type".toList

def contentLength {ξ : Type} (R : Runtime ξ) (header : EslHeader) : ℤ :=
  ((header.lookup "Content-Length".toList).map R.int).getD 0

end EslHeader

/-! ## Events -/

inductive EslEvent (ξ : Type) where
  | xml (tree : ξ)
  | plain (values : AList fun _ : Text => Option Text)

namespace EslEvent

variable {ξ : Type} (R : Runtime ξ)

/-- The second part of a line without a colon is undefined. -/
def plainLine (values : AList fun _ : Text => Option Text) (line : Text) :
    AList fun _ : Text => Option Text :=
  values.insert ((splitColon line).headD []) (splitColon line)[1]?

/-- An event of malformed XML is not made: the constructor throws. -/
def new (isXml : Bool) (str : Text) : Option (EslEvent ξ) :=
  if isXml then
    (R.xml str).map .xml
  else
    some (.plain ((str.splitOn '\n').foldl plainLine ∅))

def getValue (element : Text) : EslEvent ξ → Text
  | .xml tree => R.unescape (some (R.elements tree element))
  | .plain values => R.unescape (values.lookup element).join

def eventName : EslEvent ξ → Text :=
  getValue R "Event-Name".toList

def eventSubclass : EslEvent ξ → Text :=
  getValue R "Event-Subclass".toList

/-- Whether the callback under the key is for the event.  Without a bar in the key there is no
subclass, which no event has. -/
def wanted (key : Text) (ev : EslEvent ξ) : Bool :=
  match key.splitOn '|' with
  | name :: subclass :: _ =>
    ev.eventName R == name && (subclass == ['-'] || ev.eventSubclass R == subclass)
  | _ => false

end EslEvent

/-! ## The socket -/

inductive Argument (ξ : Type) where
  | reply (text : Option Text)
  | event (ev : EslEvent ξ)

/-- The commands a user of the class gives, with the callback where there is one. -/
inductive Command (κ : Type) where
  | eslSend (str : Text) (callback : Option κ)
  | auth (pass : Text) (callback : Option κ)
  | eslEvent (events type : Text)
  | api (str : Text) (callback : Option κ)
  | bgapi (str : Text) (callback : Option κ)

/-- The socket, with what was written to it and a record of the commands that were given, the
messages that were cut off, and the calls of the callbacks. -/
structure Esl (ξ κ : Type) where
  lastData : Option Text
  eventCallback : AList fun _ : Text => κ
  apiCallback : Option κ
  commandCallback : Option κ
  eslPassword : Text
  written : List Text
  commands : List (Command κ)
  processed : List (EslHeader × Text)
  called : List (κ × Argument ξ)

/-- What a callback does: it sends commands, and may throw after that. -/
structure Reaction (κ : Type) where
  commands : List (Command κ)
  throws : Bool

/-- The callbacks; what one does may depend on all the calls before. -/
abbrev Callbacks (ξ κ : Type) :=
  List (κ × Argument ξ) → κ → Argument ξ → Reaction κ

namespace Esl

variable {ξ κ : Type}

def new (password : Text) : Esl ξ κ :=
  ⟨none, ∅, none, none, password, [], [], [], []⟩

def addEventCallback (esl : Esl ξ κ) (key : Text) (func : κ) : Esl ξ κ :=
  { esl with eventCallback := esl.eventCallback.insert key func }

/-! ### Commands -/

def eslSend (esl : Esl ξ κ) (str : Text) (callback : Option κ) : Esl ξ κ :=
  { esl with
    commandCallback := callback
    written := esl.written ++ [str ++ "\n\n".toList] }

def auth (esl : Esl ξ κ) (pass : Text) (callback : Option κ) : Esl ξ κ :=
  esl.eslSend ("Auth ".toList ++ pass) callback

def eslEvent (esl : Esl ξ κ) (events type : Text) : Esl ξ κ :=
  esl.eslSend ("event ".toList ++ type ++ ' ' :: events) none

def api (esl : Esl ξ κ) (str : Text) (callback : Option κ) : Esl ξ κ :=
  { esl with apiCallback := callback }.eslSend ("api ".toList ++ str) none

def bgapi (esl : Esl ξ κ) (str : Text) (callback : Option κ) : Esl ξ κ :=
  { esl with apiCallback := callback }.eslSend ("bgapi ".toList ++ str) none

def perform (esl : Esl ξ κ) (command : Command κ) : Esl ξ κ :=
  let esl := { esl with commands := esl.commands ++ [command] }
  match command with
  | .eslSend str callback => esl.eslSend str callback
  | .auth pass callback => esl.auth pass callback
  | .eslEvent events type => esl.eslEvent events type
  | .api str callback => esl.api str callback
  | .bgapi str callback => esl.bgapi str callback

/-! ### Messages -/

variable (R : Runtime ξ) (react : Callbacks ξ κ)

/-- A callback is called; an exception carries the state it left behind. -/
def call (esl : Esl ξ κ) (func : κ) (argument : Argument ξ) : Except (Esl ξ κ) (Esl ξ κ) :=
  let reaction := react esl.called func argument
  let esl := reaction.commands.foldl perform { esl with called := esl.called ++ [(func, argument)] }
  if reaction.throws then .error esl else .ok esl

/-- The callbacks that want the event are called, in the order of the table. -/
def callEvents (esl : Esl ξ κ) (ev : EslEvent ξ) : Except (Esl ξ κ) (Esl ξ κ) :=
  (esl.eventCallback.entries.filter fun entry => ev.wanted R entry.1).foldlM
    (fun esl entry => esl.call react entry.2 (.event ev)) esl

def record (esl : Esl ξ κ) (message : EslHeader × Text) : Esl ξ κ :=
  { esl with processed := esl.processed ++ [message] }

/-- What is done about a message that was cut off the text.  Without a content type there is
nothing of which `indexOf` could be called. -/
def dispatch (esl : Esl ξ κ) (message : EslHeader × Text) : Except (Esl ξ κ) (Esl ξ κ) :=
  let esl := esl.record message
  match message.1.contentType with
  | none => .error esl
  | some type =>
    if type = "auth/request".toList then
      .ok (esl.perform (.auth esl.eslPassword none))
    else if type = "api/response".toList then
      match esl.apiCallback with
      | some func =>
        (esl.call react func (.reply (some message.2))).map fun esl =>
          { esl with apiCallback := none }
      | none => .ok esl
    else if type = "command/reply".toList then
      match esl.commandCallback with
      | some func =>
        (esl.call react func (.reply (message.1.getHeader "Reply-Text".toList))).map fun esl =>
          { esl with commandCallback := none }
      | none => .ok esl
    else if (indexOf "text/event-".toList type).isSome then
      match EslEvent.new R (type == "text/event-xml".toList) message.2 with
      | some ev => esl.callEvents R react ev
      | none => .error esl
    else
      .ok esl

/-- The loop of `dataHandler`.  A negative length may leave the text as it is, for ever. -/
def dataLoop : ℕ → Text → Esl ξ κ → Option (Except (Esl ξ κ) (Esl ξ κ))
  | 0, _, _ => none
  | fuel + 1, str, esl =>
    if str = [] then
      some (.ok esl)
    else
      match indexOf "\n\n".toList str with
      | none => some (.ok { esl with lastData := some str })
      | some headEnd =>
        let header := EslHeader.new (str.take headEnd)
        let length := header.contentLength R
        let body := (str.drop (headEnd + 2)).take length.toNat
        if body.length < length then
          some (.ok { esl with lastData := some str })
        else
          match esl.dispatch R react (header, body) with
          | .ok esl => dataLoop fuel (substr str (headEnd + 2 + length)) esl
          | .error esl => some (.error esl)

/-- The text gets shorter in each round that is not repeated for ever. -/
def dataHandler (esl : Esl ξ κ) (chunk : Text) : Option (Except (Esl ξ κ) (Esl ξ κ)) :=
  let str := esl.lastData.getD [] ++ chunk
  dataLoop R react (str.length + 1) str { esl with lastData := none }

/-- The socket as it is left behind, whether the handler returned or threw. -/
def leftBy : Except (Esl ξ κ) (Esl ξ κ) → Esl ξ κ
  | .ok esl => esl
  | .error esl => esl

/-- A data event; the runtime reports an exception that leaves the handler, and goes on. -/
def socketData (esl : Esl ξ κ) (chunk : Text) : Option (Esl ξ κ) :=
  (esl.dataHandler R react chunk).map leftBy

def receiveAll (esl : Esl ξ κ) (chunks : List Text) : Option (Esl ξ κ) :=
  chunks.foldlM (fun esl chunk => esl.socketData R react chunk) esl

end Esl

end FreeswitchContrib.Fsair
