import Mathlib.Tactic.SplitIfs
import FreeswitchContrib.Esl.EslFrameDecoder
import FreeswitchContrib.Library.Interleaving

/-!
# Synchronous commands

Threads that send commands over one connection and wait for the replies, as in
`AbstractEslClientHandler`.  A command is written behind its callback under `syncLock`; the thread
that handles a reply takes the first callback without the lock.  Callbacks have numbers in the order
of their creation, which stand for the calls as well.

The connection keeps the order of the commands, and the server answers them in this order.  What the
server sends waits in `tasks` until an executor thread has handled it; that these are handled in the
order of receipt, one after the other, is what the class asks of its executor: `InOrder`.
-/

namespace FreeswitchContrib.Esl

namespace EslMessage

def getContentType (m : EslMessage) : Option (List Char) := m.headers (some .contentType)

/-- The two content types of replies. -/
def IsReply (m : EslMessage) : Prop :=
  m.getContentType = some "api/response".toList ∨ m.getContentType = some "command/reply".toList

instance (m : EslMessage) : Decidable m.IsReply := inferInstanceAs (Decidable (_ ∨ _))

end EslMessage

namespace SyncCommands

open Interleaving

/-! ## The client -/

/-- What `messageReceived` and `handleEslMessage` do with a message. -/
inductive Handling where
  | eslEvent
  /-- `syncCallbacks.poll().handle( message )` -/
  | poll
  | authRequest
  | disconnectionNotice
  | unexpected
  | nullPointer
  deriving DecidableEq

def messageReceived (m : EslMessage) : Handling :=
  match m.getContentType with
  | none => .nullPointer
  | some contentType =>
    if contentType = "text/event-plain".toList ∨ contentType = "text/event-xml".toList then .eslEvent
    else if contentType = "api/response".toList then .poll
    else if contentType = "command/reply".toList then .poll
    else if contentType = "auth/request".toList then .authRequest
    else if contentType = "text/disconnect-notice".toList then .disconnectionNotice
    else .unexpected

inductive Command where
  | singleLine (command : String)
  | multiLine (commandLines : List String)

/-- What is written to the channel. -/
def Command.text : Command → String
  | singleLine command => command ++ "\n\n"
  | multiLine commandLines => commandLines.foldl (fun sb line => sb ++ line ++ "\n") "" ++ "\n"

abbrev SyncCallback := ℕ

/-- Where a thread is, before its next step. -/
inductive Phase where
  | idle
  | lock (callback : SyncCallback) (text : String)
  | add (callback : SyncCallback) (text : String)
  | write (callback : SyncCallback) (text : String)
  | unlock (callback : SyncCallback)
  | await (callback : SyncCallback)

/-- Where the handling of a message is. -/
inductive TaskPhase where
  | received
  | polled (callback : SyncCallback)
  /-- `response` is set, the latch is not released -/
  | responded (callback : SyncCallback)

/-- A message and, if it is a reply, its number and the call that it answers. -/
structure Task where
  message : EslMessage
  reply : Option (ℕ × SyncCallback)
  phase : TaskPhase

structure State (τ : Type) where
  syncLock : Option τ
  syncCallbacks : List SyncCallback
  numCallbacks : ℕ
  response : SyncCallback → Option EslMessage
  released : SyncCallback → Bool
  phase : τ → Phase
  /-- the commands that the server has not answered -/
  channel : List (SyncCallback × String)
  tasks : List Task
  /-- the calls that the server has answered, with the answers -/
  answered : List (SyncCallback × EslMessage)
  /-- which answer was handed to which call -/
  handed : List (ℕ × SyncCallback)
  returned : List (SyncCallback × Option EslMessage)
  nullPolled : Bool

inductive Action (τ : Type) where
  | call (t : τ) (command : Command)
  | step (t : τ)
  /-- a waiting thread is interrupted -/
  | interrupt (t : τ)
  /-- the server answers the first command -/
  | answer (message : EslMessage)
  /-- the server sends something else -/
  | send (message : EslMessage)
  /-- an executor thread goes on with a message -/
  | handle (i : ℕ)

def State.init (τ : Type) : State τ where
  syncLock := none
  syncCallbacks := []
  numCallbacks := 0
  response := fun _ => none
  released := fun _ => false
  phase := fun _ => .idle
  channel := []
  tasks := []
  answered := []
  handed := []
  returned := []
  nullPolled := false

section

variable {τ : Type}

/-- A step of an executor thread. -/
def handleStep (s : State τ) (i : ℕ) : Option (State τ) :=
  match s.tasks[i]? with
  | none => none
  | some task =>
    match task.phase with
    | .received =>
      if messageReceived task.message = .poll then
        match s.syncCallbacks with
        | [] => some { s with nullPolled := true, tasks := s.tasks.eraseIdx i }
        | callback :: callbacks =>
          some { s with
            syncCallbacks := callbacks
            tasks := s.tasks.set i { task with phase := .polled callback } }
      else
        some { s with tasks := s.tasks.eraseIdx i }
    | .polled callback =>
      some { s with
        response := Function.update s.response callback (some task.message)
        handed := s.handed ++ task.reply.toList.map fun reply => (reply.1, callback)
        tasks := s.tasks.set i { task with phase := .responded callback } }
    | .responded callback =>
      some { s with
        released := Function.update s.released callback true
        tasks := s.tasks.eraseIdx i }

variable [DecidableEq τ]

def State.goto (s : State τ) (t : τ) (phase : Phase) : State τ :=
  { s with phase := Function.update s.phase t phase }

/-- A step of `sendSyncSingleLineCommand` or `sendSyncMultiLineCommand`. -/
def callStep (s : State τ) (t : τ) : Option (State τ) :=
  match s.phase t with
  | .idle => none
  | .lock callback text =>
    if s.syncLock = none then some ({ s with syncLock := some t }.goto t (.add callback text))
    else none
  | .add callback text =>
    some ({ s with syncCallbacks := s.syncCallbacks ++ [callback] }.goto t (.write callback text))
  | .write callback text =>
    some ({ s with channel := s.channel ++ [(callback, text)] }.goto t (.unlock callback))
  | .unlock callback => some ({ s with syncLock := none }.goto t (.await callback))
  | .await callback =>
    if s.released callback then
      some ({ s with returned := s.returned ++ [(callback, s.response callback)] }.goto t .idle)
    else
      none

def next (s : State τ) : Action τ → Option (State τ)
  | .call t command =>
    match s.phase t with
    | .idle =>
      some ({ s with numCallbacks := s.numCallbacks + 1 }.goto t (.lock s.numCallbacks command.text))
    | _ => none
  | .step t => callStep s t
  | .interrupt t =>
    match s.phase t with
    | .await _ => some (s.goto t .idle)
    | _ => none
  | .answer message =>
    match s.channel with
    | [] => none
    | (callback, _) :: channel =>
      if message.IsReply then
        some { s with
          channel := channel
          answered := s.answered ++ [(callback, message)]
          tasks := s.tasks ++ [⟨message, some (s.answered.length, callback), .received⟩] }
      else
        none
  | .send message =>
    if message.IsReply then none
    else some { s with tasks := s.tasks ++ [⟨message, none, .received⟩] }
  | .handle i => handleStep s i

end

end SyncCommands

end FreeswitchContrib.Esl
