import Mathlib.Data.Nat.Notation
import Mathlib.Logic.Function.Basic
import Mathlib.Tactic.SplitIfs
import FreeswitchContrib.Library.Interleaving

/-!
# The threads of `mod_amqp`

The event sender, the command listener, the threads that deliver events and those that reload the
configuration.  A step is one access to a global, one call of the broker library, or one operation
of the mutex or the queue; `closeAmqpConnection` and `openAmqpConnection` are the steps they consist
of.  The connections have numbers in the order of their creation.

What the broker library answers, and whether a blocking pop is interrupted, comes with the action.
-/

namespace FreeswitchContrib.Amqp

/-- `amqp_connection_state_t` -/
abbrev Connection := ℕ

/-- The two connection pointers of `globals`. -/
inductive Slot where
  | event
  | command
  deriving DecidableEq

/-- What a call of the broker library reports. -/
inductive Reply where
  | normal
  /-- a library exception, for a frame that was not expected -/
  | unexpectedState
  /-- another library exception -/
  | exception
  | other
  deriving DecidableEq

/-- Inside `closeAmqpConnection`, with its `amqpConn`. -/
inductive Closing where
  | read
  | write (amqpConn : Option Connection)
  | channelClose (amqpConn : Connection)
  | connectionClose (amqpConn : Connection)
  | destroy (amqpConn : Connection)

/-- Inside `openAmqpConnection`, with its `newConnection` and `oldConnection`. -/
inductive Opening where
  | connect
  | read (newConnection : Connection)
  | write (newConnection : Connection) (oldConnection : Option Connection)
  | destroy (oldConnection : Connection)

/-- `mod_amqp_event_consumer_thread`, with `bounce_connection` and `mod_amqp_send`. -/
inductive Sender where
  | top
  | check
  | bounceLock
  | bounceCheck
  | bounceClose (closing : Closing)
  | bounceOpen (opening : Opening)
  | pop
  | sendCheck
  | sendLock
  | publish
  | sendClose (closing : Closing)
  | unlock
  | exitLock
  | exitClose (closing : Closing)
  | exitUnlock
  | ended

/-- `mod_amqp_command_listener_thread`, each call of the broker library by its name. -/
inductive Listener where
  | top
  | check
  | opening (opening : Opening)
  | queueDeclare
  | queueDeclareReply
  | queueBind
  | queueBindReply
  | basicConsume
  | basicConsumeReply
  | loop
  | releaseBuffers
  | consumeMessage
  | waitFrame
  | channelClose
  | connectionClose
  | destroyConnection
  | ended

/-- The part of `do_config` that bounces the connections. -/
inductive Reload where
  | idle
  | lock
  | close (slot : Slot) (closing : Closing)
  | unlock

/-- Who can have the mutex. -/
inductive Party (τ : Type) where
  | sender
  | reload (t : τ)
  deriving DecidableEq

/-- The connections and the pointers to them. -/
structure Connections where
  conn : Slot → Option Connection
  numCreated : ℕ
  /-- how often a connection was destroyed -/
  destroyed : Connection → ℕ
  /-- a call was made on NULL or on a destroyed connection -/
  misused : Bool

structure State (τ μ : Type) where
  running : Bool
  connections : Connections
  amqpConnectionMutex : Option (Party τ)
  amqpSendQueue : List μ
  /-- the messages that `trypush` took, and those that were published -/
  accepted : List μ
  published : List μ
  /-- the local of the sender -/
  msg : Option μ
  sender : Sender
  listener : Listener
  reload : τ → Reload

inductive Action (τ μ : Type) where
  | push (msg : μ)
  | sender (reply : Reply)
  | listener (reply : Reply)
  | reload (t : τ)
  | shutdown

def State.init (τ μ : Type) : State τ μ where
  running := true
  connections := ⟨fun _ => none, 0, fun _ => 0, false⟩
  amqpConnectionMutex := none
  amqpSendQueue := []
  accepted := []
  published := []
  msg := none
  sender := .top
  listener := .top
  reload := fun _ => .idle

namespace Connections

/-- A call of the broker library on this pointer. -/
def call (k : Connections) (c : Option Connection) : Connections :=
  match c with
  | some c => if k.destroyed c = 0 then k else { k with misused := true }
  | none => { k with misused := true }

def destroy (k : Connections) (c : Option Connection) : Connections :=
  match c with
  | some c => { k.call (some c) with
      destroyed := Function.update k.destroyed c (k.destroyed c + 1) }
  | none => k.call none

def setConn (k : Connections) (slot : Slot) (c : Option Connection) : Connections :=
  { k with conn := Function.update k.conn slot c }

/-- One step of `closeAmqpConnection`, and where it is then; `none` when it returns. -/
def closeStep (k : Connections) (slot : Slot) : Closing → Connections × Option Closing
  | .read => (k, some (.write (k.conn slot)))
  | .write amqpConn => (k.setConn slot none, amqpConn.map .channelClose)
  | .channelClose amqpConn => (k.call (some amqpConn), some (.connectionClose amqpConn))
  | .connectionClose amqpConn => (k.call (some amqpConn), some (.destroy amqpConn))
  | .destroy amqpConn => (k.destroy (some amqpConn), none)

/-- One step of `openAmqpConnection`.  The calls on the new connection, which no other thread knows,
are the first one; without success it is forgotten. -/
def openStep (k : Connections) (slot : Slot) (success : Bool) :
    Opening → Connections × Option Opening
  | .connect =>
    ({ k with numCreated := k.numCreated + 1 }, if success then some (.read k.numCreated) else none)
  | .read newConnection => (k, some (.write newConnection (k.conn slot)))
  | .write newConnection oldConnection =>
    (k.setConn slot (some newConnection), oldConnection.map .destroy)
  | .destroy oldConnection => (k.destroy (some oldConnection), none)

end Connections

variable {τ μ : Type}

/-- A step of the event sender. -/
def senderStep (s : State τ μ) (reply : Reply) : Option (State τ μ) :=
  match s.sender with
  | .top =>
    if s.running then some { s with sender := .check }
    else some { s with msg := none, sender := .exitLock }
  | .check =>
    if s.connections.conn .event = none then some { s with sender := .bounceLock }
    else if s.msg.isNone then some { s with sender := .pop }
    else some { s with sender := .sendCheck }
  | .bounceLock =>
    if s.amqpConnectionMutex = none then
      some { s with amqpConnectionMutex := some .sender, sender := .bounceCheck }
    else
      none
  | .bounceCheck =>
    if s.connections.conn .event = none then some { s with sender := .bounceOpen .connect }
    else some { s with sender := .bounceClose .read }
  | .bounceClose closing =>
    let result := s.connections.closeStep .event closing
    some { s with
      connections := result.1
      sender := (result.2.map Sender.bounceClose).getD (.bounceOpen .connect) }
  | .bounceOpen opening =>
    let result := s.connections.openStep .event (reply = .normal) opening
    some { s with
      connections := result.1, sender := (result.2.map Sender.bounceOpen).getD .unlock }
  | .pop =>
    if reply = .normal then
      match s.amqpSendQueue with
      | [] => none
      | msg :: queue => some { s with msg := some msg, amqpSendQueue := queue, sender := .sendCheck }
    else
      some { s with sender := .top }
  | .sendCheck =>
    if s.connections.conn .event = none then some { s with sender := .top }
    else some { s with sender := .sendLock }
  | .sendLock =>
    if s.amqpConnectionMutex = none then
      some { s with amqpConnectionMutex := some .sender, sender := .publish }
    else
      none
  | .publish =>
    if reply = .normal then
      some { s with
        connections := s.connections.call (s.connections.conn .event)
        published := s.published ++ s.msg.toList, msg := none, sender := .unlock }
    else
      some { s with
        connections := s.connections.call (s.connections.conn .event)
        sender := .sendClose .read }
  | .sendClose closing =>
    let result := s.connections.closeStep .event closing
    some { s with
      connections := result.1, sender := (result.2.map Sender.sendClose).getD .unlock }
  | .unlock => some { s with amqpConnectionMutex := none, sender := .top }
  | .exitLock =>
    if s.amqpConnectionMutex = none then
      some { s with amqpConnectionMutex := some .sender, sender := .exitClose .read }
    else
      none
  | .exitClose closing =>
    let result := s.connections.closeStep .event closing
    some { s with
      connections := result.1, sender := (result.2.map Sender.exitClose).getD .exitUnlock }
  | .exitUnlock =>
    some { s with amqpConnectionMutex := none, amqpSendQueue := [], sender := .ended }
  | .ended => none

/-- A step of the command listener.  An error before the inner loop ends the thread; behind the
inner loop it goes back to the top with the connection as it is. -/
def listenerStep (s : State τ μ) (reply : Reply) : Option (State τ μ) :=
  let conn := s.connections.conn .command
  let called (listener : Listener) : Option (State τ μ) :=
    some { s with connections := s.connections.call conn, listener := listener }
  match s.listener with
  | .top => some { s with listener := if s.running then .check else .ended }
  | .check =>
    some { s with listener := if conn = none then .opening .connect else .queueDeclare }
  | .opening opening =>
    let result := s.connections.openStep .command (reply = .normal) opening
    some { s with
      connections := result.1, listener := (result.2.map Listener.opening).getD .queueDeclare }
  | .queueDeclare => called .queueDeclareReply
  | .queueDeclareReply => called (if reply = .normal then .queueBind else .ended)
  | .queueBind => called .queueBindReply
  | .queueBindReply => called (if reply = .normal then .basicConsume else .ended)
  | .basicConsume => called .basicConsumeReply
  | .basicConsumeReply => called (if reply = .normal then .loop else .ended)
  | .loop => some { s with listener := if s.running then .releaseBuffers else .channelClose }
  | .releaseBuffers => called .consumeMessage
  | .consumeMessage =>
    called (match reply with
      | .normal => .loop
      | .unexpectedState => .waitFrame
      | .exception => .loop
      | .other => .channelClose)
  | .waitFrame => called .loop
  | .channelClose => called (if reply = .normal then .connectionClose else .top)
  | .connectionClose => called (if reply = .normal then .destroyConnection else .top)
  | .destroyConnection =>
    some { s with connections := s.connections.destroy conn, listener := .top }
  | .ended => none

variable {s s' : State τ μ} {reply : Reply}

/-- The sender leaves the other threads alone. -/
lemma senderStep_frame (h : senderStep s reply = some s') : s'.running = s.running ∧
    s'.accepted = s.accepted ∧ s'.listener = s.listener ∧ s'.reload = s.reload := by
  rw [senderStep] at h
  cases hsender : s.sender <;> simp only [hsender] at h
  case pop =>
    split_ifs at h
    · split at h
      · cases h
      · obtain rfl := Option.some.inj h
        exact ⟨rfl, rfl, rfl, rfl⟩
    · obtain rfl := Option.some.inj h
      exact ⟨rfl, rfl, rfl, rfl⟩
  all_goals
    first
      | split_ifs at h <;> obtain rfl := Option.some.inj h <;> exact ⟨rfl, rfl, rfl, rfl⟩
      | obtain rfl := Option.some.inj h
        exact ⟨rfl, rfl, rfl, rfl⟩
      | cases h

/-- The listener changes nothing but the connections. -/
lemma listenerStep_eq (h : listenerStep s reply = some s') :
    ∃ connections listener, s' = { s with connections := connections, listener := listener } := by
  unfold listenerStep at h
  cases hlistener : s.listener <;> simp only [hlistener] at h
  case ended => cases h
  all_goals exact ⟨_, _, (Option.some.inj h).symm⟩

variable [DecidableEq τ] {t : τ} {a : Action τ μ} {size : ℕ}

def State.reloadTo (s : State τ μ) (t : τ) (phase : Reload) : State τ μ :=
  { s with reload := Function.update s.reload t phase }

/-- A step of a reload. -/
def reloadStep (s : State τ μ) (t : τ) : Option (State τ μ) :=
  match s.reload t with
  | .idle => some (s.reloadTo t .lock)
  | .lock =>
    if s.amqpConnectionMutex = none then
      some ({ s with amqpConnectionMutex := some (.reload t) }.reloadTo t (.close .event .read))
    else
      none
  | .close slot closing =>
    let result := s.connections.closeStep slot closing
    let done := match slot with
      | .event => .close .command .read
      | .command => .unlock
    some ({ s with connections := result.1 }.reloadTo t
      ((result.2.map (Reload.close slot)).getD done))
  | .unlock => some ({ s with amqpConnectionMutex := none }.reloadTo t .idle)

/-- A reload changes nothing but the connections and the mutex. -/
lemma reloadStep_eq (h : reloadStep s t = some s') :
    ∃ connections mutex reload, s' = { s with
      connections := connections, amqpConnectionMutex := mutex, reload := reload } := by
  rw [reloadStep] at h
  cases hreload : s.reload t with
  | idle | unlock | close slot closing =>
    simp only [hreload] at h
    exact ⟨_, _, _, (Option.some.inj h).symm⟩
  | lock =>
    simp only [hreload, Option.ite_none_right_eq_some, Option.some.injEq] at h
    exact ⟨_, _, _, h.2.symm⟩

/-- One step, with a send queue of this capacity. -/
def next (amqpSendQueueSize : ℕ) (s : State τ μ) : Action τ μ → Option (State τ μ)
  | .push msg =>
    if s.amqpSendQueue.length < amqpSendQueueSize then
      some { s with amqpSendQueue := s.amqpSendQueue ++ [msg], accepted := s.accepted ++ [msg] }
    else
      some s
  | .sender reply => senderStep s reply
  | .listener reply => listenerStep s reply
  | .reload t => reloadStep s t
  | .shutdown => some { s with running := false }

/-- Only a shutdown stops the threads. -/
lemma next_running (h : next size s a = some s') (ha : a ≠ .shutdown) : s'.running = s.running := by
  cases a with
  | push msg =>
    rw [next] at h
    split_ifs at h <;> obtain rfl := Option.some.inj h <;> rfl
  | sender reply => exact (senderStep_frame h).1
  | listener reply =>
    obtain ⟨_, _, rfl⟩ := listenerStep_eq h
    rfl
  | reload t =>
    obtain ⟨_, _, _, rfl⟩ := reloadStep_eq h
    rfl
  | shutdown => exact absurd rfl ha

end FreeswitchContrib.Amqp
