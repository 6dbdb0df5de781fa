import Mathlib.Data.Option.Basic
import FreeswitchContrib.Amqp.Threads
import FreeswitchContrib.Library.Ownership

/-!
# No dead connection is used

A connection is in one place: one of the two pointers, or a local of a thread that opens or closes
it.  `Tracked` is this invariant, on top of `Ownership`; what `closeAmqpConnection` and
`openAmqpConnection` need to keep it is that a pointer is not given another connection between their
read and their write.

`Undisturbed` is what a step must find for the threads to rely on their pointers: a reload must not
take a pointer away between a thread's test and its last use, the listener must not go on after a
connection attempt that failed, and must not go on with the connection it has destroyed.
-/

namespace FreeswitchContrib.Amqp

open Interleaving Ownership

/-! ## Where connections are -/

def Closing.connection : Closing → Option Connection
  | .channelClose c | .connectionClose c | .destroy c => some c
  | _ => none

def Opening.connection : Opening → Option Connection
  | .read c | .write c _ | .destroy c => some c
  | .connect => none

def Sender.connection : Sender → Option Connection
  | .bounceClose closing | .sendClose closing | .exitClose closing => closing.connection
  | .bounceOpen opening => opening.connection
  | _ => none

def Listener.connection : Listener → Option Connection
  | .opening o => o.connection
  | _ => none

def Reload.connection : Reload → Option Connection
  | .close _ closing => closing.connection
  | _ => none

inductive Thread (τ : Type) where
  | sender
  | listener
  | reload (t : τ)

variable {τ μ π : Type}

/-- The connections in the locals of the threads. -/
def State.locals (s : State τ μ) : Thread τ → Option Connection
  | .sender => s.sender.connection
  | .listener => s.listener.connection
  | .reload t => (s.reload t).connection

/-- A pointer holds its connection as long as that was not destroyed. -/
def places (k : Connections) (locals : π → Option Connection) : Slot ⊕ π → Option Connection :=
  Sum.elim (fun slot => (k.conn slot).filter fun c => k.destroyed c = 0) locals

structure Tracked (k : Connections) (locals : π → Option Connection) : Prop where
  owned : Owned (places k locals) k.destroyed k.numCreated
  misused : k.misused = false

/-- What the thread has read is still in the pointer; the event pointer is NULL from its reset
on. -/
def ClosingOk (k : Connections) (slot : Slot) : Closing → Prop
  | .read => True
  | .write amqpConn => amqpConn = none ∨ amqpConn = k.conn slot
  | .channelClose _ | .connectionClose _ | .destroy _ => slot = .event → k.conn slot = none

/-- The pointer is NULL from before the connection attempt until it is set. -/
def OpeningOk (k : Connections) (slot : Slot) : Opening → Prop
  | .connect | .read _ => k.conn slot = none
  | .write _ oldConnection => k.conn slot = none ∧ oldConnection = none
  | .destroy _ => False

variable {k : Connections} {locals locals' : π → Option Connection} {slot : Slot} {p : π}
  {c : Connection} {closing : Closing} {opening : Opening} {success : Bool}

lemma places_slot :
    places k locals (.inl slot) = some c ↔ k.conn slot = some c ∧ k.destroyed c = 0 := by
  simp [places, Option.filter_eq_some_iff]

namespace Tracked

lemma call_local (h : Tracked k locals) (hp : locals p = some c) : k.call (some c) = k := by
  rw [Connections.call, if_pos (h.owned.alive (.inr p) c hp).1]

/-- The locals may be renamed and forgotten. -/
lemma congr (h : Tracked k locals) (hlocals : ∀ q c, locals' q = some c → locals q = some c) :
    Tracked k locals' where
  owned := h.owned.mono fun x c hx => by
    cases x with
    | inl slot => exact hx
    | inr q => exact hlocals q c hx
  misused := h.misused

lemma destroy_local (h : Tracked k locals) (hp : locals p = some c)
    (hlocals : ∀ q c, locals' q = some c → q ≠ p ∧ locals q = some c) :
    Tracked (k.destroy (some c)) locals' where
  owned := by
    rw [Connections.destroy, h.call_local hp]
    refine h.owned.destroy (show places k locals (.inr p) = some c from hp) fun x c' hx => ?_
    cases x with
    | inl slot =>
      obtain ⟨hconn, hdestroyed⟩ := places_slot.mp hx
      have hne : c' ≠ c := by
        rintro rfl
        simp at hdestroyed
      simp only [Function.update_of_ne hne] at hdestroyed
      exact ⟨nofun, places_slot.mpr ⟨hconn, hdestroyed⟩⟩
    | inr q =>
      obtain ⟨hne, hq⟩ := hlocals q c' hx
      exact ⟨fun heq => hne (Sum.inr.inj heq), hq⟩
  misused := by
    rw [Connections.destroy, h.call_local hp]
    exact h.misused

/-- **`closeAmqpConnection`** takes the connection from the pointer and destroys it. -/
lemma closeStep (h : Tracked k locals) (hp : locals p = closing.connection)
    (hok : ClosingOk k slot closing) (halive : ∀ c, closing = .write (some c) → k.destroyed c = 0)
    (hlocals : ∀ q c, locals' q = some c → (q ≠ p ∧ locals q = some c) ∨
      (q = p ∧ (k.closeStep slot closing).2.bind Closing.connection = some c)) :
    Tracked (k.closeStep slot closing).1 locals' := by
  cases closing with
  | read =>
    exact h.congr fun q c hq => (hlocals q c hq).elim And.right fun hp => by cases hp.2
  | write amqpConn =>
    refine ⟨h.owned.move (p := .inl slot) (q := .inr p) fun x c hx => ?_, h.misused⟩
    cases x with
    | inl slot' =>
      obtain ⟨hconn, hdestroyed⟩ := places_slot.mp hx
      by_cases heq : slot' = slot
      · subst heq
        simp [Connections.closeStep, Connections.setConn] at hconn
      · refine Or.inr ⟨fun hinl => heq (Sum.inl.inj hinl), places_slot.mpr ⟨?_, hdestroyed⟩⟩
        simpa [Connections.closeStep, Connections.setConn, Function.update_of_ne heq] using hconn
    | inr q =>
      rcases hlocals q c hx with ⟨-, hq⟩ | ⟨rfl, hq⟩
      · exact Or.inr ⟨nofun, hq⟩
      · obtain rfl : amqpConn = some c := by
          cases amqpConn with
          | none => cases hq
          | some c' => exact hq
        have hconn : k.conn slot = some c := (hok.resolve_left nofun).symm
        exact Or.inl ⟨rfl, places_slot.mpr ⟨hconn, halive c rfl⟩⟩
  | channelClose amqpConn | connectionClose amqpConn =>
    simp only [Connections.closeStep, h.call_local hp] at hlocals ⊢
    refine h.congr fun q c hq => (hlocals q c hq).elim And.right ?_
    rintro ⟨rfl, heq⟩
    exact hp.trans heq
  | destroy amqpConn =>
    refine h.destroy_local hp fun q c hq => (hlocals q c hq).elim id ?_
    rintro ⟨-, heq⟩
    cases heq

/-- **`openAmqpConnection`** puts a new connection into the pointer. -/
lemma openStep (h : Tracked k locals) (hp : locals p = opening.connection)
    (hok : OpeningOk k slot opening)
    (hlocals : ∀ q c, locals' q = some c → (q ≠ p ∧ locals q = some c) ∨
      (q = p ∧ (k.openStep slot success opening).2.bind Opening.connection = some c)) :
    Tracked (k.openStep slot success opening).1 locals' := by
  cases opening with
  | connect =>
    refine ⟨h.owned.create (p := .inr p) fun x c hx => ?_, h.misused⟩
    cases x with
    | inl slot' => exact Or.inr hx
    | inr q =>
      rcases hlocals q c hx with ⟨-, hq⟩ | ⟨rfl, hq⟩
      · exact Or.inr hq
      · cases success with
        | false => cases hq
        | true => exact Or.inl ⟨rfl, (Option.some.inj hq).symm⟩
  | read newConnection =>
    refine h.congr fun q c hq => (hlocals q c hq).elim And.right ?_
    rintro ⟨rfl, heq⟩
    exact hp.trans heq
  | write newConnection oldConnection =>
    obtain ⟨hnone, rfl⟩ := hok
    refine ⟨h.owned.move (p := .inr p) (q := .inl slot) fun x c hx => ?_, h.misused⟩
    cases x with
    | inl slot' =>
      obtain ⟨hconn, hdestroyed⟩ := places_slot.mp hx
      by_cases heq : slot' = slot
      · subst heq
        simp only [Connections.openStep, Connections.setConn, Function.update_self] at hconn
        exact Or.inl ⟨rfl, hp.trans hconn⟩
      · refine Or.inr ⟨nofun, places_slot.mpr ⟨?_, hdestroyed⟩⟩
        simpa [Connections.openStep, Connections.setConn, Function.update_of_ne heq] using hconn
    | inr q =>
      rcases hlocals q c hx with ⟨hne, hq⟩ | ⟨-, hq⟩
      · exact Or.inr ⟨fun hinr => hne (Sum.inr.inj hinr), hq⟩
      · cases hq
  | destroy oldConnection => exact hok.elim

/-- The connection of a pointer can be destroyed, and the pointer left. -/
lemma destroy_slot (h : Tracked k locals) (hconn : k.conn slot = some c)
    (halive : k.destroyed c = 0) : Tracked (k.destroy (k.conn slot)) locals := by
  have hcall : k.call (some c) = k := by rw [Connections.call, if_pos halive]
  rw [hconn, Connections.destroy, hcall]
  refine ⟨h.owned.destroy (show places k locals (.inl slot) = some c from
    places_slot.mpr ⟨hconn, halive⟩) fun x c' hx => ?_, h.misused⟩
  have hheld : places k locals x = some c' := by
    cases x with
    | inl slot' =>
      obtain ⟨hconn', hdestroyed⟩ := places_slot.mp hx
      have hne : c' ≠ c := by
        rintro rfl
        simp at hdestroyed
      simp only [Function.update_of_ne hne] at hdestroyed
      exact places_slot.mpr ⟨hconn', hdestroyed⟩
    | inr q => exact hx
  refine ⟨?_, hheld⟩
  rintro rfl
  obtain ⟨hconn', hdestroyed⟩ := places_slot.mp hx
  obtain rfl : c = c' := Option.some.inj (hconn.symm.trans hconn')
  simp at hdestroyed

end Tracked

lemma conn_of_openingOk (hok : OpeningOk k slot opening) : k.conn slot = none := by
  cases opening with
  | connect | read newConnection => exact hok
  | write newConnection oldConnection => exact hok.1
  | destroy oldConnection => exact hok.elim

lemma ClosingOk.congr {k' : Connections} (hok : ClosingOk k slot closing)
    (hconn : k'.conn slot = k.conn slot) : ClosingOk k' slot closing := by
  cases closing with
  | read => trivial
  | write amqpConn => exact hok.imp_right fun heq => heq.trans hconn.symm
  | channelClose | connectionClose | destroy => exact fun heq => hconn.trans (hok heq)

lemma OpeningOk.congr {k' : Connections} (hok : OpeningOk k slot opening)
    (hconn : k'.conn slot = k.conn slot) : OpeningOk k' slot opening := by
  cases opening with
  | connect | read newConnection => exact hconn.trans hok
  | write newConnection oldConnection => exact ⟨hconn.trans hok.1, hok.2⟩
  | destroy oldConnection => exact hok.elim

lemma closingOk_closeStep {closing' : Closing} (hok : ClosingOk k slot closing)
    (hnext : (k.closeStep slot closing).2 = some closing') :
    ClosingOk (k.closeStep slot closing).1 slot closing' := by
  cases closing with
  | read =>
    obtain rfl := Option.some.inj hnext
    exact Or.inr rfl
  | write amqpConn =>
    obtain ⟨c, -, rfl⟩ := Option.map_eq_some_iff.mp hnext
    exact fun _ => by simp [Connections.closeStep, Connections.setConn]
  | channelClose amqpConn | connectionClose amqpConn =>
    obtain rfl := Option.some.inj hnext
    intro heq
    rw [← hok heq]
    simp only [Connections.closeStep, Connections.call]
    split_ifs <;> rfl
  | destroy amqpConn => cases hnext

/-- When the event connection is closed, its pointer is NULL. -/
lemma conn_closeStep (hok : ClosingOk k .event closing)
    (hnext : (k.closeStep .event closing).2 = none) :
    (k.closeStep .event closing).1.conn .event = none := by
  cases closing with
  | read | channelClose amqpConn | connectionClose amqpConn => cases hnext
  | write amqpConn => simp [Connections.closeStep, Connections.setConn]
  | destroy amqpConn =>
    rw [← hok rfl]
    simp only [Connections.closeStep, Connections.destroy, Connections.call]
    split_ifs <;> rfl

lemma openingOk_openStep {opening' : Opening} (hok : OpeningOk k slot opening)
    (hnext : (k.openStep slot success opening).2 = some opening') :
    OpeningOk (k.openStep slot success opening).1 slot opening' := by
  cases opening with
  | connect =>
    cases success with
    | false => cases hnext
    | true =>
      obtain rfl := Option.some.inj hnext
      exact hok
  | read newConnection =>
    obtain rfl := Option.some.inj hnext
    exact ⟨hok, hok⟩
  | write newConnection oldConnection =>
    obtain ⟨-, rfl⟩ := hok
    cases hnext
  | destroy oldConnection => exact hok.elim

/-- When a connection was opened, the pointer is set. -/
lemma conn_openStep (hok : OpeningOk k slot opening)
    (hsuccess : opening = .connect → success = true)
    (hnext : (k.openStep slot success opening).2 = none) :
    (k.openStep slot success opening).1.conn slot ≠ none := by
  cases opening with
  | connect =>
    rw [hsuccess rfl] at hnext
    cases hnext
  | read newConnection => cases hnext
  | write newConnection oldConnection => simp [Connections.openStep, Connections.setConn]
  | destroy oldConnection => exact hok.elim

lemma closeStep_conn_of_ne {slot' : Slot} (hne : slot' ≠ slot) :
    (k.closeStep slot closing).1.conn slot' = k.conn slot' := by
  cases closing with
  | read => rfl
  | write amqpConn => exact Function.update_of_ne hne _ _
  | channelClose amqpConn | connectionClose amqpConn | destroy amqpConn =>
    simp only [Connections.closeStep, Connections.destroy, Connections.call]
    split_ifs <;> rfl

lemma openStep_conn_of_ne {slot' : Slot} (hne : slot' ≠ slot) :
    (k.openStep slot success opening).1.conn slot' = k.conn slot' := by
  cases opening with
  | connect | read newConnection => rfl
  | write newConnection oldConnection => exact Function.update_of_ne hne _ _
  | destroy oldConnection =>
    simp only [Connections.openStep, Connections.destroy, Connections.call]
    split_ifs <;> rfl

/-! ## Pointers to destroyed connections -/

/-- No pointer to a destroyed connection was added. -/
def NoNewDangling (k k' : Connections) : Prop :=
  ∀ slot c, k'.conn slot = some c → k'.destroyed c ≠ 0 → k.conn slot = some c ∧ k.destroyed c ≠ 0

lemma noNewDangling_closeStep (h : Tracked k locals) (hp : locals p = closing.connection) :
    NoNewDangling k (k.closeStep slot closing).1 := by
  intro slot' c hconn hdead
  cases closing with
  | read => exact ⟨hconn, hdead⟩
  | write amqpConn =>
    simp only [Connections.closeStep, Connections.setConn, Function.update_apply] at hconn hdead
    split_ifs at hconn
    exact ⟨hconn, hdead⟩
  | channelClose amqpConn | connectionClose amqpConn =>
    simp only [Connections.closeStep, h.call_local hp] at hconn hdead
    exact ⟨hconn, hdead⟩
  | destroy amqpConn =>
    simp only [Connections.closeStep, Connections.destroy, h.call_local hp] at hconn hdead
    refine ⟨hconn, fun halive => ?_⟩
    have hheld := h.owned.not_held (q := .inl slot')
      (show places k locals (.inr p) = some amqpConn from hp) nofun
    by_cases heq : c = amqpConn
    · subst heq
      exact hheld (places_slot.mpr ⟨hconn, halive⟩)
    · rw [Function.update_of_ne heq] at hdead
      exact hdead halive

lemma noNewDangling_openStep (h : Tracked k locals) (hp : locals p = opening.connection)
    (hok : OpeningOk k slot opening) : NoNewDangling k (k.openStep slot success opening).1 := by
  intro slot' c hconn hdead
  cases opening with
  | connect | read newConnection => exact ⟨hconn, hdead⟩
  | write newConnection oldConnection =>
    simp only [Connections.openStep, Connections.setConn, Function.update_apply] at hconn hdead
    split_ifs at hconn
    · obtain rfl := Option.some.inj hconn
      exact absurd (h.owned.alive (.inr p) _ hp).1 hdead
    · exact ⟨hconn, hdead⟩
  | destroy oldConnection => exact hok.elim

/-! ## What the threads rely on -/

/-- The listener is past its test of the pointer, and has set it if it was NULL. -/
def Listener.Uses : Listener → Prop
  | .top | .check | .opening _ | .ended => False
  | _ => True

/-- What a step must find.  After any other step the thread that goes on with its pointer uses NULL
or a destroyed connection. -/
def Undisturbed (s : State τ μ) : Action τ μ → Prop
  | .listener reply =>
    (s.listener = .opening .connect → reply = .normal) ∧
      (s.listener = .check → ∀ c, s.connections.conn .command = some c →
        s.connections.destroyed c = 0)
  | .reload t =>
    (∀ amqpConn, s.reload t = .close .event (.write amqpConn) → s.sender ≠ .sendLock) ∧
      ∀ amqpConn, s.reload t = .close .command (.write amqpConn) → ¬ s.listener.Uses ∧
        ∀ c, amqpConn = some c → s.connections.destroyed c = 0
  | .push _ | .sender _ | .shutdown => True

def SenderOk (s : State τ μ) : Sender → Prop
  | .top | .check | .bounceLock | .pop | .sendCheck | .exitLock | .ended => True
  | .bounceCheck | .unlock | .exitUnlock => s.amqpConnectionMutex = some .sender
  | .bounceClose closing | .sendClose closing | .exitClose closing =>
    s.amqpConnectionMutex = some .sender ∧ ClosingOk s.connections .event closing
  | .bounceOpen opening =>
    s.amqpConnectionMutex = some .sender ∧ OpeningOk s.connections .event opening
  | .sendLock => s.connections.conn .event ≠ none
  | .publish => s.amqpConnectionMutex = some .sender ∧ s.connections.conn .event ≠ none

def ListenerOk (k : Connections) : Listener → Prop
  | .top | .check | .ended => True
  | .opening o => OpeningOk k .command o
  | _ => k.conn .command ≠ none

def ReloadOk (s : State τ μ) (t : τ) : Reload → Prop
  | .idle | .lock => True
  | .close slot closing =>
    s.amqpConnectionMutex = some (.reload t) ∧ ClosingOk s.connections slot closing
  | .unlock => s.amqpConnectionMutex = some (.reload t)

/-- **The invariant.**  The command pointer dangles only before the listener's test. -/
structure Inv (s : State τ μ) : Prop where
  tracked : Tracked s.connections s.locals
  event : ∀ c, s.connections.conn .event = some c → s.connections.destroyed c = 0
  command : ∀ c, s.connections.conn .command = some c → s.connections.destroyed c ≠ 0 →
    ¬ s.listener.Uses
  sender : SenderOk s s.sender
  listener : ListenerOk s.connections s.listener
  reload : ∀ t, ReloadOk s t (s.reload t)

/-- **No dead connection was used**, and none was destroyed twice. -/
structure NoDeadUse (s : State τ μ) : Prop where
  misused : s.connections.misused = false
  once : ∀ c, s.connections.destroyed c ≤ 1

variable {s s' : State τ μ} {reply : Reply} {t : τ}

lemma Inv.noDeadUse (h : Inv s) : NoDeadUse s := ⟨h.tracked.misused, h.tracked.owned.once⟩

lemma Inv.init : Inv (State.init τ μ) where
  tracked := by
    refine ⟨⟨?_, ?_, by simp [State.init], by simp [State.init]⟩, rfl⟩
    · rintro (_ | _ | _ | _) q r hp <;> cases hp
    · rintro (_ | _ | _ | _) r hp <;> cases hp
  event c hc := by cases hc
  command c hc := by cases hc
  sender := trivial
  listener := trivial
  reload _ := trivial

/-- A thread's step leaves what another one relies on. -/
lemma SenderOk.frame {q : Sender} (h : SenderOk s q)
    (hmutex : s.amqpConnectionMutex = some .sender → s'.amqpConnectionMutex = some .sender ∧
      s'.connections.conn .event = s.connections.conn .event)
    (hlock : q = .sendLock → s'.connections.conn .event = s.connections.conn .event) :
    SenderOk s' q := by
  cases q with
  | top | check | bounceLock | pop | sendCheck | exitLock | ended => trivial
  | bounceCheck | unlock | exitUnlock => exact (hmutex h).1
  | bounceClose closing | sendClose closing | exitClose closing =>
    obtain ⟨hm, hc⟩ := hmutex h.1
    exact ⟨hm, h.2.congr hc⟩
  | bounceOpen opening =>
    obtain ⟨hm, hc⟩ := hmutex h.1
    exact ⟨hm, h.2.congr hc⟩
  | sendLock => exact (hlock rfl).trans_ne h
  | publish =>
    obtain ⟨hm, hc⟩ := hmutex h.1
    exact ⟨hm, hc.trans_ne h.2⟩

lemma ListenerOk.frame {k' : Connections} {q : Listener} (h : ListenerOk k q)
    (hconn : k.conn .command = none ∨ q.Uses → k'.conn .command = k.conn .command) :
    ListenerOk k' q := by
  cases q with
  | top | check | ended => trivial
  | opening o => exact h.congr (hconn (Or.inl (conn_of_openingOk h)))
  | _ => exact (hconn (Or.inr trivial)).trans_ne h

lemma ReloadOk.frame {q : Reload} (h : ReloadOk s t q)
    (hmutex : s.amqpConnectionMutex = some (.reload t) →
      s'.amqpConnectionMutex = some (.reload t) ∧
      s'.connections.conn .event = s.connections.conn .event ∧
      (s'.connections.conn .command = s.connections.conn .command ∨
        s.connections.conn .command = none)) :
    ReloadOk s' t q := by
  cases q with
  | idle | lock => trivial
  | close slot closing =>
    obtain ⟨hm, hevent, hcommand⟩ := hmutex h.1
    refine ⟨hm, ?_⟩
    cases slot with
    | event => exact h.2.congr hevent
    | command =>
      rcases hcommand with heq | hnone
      · exact h.2.congr heq
      · cases closing with
        | read => trivial
        | write amqpConn => exact Or.inl (h.2.elim id fun heq => heq.trans hnone)
        | channelClose | connectionClose | destroy => exact nofun
  | unlock => exact (hmutex h).1

/-! ## The event sender -/

/-- What is left to show for a step of the sender. -/
lemma Inv.sender_step (h : Inv s)
    (hlistener : s'.listener = s.listener) (hreload : s'.reload = s.reload)
    (htracked : Tracked s'.connections s'.locals)
    (hdangling : NoNewDangling s.connections s'.connections)
    (hcommand : s'.connections.conn .command = s.connections.conn .command)
    (hsender : SenderOk s' s'.sender)
    (hmutex : s.amqpConnectionMutex ≠ some .sender →
      s'.connections = s.connections ∧ ∀ t, s.amqpConnectionMutex = some (.reload t) →
        s'.amqpConnectionMutex = some (.reload t)) : Inv s' where
  tracked := htracked
  event c hc := by
    by_contra hdead
    obtain ⟨hconn, hdead⟩ := hdangling .event c hc hdead
    exact hdead (h.event c hconn)
  command c hc hdead := by
    obtain ⟨hconn, hdead⟩ := hdangling .command c hc hdead
    rw [hlistener]
    exact h.command c hconn hdead
  sender := hsender
  listener := by
    rw [hlistener]
    exact h.listener.frame fun _ => hcommand
  reload t := by
    rw [hreload]
    refine (h.reload t).frame fun hm => ?_
    obtain ⟨hsame, hkeep⟩ := hmutex (by rw [hm]; simp)
    exact ⟨hkeep t hm, by rw [hsame], Or.inl (by rw [hsame])⟩

lemma connection_getD {inside : Closing → Sender} {done : Sender} {phase : Option Closing}
    (hinside : ∀ x, (inside x).connection = x.connection) (hdone : done.connection = none) :
    ((phase.map inside).getD done).connection = phase.bind Closing.connection := by
  cases phase with
  | none => exact hdone
  | some x => exact hinside x

/-- A step of the sender inside `closeAmqpConnection`. -/
lemma Inv.sender_close (h : Inv s) {closing : Closing} {inside : Closing → Sender} {done : Sender}
    (hsender : s.sender = inside closing)
    (hmutex : s.amqpConnectionMutex = some .sender)
    (hok : ClosingOk s.connections .event closing)
    (hinside : ∀ x, (inside x).connection = x.connection) (hdone : done.connection = none)
    (hnext : ∀ s'' : State τ μ, s''.amqpConnectionMutex = some .sender →
      (∀ x, ClosingOk s''.connections .event x → SenderOk s'' (inside x)) ∧
      (s''.connections.conn .event = none → SenderOk s'' done)) :
    Inv { s with
      connections := (s.connections.closeStep .event closing).1
      sender := ((s.connections.closeStep .event closing).2.map inside).getD done } := by
  have hlocal : s.locals .sender = closing.connection := by
    rw [State.locals, hsender, hinside]
  refine h.sender_step rfl rfl ?_ (noNewDangling_closeStep h.tracked hlocal)
    (closeStep_conn_of_ne nofun) ?_ fun hm => absurd hmutex hm
  · refine h.tracked.closeStep hlocal hok (fun c heq => ?_) fun q c hq => ?_
    · rw [heq] at hok
      exact h.event c (hok.resolve_left nofun).symm
    cases q with
    | sender => exact Or.inr ⟨rfl, (connection_getD hinside hdone).symm.trans hq⟩
    | listener | reload t => exact Or.inl ⟨nofun, hq⟩
  · obtain ⟨hin, hout⟩ := hnext { s with
      connections := (s.connections.closeStep .event closing).1
      sender := ((s.connections.closeStep .event closing).2.map inside).getD done } hmutex
    cases hphase : (s.connections.closeStep .event closing).2 with
    | none =>
      rw [hphase] at hin hout
      exact hout (conn_closeStep hok hphase)
    | some x =>
      rw [hphase] at hin hout
      exact hin x (closingOk_closeStep hok hphase)

/-- A step of the sender inside `openAmqpConnection`. -/
lemma Inv.sender_open (h : Inv s) {opening : Opening} (hsender : s.sender = .bounceOpen opening)
    (hmutex : s.amqpConnectionMutex = some .sender)
    (hok : OpeningOk s.connections .event opening) :
    Inv { s with
      connections := (s.connections.openStep .event success opening).1
      sender := ((s.connections.openStep .event success opening).2.map Sender.bounceOpen).getD
        .unlock } := by
  have hlocal : s.locals .sender = opening.connection := by
    rw [State.locals, hsender]
    rfl
  refine h.sender_step rfl rfl ?_ (noNewDangling_openStep h.tracked hlocal hok)
    (openStep_conn_of_ne nofun) ?_ fun hm => absurd hmutex hm
  · refine h.tracked.openStep hlocal hok fun q c hq => ?_
    cases q with
    | sender =>
      refine Or.inr ⟨rfl, ?_⟩
      rw [State.locals] at hq
      simp only at hq
      cases hphase : (s.connections.openStep .event success opening).2 with
      | none =>
        rw [hphase] at hq
        cases hq
      | some x =>
        rw [hphase] at hq
        exact hq
    | listener | reload t => exact Or.inl ⟨nofun, hq⟩
  · simp only
    cases hphase : (s.connections.openStep .event success opening).2 with
    | none => exact hmutex
    | some x => exact ⟨hmutex, openingOk_openStep hok hphase⟩

/-- A step of the sender that leaves the connections. -/
lemma Inv.sender_quiet (h : Inv s) {mutex : Option (Party τ)} {queue published : List μ}
    {msg : Option μ} {q : Sender} (hafter : q.connection = none)
    (hmutex : s.amqpConnectionMutex ≠ some .sender → ∀ t, s.amqpConnectionMutex = some (.reload t) →
      mutex = some (.reload t))
    (hok : ∀ s'' : State τ μ, s''.connections = s.connections →
      s''.amqpConnectionMutex = mutex → SenderOk s'' q) :
    Inv { s with
      amqpConnectionMutex := mutex, amqpSendQueue := queue, published := published, msg := msg
      sender := q } := by
  refine h.sender_step rfl rfl (h.tracked.congr fun p c hp => ?_) (fun _ _ hc hd => ⟨hc, hd⟩) rfl
    (hok _ rfl rfl) fun hm => ⟨rfl, hmutex hm⟩
  cases p with
  | sender =>
    rw [State.locals, hafter] at hp
    cases hp
  | listener | reload t => exact hp

lemma Inv.senderStep (h : Inv s) (hnext : senderStep s reply = some s') : Inv s' := by
  have hok := h.sender
  rw [Amqp.senderStep] at hnext
  cases hsender : s.sender with
  | top =>
    simp only [hsender] at hnext
    split_ifs at hnext <;> obtain rfl := Option.some.inj hnext <;>
      exact h.sender_quiet rfl (fun _ _ => id) fun _ _ _ => trivial
  | check =>
    simp only [hsender] at hnext
    split_ifs at hnext <;> obtain rfl := Option.some.inj hnext <;>
      exact h.sender_quiet rfl (fun _ _ => id) fun _ _ _ => trivial
  | bounceLock =>
    simp only [hsender, Option.ite_none_right_eq_some, Option.some.injEq] at hnext
    obtain ⟨hfree, rfl⟩ := hnext
    exact h.sender_quiet rfl (fun _ t ht => by simp [hfree] at ht) fun _ _ hm => hm
  | bounceCheck =>
    rw [hsender] at hok
    simp only [hsender] at hnext
    split_ifs at hnext with hconn <;> obtain rfl := Option.some.inj hnext
    · exact h.sender_quiet rfl (fun _ _ => id) fun _ hc hm => ⟨hm.trans hok, hc ▸ hconn⟩
    · exact h.sender_quiet rfl (fun _ _ => id) fun _ _ hm => ⟨hm.trans hok, trivial⟩
  | bounceClose closing =>
    rw [hsender] at hok
    simp only [hsender] at hnext
    obtain rfl := Option.some.inj hnext
    exact h.sender_close hsender hok.1 hok.2 (fun _ => rfl) rfl fun _ hm =>
      ⟨fun _ hx => ⟨hm, hx⟩, fun hconn => ⟨hm, hconn⟩⟩
  | bounceOpen opening =>
    rw [hsender] at hok
    simp only [hsender] at hnext
    obtain rfl := Option.some.inj hnext
    exact h.sender_open hsender hok.1 hok.2
  | pop =>
    simp only [hsender] at hnext
    split_ifs at hnext
    · split at hnext
      · cases hnext
      · obtain rfl := Option.some.inj hnext
        exact h.sender_quiet rfl (fun _ _ => id) fun _ _ _ => trivial
    · obtain rfl := Option.some.inj hnext
      exact h.sender_quiet rfl (fun _ _ => id) fun _ _ _ => trivial
  | sendCheck =>
    simp only [hsender] at hnext
    split_ifs at hnext with hconn <;> obtain rfl := Option.some.inj hnext
    · exact h.sender_quiet rfl (fun _ _ => id) fun _ _ _ => trivial
    · exact h.sender_quiet rfl (fun _ _ => id) fun _ hc _ => by rwa [SenderOk, hc]
  | sendLock =>
    rw [hsender] at hok
    simp only [hsender, Option.ite_none_right_eq_some, Option.some.injEq] at hnext
    obtain ⟨hfree, rfl⟩ := hnext
    exact h.sender_quiet rfl (fun _ t ht => by simp [hfree] at ht) fun _ hc hm => ⟨hm, hc ▸ hok⟩
  | publish =>
    rw [hsender] at hok
    simp only [hsender] at hnext
    have hcall : s.connections.call (s.connections.conn .event) = s.connections := by
      obtain ⟨c, hc⟩ := Option.ne_none_iff_exists'.mp hok.2
      rw [hc, Connections.call, if_pos (h.event c hc)]
    rw [hcall] at hnext
    split_ifs at hnext <;> obtain rfl := Option.some.inj hnext
    · exact h.sender_quiet rfl (fun _ _ => id) fun _ _ hm => hm.trans hok.1
    · exact h.sender_quiet rfl (fun _ _ => id) fun _ _ hm => ⟨hm.trans hok.1, trivial⟩
  | sendClose closing =>
    rw [hsender] at hok
    simp only [hsender] at hnext
    obtain rfl := Option.some.inj hnext
    exact h.sender_close hsender hok.1 hok.2 (fun _ => rfl) rfl fun _ hm =>
      ⟨fun _ hx => ⟨hm, hx⟩, fun _ => hm⟩
  | unlock =>
    rw [hsender] at hok
    simp only [hsender] at hnext
    obtain rfl := Option.some.inj hnext
    exact h.sender_quiet rfl (fun hm => absurd hok hm) fun _ _ _ => trivial
  | exitLock =>
    simp only [hsender, Option.ite_none_right_eq_some, Option.some.injEq] at hnext
    obtain ⟨hfree, rfl⟩ := hnext
    exact h.sender_quiet rfl (fun _ t ht => by simp [hfree] at ht) fun _ _ hm => ⟨hm, trivial⟩
  | exitClose closing =>
    rw [hsender] at hok
    simp only [hsender] at hnext
    obtain rfl := Option.some.inj hnext
    exact h.sender_close hsender hok.1 hok.2 (fun _ => rfl) rfl fun _ hm =>
      ⟨fun _ hx => ⟨hm, hx⟩, fun _ => hm⟩
  | exitUnlock =>
    rw [hsender] at hok
    simp only [hsender] at hnext
    obtain rfl := Option.some.inj hnext
    exact h.sender_quiet rfl (fun hm => absurd hok hm) fun _ _ _ => trivial
  | ended => simp [hsender] at hnext

/-! ## The command listener -/

/-- What is left to show for a step of the listener. -/
lemma Inv.listener_step (h : Inv s) {k : Connections} {q : Listener}
    (htracked : Tracked k { s with connections := k, listener := q }.locals)
    (hevent : k.conn .event = s.connections.conn .event ∧
      ∀ c, k.conn .event = some c → k.destroyed c = 0)
    (hcommand : ∀ c, k.conn .command = some c → k.destroyed c ≠ 0 → ¬ q.Uses)
    (hconn : k.conn .command = s.connections.conn .command ∨ s.connections.conn .command = none)
    (hlistener : ListenerOk k q) : Inv { s with connections := k, listener := q } where
  tracked := htracked
  event := hevent.2
  command := hcommand
  sender := h.sender.frame (fun hm => ⟨hm, hevent.1⟩) fun _ => hevent.1
  listener := hlistener
  reload t := (h.reload t).frame fun hm => ⟨hm, hevent.1, hconn⟩

lemma listenerOk_of_connected {q : Listener} (hq : ∀ o, q ≠ .opening o)
    (hok : k.conn .command ≠ none) : ListenerOk k q := by
  cases q with
  | top | check | ended => trivial
  | opening o => exact absurd rfl (hq o)
  | _ => exact hok

/-- While the listener uses it, the command connection is alive. -/
lemma Inv.alive_command (h : Inv s) (huses : s.listener.Uses) {c : Connection}
    (hc : s.connections.conn .command = some c) : s.connections.destroyed c = 0 := by
  by_contra hdead
  exact h.command c hc hdead huses

/-- A step of the listener that leaves the connections. -/
lemma Inv.listener_quiet (h : Inv s) {q : Listener} (hafter : q.connection = none)
    (hdead : ∀ c, s.connections.conn .command = some c → s.connections.destroyed c ≠ 0 → ¬ q.Uses)
    (hok : ListenerOk s.connections q) : Inv { s with listener := q } := by
  refine h.listener_step (h.tracked.congr fun p c hp => ?_) ⟨rfl, h.event⟩ hdead (Or.inl rfl) hok
  cases p with
  | listener =>
    rw [State.locals, hafter] at hp
    cases hp
  | sender | reload t => exact hp

/-- A call on the command connection. -/
lemma Inv.listener_call (h : Inv s) {q : Listener} (huses : s.listener.Uses)
    (hok : s.connections.conn .command ≠ none) (hq : ∀ o, q ≠ .opening o) :
    Inv { s with
      connections := s.connections.call (s.connections.conn .command), listener := q } := by
  obtain ⟨c, hc⟩ := Option.ne_none_iff_exists'.mp hok
  have hcall : s.connections.call (s.connections.conn .command) = s.connections := by
    rw [hc, Connections.call, if_pos (h.alive_command huses hc)]
  rw [hcall]
  refine h.listener_quiet ?_ (fun c' hc' hd => ?_) (listenerOk_of_connected hq hok)
  · cases q with
    | opening o => exact absurd rfl (hq o)
    | _ => rfl
  · exact absurd (h.alive_command huses hc') hd

/-- A step of the listener inside `openAmqpConnection`, whose attempt succeeds. -/
lemma Inv.listener_open (h : Inv s) {opening : Opening} (hlistener : s.listener = .opening opening)
    (hok : OpeningOk s.connections .command opening)
    (hsuccess : opening = .connect → success = true) :
    Inv { s with
      connections := (s.connections.openStep .command success opening).1
      listener := ((s.connections.openStep .command success opening).2.map Listener.opening).getD
        .queueDeclare } := by
  have hlocal : s.locals .listener = opening.connection := by
    rw [State.locals, hlistener]
    rfl
  have hnone := conn_of_openingOk hok
  have hdangling : NoNewDangling s.connections
      (s.connections.openStep .command success opening).1 :=
    noNewDangling_openStep h.tracked hlocal hok
  refine h.listener_step ?_ ⟨openStep_conn_of_ne nofun, fun c hc => ?_⟩ (fun c hc hd => ?_)
    (Or.inr hnone) ?_
  · refine h.tracked.openStep hlocal hok fun q c hq => ?_
    cases q with
    | listener =>
      refine Or.inr ⟨rfl, ?_⟩
      rw [State.locals] at hq
      cases hphase : (s.connections.openStep .command success opening).2 with
      | none =>
        rw [hphase] at hq
        cases hq
      | some x =>
        rw [hphase] at hq
        exact hq
    | sender | reload t => exact Or.inl ⟨nofun, hq⟩
  · by_contra hdead
    obtain ⟨hconn, hdead⟩ := hdangling .event c hc hdead
    exact hdead (h.event c hconn)
  · have hconn := (hdangling .command c hc hd).1
    rw [hnone] at hconn
    cases hconn
  · cases hphase : (s.connections.openStep .command success opening).2 with
    | none => exact conn_openStep hok hsuccess hphase
    | some x => exact openingOk_openStep hok hphase

/-- The listener destroys its connection and leaves the pointer. -/
lemma Inv.listener_destroy (h : Inv s) (hlistener : s.listener = .destroyConnection)
    (hok : s.connections.conn .command ≠ none) :
    Inv { s with
      connections := s.connections.destroy (s.connections.conn .command), listener := .top } := by
  obtain ⟨c, hc⟩ := Option.ne_none_iff_exists'.mp hok
  have halive : s.connections.destroyed c = 0 := h.alive_command (by rw [hlistener]; trivial) hc
  have hconn : (s.connections.destroy (s.connections.conn .command)).conn = s.connections.conn := by
    rw [hc, Connections.destroy, Connections.call, if_pos halive]
  refine h.listener_step ((h.tracked.destroy_slot hc halive).congr fun p c hp => ?_)
    ⟨congrFun hconn _, fun c' hc' => ?_⟩ (fun _ _ _ => id) (Or.inl (congrFun hconn _)) trivial
  · cases p with
    | listener => cases hp
    | sender | reload t => exact hp
  · -- the two pointers hold different connections
    rw [hconn] at hc'
    have hne : c' ≠ c := by
      rintro rfl
      exact absurd (h.tracked.owned.unique (.inl .event) (.inl .command) c'
        (places_slot.mpr ⟨hc', halive⟩) (places_slot.mpr ⟨hc, halive⟩)) nofun
    rw [hc, Connections.destroy, Connections.call, if_pos halive]
    exact (Function.update_of_ne hne _ _).trans (h.event c' hc')

lemma Inv.listenerStep (h : Inv s) (hu : Undisturbed s (.listener reply))
    (hnext : listenerStep s reply = some s') : Inv s' := by
  obtain ⟨hconnect, hcheck⟩ := hu
  have hok := h.listener
  unfold Amqp.listenerStep at hnext
  cases hlistener : s.listener with
  | top =>
    simp only [hlistener] at hnext
    obtain rfl := Option.some.inj hnext
    refine h.listener_quiet ?_ (fun _ _ _ => ?_) ?_
    · split_ifs <;> rfl
    · split_ifs <;> exact id
    · split_ifs <;> trivial
  | check =>
    simp only [hlistener] at hnext
    obtain rfl := Option.some.inj hnext
    split_ifs with hconn
    · exact h.listener_quiet rfl (fun _ _ _ => id) hconn
    · exact h.listener_quiet rfl (fun c hc hd => absurd (hcheck hlistener c hc) hd) hconn
  | opening o =>
    rw [hlistener] at hok
    simp only [hlistener] at hnext
    obtain rfl := Option.some.inj hnext
    refine h.listener_open hlistener hok fun heq => ?_
    rw [heq] at hlistener
    exact decide_eq_true (hconnect hlistener)
  | loop =>
    have huses : s.listener.Uses := by
      rw [hlistener]
      trivial
    rw [hlistener] at hok
    simp only [hlistener] at hnext
    obtain rfl := Option.some.inj hnext
    refine h.listener_quiet ?_ (fun c hc hd => absurd (h.alive_command huses hc) hd) ?_
    · split_ifs <;> rfl
    · exact listenerOk_of_connected (by split_ifs <;> exact nofun) hok
  | destroyConnection =>
    rw [hlistener] at hok
    simp only [hlistener] at hnext
    obtain rfl := Option.some.inj hnext
    exact h.listener_destroy hlistener hok
  | ended => simp [hlistener] at hnext
  | consumeMessage =>
    rw [hlistener] at hok
    simp only [hlistener] at hnext
    obtain rfl := Option.some.inj hnext
    exact h.listener_call (by rw [hlistener]; trivial) hok (by cases reply <;> exact nofun)
  | queueDeclare | queueDeclareReply | queueBind | queueBindReply | basicConsume
  | basicConsumeReply | releaseBuffers | waitFrame | channelClose | connectionClose =>
    rw [hlistener] at hok
    simp only [hlistener] at hnext
    obtain rfl := Option.some.inj hnext
    exact h.listener_call (by rw [hlistener]; trivial) hok
      (by first | (split_ifs <;> exact nofun) | exact nofun)

/-! ## A reload -/

section

variable [DecidableEq τ]

/-- What is left to show for a step of a reload. -/
lemma Inv.reload_step (h : Inv s) {k : Connections} {mutex : Option (Party τ)} {q : Reload}
    (htracked : Tracked k
      ({ s with connections := k, amqpConnectionMutex := mutex }.reloadTo t q).locals)
    (hdangling : NoNewDangling s.connections k)
    (hmutex : ∀ p, s.amqpConnectionMutex = some p → p ≠ .reload t →
      mutex = some p ∧ k = s.connections)
    (hsender : s.sender = .sendLock → k.conn .event = s.connections.conn .event)
    (hlistener : s.connections.conn .command = none ∨ s.listener.Uses →
      k.conn .command = s.connections.conn .command)
    (hreload : ReloadOk ({ s with connections := k, amqpConnectionMutex := mutex }.reloadTo t q)
      t q) :
    Inv ({ s with connections := k, amqpConnectionMutex := mutex }.reloadTo t q) where
  tracked := htracked
  event c hc := by
    by_contra hdead
    obtain ⟨hconn, hdead⟩ := hdangling .event c hc hdead
    exact hdead (h.event c hconn)
  command c hc hdead := by
    obtain ⟨hconn, hdead⟩ := hdangling .command c hc hdead
    exact h.command c hconn hdead
  sender := by
    refine h.sender.frame (fun hm => ?_) hsender
    obtain ⟨hm', rfl⟩ := hmutex _ hm nofun
    exact ⟨hm', rfl⟩
  listener := h.listener.frame hlistener
  reload t' := by
    by_cases heq : t' = t
    · subst heq
      simpa only [State.reloadTo, Function.update_self] using hreload
    · have hsame : ({ s with connections := k, amqpConnectionMutex := mutex }.reloadTo t q).reload t'
          = s.reload t' := Function.update_of_ne heq _ _
      rw [hsame]
      refine (h.reload t').frame fun hm => ?_
      obtain ⟨hm', rfl⟩ := hmutex _ hm (by simpa using heq)
      exact ⟨hm', rfl, Or.inl rfl⟩

lemma locals_reloadTo {q : Reload} {p : Thread τ} {c : Connection}
    (hp : (s.reloadTo t q).locals p = some c) :
    (p ≠ .reload t ∧ s.locals p = some c) ∨ (p = .reload t ∧ q.connection = some c) := by
  cases p with
  | sender | listener => exact Or.inl ⟨nofun, hp⟩
  | reload t' =>
    simp only [State.locals, State.reloadTo] at hp
    by_cases heq : t' = t
    · subst heq
      rw [Function.update_self] at hp
      exact Or.inr ⟨rfl, hp⟩
    · rw [Function.update_of_ne heq] at hp
      exact Or.inl ⟨by simpa using heq, hp⟩

/-- A step of a reload that leaves the connections. -/
lemma Inv.reload_quiet (h : Inv s) {mutex : Option (Party τ)} {q : Reload}
    (hafter : q.connection = none)
    (hmutex : ∀ p, s.amqpConnectionMutex = some p → p ≠ .reload t → mutex = some p)
    (hok : ∀ s'' : State τ μ, s''.amqpConnectionMutex = mutex → ReloadOk s'' t q) :
    Inv ({ s with amqpConnectionMutex := mutex }.reloadTo t q) := by
  refine h.reload_step (h.tracked.congr fun p c hp => ?_) (fun _ _ hc hd => ⟨hc, hd⟩)
    (fun p hp hne => ⟨hmutex p hp hne, rfl⟩) (fun _ => rfl) (fun _ => rfl) (hok _ rfl)
  rcases locals_reloadTo hp with ⟨-, hp⟩ | ⟨-, hq⟩
  · exact hp
  · rw [hafter] at hq
    cases hq

/-- A step of a reload inside `closeAmqpConnection`. -/
lemma Inv.reload_close (h : Inv s) {done : Reload} (hreload : s.reload t = .close slot closing)
    (hok : s.amqpConnectionMutex = some (.reload t) ∧ ClosingOk s.connections slot closing)
    (hu : Undisturbed s (.reload t)) (hdone : done = .unlock ∨ done = .close .command .read) :
    Inv ({ s with connections := (s.connections.closeStep slot closing).1 }.reloadTo t
      (((s.connections.closeStep slot closing).2.map (Reload.close slot)).getD done)) := by
  have hlocal : s.locals (.reload t) = closing.connection := by
    rw [State.locals, hreload]
    rfl
  have hkeep : ∀ slot', ((∃ amqpConn, closing = .write amqpConn) → slot' = slot →
      s.connections.conn slot' = none) →
      (s.connections.closeStep slot closing).1.conn slot' = s.connections.conn slot' := by
    intro slot' hnone
    by_cases heq : slot' = slot
    · subst heq
      cases closing with
      | write amqpConn =>
        rw [hnone ⟨amqpConn, rfl⟩ rfl]
        simp [Connections.closeStep, Connections.setConn]
      | read => rfl
      | channelClose | connectionClose | destroy =>
        simp only [Connections.closeStep, Connections.destroy, h.tracked.call_local hlocal]
    · exact closeStep_conn_of_ne heq
  refine h.reload_step ?_ (noNewDangling_closeStep h.tracked hlocal)
    (fun p hp hne => absurd (Option.some.inj (hp.symm.trans hok.1)) hne) (fun hlock => ?_)
    (fun hlistener => ?_) ?_
  · refine h.tracked.closeStep hlocal hok.2 (fun c heq => ?_) fun p c hp => ?_
    · rw [heq] at hreload hok
      have hconn : s.connections.conn slot = some c := (hok.2.resolve_left nofun).symm
      cases slot with
      | event => exact h.event c hconn
      | command => exact (hu.2 _ hreload).2 c rfl
    · refine (locals_reloadTo hp).imp_right fun ⟨heq, hq⟩ => ⟨heq, ?_⟩
      cases hphase : (s.connections.closeStep slot closing).2 with
      | none =>
        rw [hphase] at hq
        rcases hdone with rfl | rfl <;> cases hq
      | some x =>
        rw [hphase] at hq
        exact hq
  · refine hkeep .event fun ⟨amqpConn, hwrite⟩ heq => ?_
    subst hwrite heq
    exact absurd hlock (hu.1 _ hreload)
  · refine hkeep .command fun ⟨amqpConn, hwrite⟩ heq => ?_
    subst hwrite heq
    exact hlistener.resolve_right (hu.2 _ hreload).1
  · cases hphase : (s.connections.closeStep slot closing).2 with
    | none =>
      rcases hdone with rfl | rfl
      · exact hok.1
      · exact ⟨hok.1, trivial⟩
    | some x => exact ⟨hok.1, closingOk_closeStep hok.2 hphase⟩

lemma Inv.reloadStep (h : Inv s) (hu : Undisturbed s (.reload t))
    (hnext : reloadStep s t = some s') : Inv s' := by
  have hok := h.reload t
  rw [Amqp.reloadStep] at hnext
  cases hreload : s.reload t with
  | idle =>
    simp only [hreload] at hnext
    obtain rfl := Option.some.inj hnext
    exact h.reload_quiet rfl (fun _ hp _ => hp) fun _ _ => trivial
  | lock =>
    simp only [hreload, Option.ite_none_right_eq_some, Option.some.injEq] at hnext
    obtain ⟨hfree, rfl⟩ := hnext
    exact h.reload_quiet rfl (fun p hp _ => by simp [hfree] at hp) fun _ hm => ⟨hm, trivial⟩
  | close slot closing =>
    rw [hreload] at hok
    simp only [hreload] at hnext
    obtain rfl := Option.some.inj hnext
    refine h.reload_close hreload hok hu ?_
    cases slot with
    | event => exact Or.inr rfl
    | command => exact Or.inl rfl
  | unlock =>
    rw [hreload] at hok
    simp only [hreload] at hnext
    obtain rfl := Option.some.inj hnext
    exact h.reload_quiet rfl (fun p hp hne => absurd (Option.some.inj (hp.symm.trans hok)) hne)
      fun _ _ => trivial

/-! ## The system -/

lemma Inv.next {size : ℕ} {a : Action τ μ} (h : Inv s) (hu : Undisturbed s a)
    (hnext : next size s a = some s') : Inv s' := by
  cases a with
  | push msg =>
    rw [Amqp.next] at hnext
    split_ifs at hnext
    · obtain rfl := Option.some.inj hnext
      exact ⟨h.tracked, h.event, h.command, h.sender.frame (fun hm => ⟨hm, rfl⟩) fun _ => rfl,
        h.listener, fun t => (h.reload t).frame fun hm => ⟨hm, rfl, Or.inl rfl⟩⟩
    · obtain rfl := Option.some.inj hnext
      exact h
  | sender reply => exact h.senderStep hnext
  | listener reply => exact h.listenerStep hu hnext
  | reload t => exact h.reloadStep hu hnext
  | shutdown =>
    obtain rfl := Option.some.inj hnext
    exact ⟨h.tracked, h.event, h.command, h.sender.frame (fun hm => ⟨hm, rfl⟩) fun _ => rfl,
      h.listener, fun t => (h.reload t).frame fun hm => ⟨hm, rfl, Or.inl rfl⟩⟩

/-- **In every run whose steps are undisturbed**, no call is made on NULL or on a destroyed
connection, and no connection is destroyed twice. -/
theorem noDeadUse_of_always {size : ℕ} {as : List (Action τ μ)}
    (hu : Always (next size) Undisturbed (State.init τ μ) as)
    (hrun : run (next size) (State.init τ μ) as = some s) : NoDeadUse s :=
  Inv.noDeadUse (run_invariant_of_always (fun _ _ _ h hu hnext => h.next hu hnext) Inv.init hu hrun)

/-- The listener connects while a reload bounces the connections. -/
theorem noDeadUse_of_always_reloadThenConnect :
    ∃ s : State Unit Unit, run (next 1) (State.init Unit Unit)
      [.reload (), .listener .normal, .reload (), .listener .normal, .reload (), .reload (),
        .reload (), .listener .normal, .reload (), .listener .normal, .listener .normal,
        .listener .normal] = some s ∧
      s.listener = .queueDeclareReply ∧ s.connections.conn .command = some 0 ∧ NoDeadUse s := by
  have hu : Always (next 1) Undisturbed (State.init Unit Unit)
      [.reload (), .listener .normal, .reload (), .listener .normal, .reload (), .reload (),
        .reload (), .listener .normal, .reload (), .listener .normal, .listener .normal,
        .listener .normal] := by
    refine always_cons ⟨nofun, nofun⟩ rfl <| always_cons ⟨nofun, nofun⟩ rfl <|
      always_cons ⟨nofun, nofun⟩ rfl <| always_cons ⟨nofun, fun _ => nofun⟩ rfl <|
      always_cons ⟨nofun, nofun⟩ rfl <| always_cons ⟨fun _ _ => nofun, nofun⟩ rfl <|
      always_cons ⟨nofun, nofun⟩ rfl <| always_cons ⟨fun _ => rfl, nofun⟩ rfl <|
      always_cons ⟨nofun, fun amqpConn h => ⟨id, ?_⟩⟩ rfl <| always_cons ⟨nofun, nofun⟩ rfl <|
      always_cons ⟨nofun, nofun⟩ rfl <| always_cons ⟨nofun, nofun⟩ rfl trivial
    cases h
    exact nofun
  exact ⟨_, rfl, rfl, rfl, noDeadUse_of_always hu rfl⟩

/-- The listener goes on although no broker answered, and declares its queue on NULL. -/
theorem not_noDeadUse : ¬ ∀ (size : ℕ) (as : List (Action Unit Unit)) (s : State Unit Unit),
    run (next size) (State.init Unit Unit) as = some s → NoDeadUse s := by
  intro h
  have hdead :=
    h 1 [.listener .normal, .listener .normal, .listener .other, .listener .normal] _ rfl
  exact absurd hdead.misused nofun

end

end FreeswitchContrib.Amqp
