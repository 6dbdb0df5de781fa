import FreeswitchContrib.Library.Interleaving
import Mathlib.Data.Int.Basic
import Mathlib.Logic.Function.Basic

/-!
# Khomp channels and their sessions

A channel of a board has a `KhompPvt`, with a pointer to the session of its call and the two codecs
of the call.  The pointer is written by `find_channel` for an outgoing call, by `tech_init`, at the
end of `khomp_channel_from_event`, by the state handler `channel_on_hangup`, and by the board event
`EV_DISCONNECT`, which calls that handler itself.

Sessions are numbered as they are requested, and codecs as they are set up.  The parties are whoever
creates a session, the thread of the core that runs its state handlers, and the thread of each
`EV_DISCONNECT`.  A step is one access to the pointer, to a codec or to the counter, or one call of
the core or of the board, with its result.  A step that the process does not survive, as one with a
null pointer, with freed memory or with memory that was never written, has no state after it.

Of the session's data only the private pointer is kept.  Audio, flags and caller profiles are left
out, and which of the free channels `find_channel` comes to is up to the dial string and the board.
-/

namespace Khomp.Channels

/-- A board and a channel of it. -/
abbrev Chan := ℕ × ℕ

/-- `_read_codec` and `_write_codec` -/
inductive Side
  | read | write
  deriving DecidableEq

/-- The memory of a codec.  The constructor of `KhompPvt` does not write it. -/
inductive Slot
  | uninitialised | zeroed | codec (id : ℕ)
  deriving DecidableEq

def Slot.held : Slot → Option ℕ
  | .codec id => some id
  | _ => none

/-- How far `channel_on_hangup` has come. -/
inductive Phase
  | read | write | release | command | count | done
  deriving DecidableEq

/-- How far `channel_outgoing_channel` or `khomp_channel_from_event` has come with a session. -/
inductive Creator
  | finding
  | found (x : Chan)
  | techInit (x : Chan)
  | initRead (x : Chan)
  | initWrite (x : Chan)
  | makeCall (x : Chan)
  | threadLaunch (x : Chan)
  | setSession (x : Chan)
  | returned
  /-- The attempt has failed, and this was then the session of its channel. -/
  | failed (left : Option ℕ)
  deriving DecidableEq

/-- What the core's thread does with a session. -/
inductive Core
  | idle | ready | hangup (x : Chan) (phase : Phase)
  deriving DecidableEq

structure Session where
  outgoing : Bool
  creator : Creator
  tech : Option Chan := none
  core : Core := .idle
  /-- It has passed `channel_on_init`. -/
  inited : Bool := false
  /-- It has passed `channel_on_hangup`. -/
  hungUp : Bool := false
  destroyed : Bool := false
  deriving DecidableEq

/-- The thread of an `EV_DISCONNECT` on a channel: the session that it has found there and the
`KhompPvt` that the session has. -/
structure Handler where
  session : ℕ
  pvt : Chan
  channel : Chan
  phase : Phase := .read
  dropped : Bool := false

structure System where
  session : ℕ → Session
  numSessions : ℕ
  pvt : Chan → Option ℕ
  slot : Chan × Side → Slot
  handlers : List Handler
  /-- `_pvts_mutex` -/
  locked : Bool
  calls : ℤ
  numCodecs : ℕ
  owner : ℕ → ℕ
  numDestroyed : ℕ → ℕ

def System.init : System where
  session _ := { outgoing := false, creator := .returned }
  numSessions := 0
  pvt _ := none
  slot _ := .uninitialised
  handlers := []
  locked := false
  calls := 0
  numCodecs := 0
  owner _ := 0
  numDestroyed _ := 0

/-! ## The core -/

def System.set (s : System) (S : ℕ) (t : Session) : System :=
  { s with session := Function.update s.session S t }

/-- `switch_core_session_request` -/
def System.request (s : System) (t : Session) : System :=
  { s.set s.numSessions t with numSessions := s.numSessions + 1 }

/-- `switch_core_codec_init`, which begins with clearing the memory that it is given. -/
def System.initCodec (s : System) (S : ℕ) (place : Chan × Side) : Bool → System
  | true => { s with
      slot := Function.update s.slot place (.codec s.numCodecs)
      numCodecs := s.numCodecs + 1
      owner := Function.update s.owner s.numCodecs S }
  | false => { s with slot := Function.update s.slot place .zeroed }

/-- `switch_core_codec_destroy`, where the codec has an implementation. -/
def System.destroyCodec (s : System) (place : Chan × Side) : Option System :=
  match s.slot place with
  | .uninitialised => none
  | .zeroed => some s
  | .codec id => some { s with
      slot := Function.update s.slot place .zeroed
      numDestroyed := Function.update s.numDestroyed id (s.numDestroyed id + 1) }

/-! ## The module -/

/-- `KhompPvt::session` -/
def System.setSession (s : System) (x : Chan) (S : Option ℕ) : System :=
  { s with pvt := Function.update s.pvt x S }

/-- The session has passed `channel_on_hangup`. -/
def System.passHangup (s : System) (S : ℕ) : System :=
  s.set S { s.session S with hungUp := true }

/-- `channel_on_hangup`.  The command is `CM_DISCONNECT`. -/
def System.hangup (s : System) (S : ℕ) (x : Chan) (ok : Bool) :
    Phase → Option (System × Phase)
  | .read => (s.destroyCodec (x, .read)).map (·, .write)
  | .write => (s.destroyCodec (x, .write)).map (·, .release)
  | .release => some (s.setSession x none, .command)
  | .command => if ok then some (s, .count) else some (s.passHangup S, .done)
  | .count => some ({ s.passHangup S with calls := max 0 (s.calls - 1) }, .done)
  | .done => none

/-- A failure exit with `switch_core_session_destroy`. -/
def System.fail (s : System) (S : ℕ) (left : Option ℕ) : System :=
  s.set S { s.session S with creator := .failed left, destroyed := true }

/-- What comes after `tech_init`.  An outgoing call does not look at its result. -/
def System.afterTechInit (s : System) (S : ℕ) (x : Chan) (ok : Bool) : System :=
  if (s.session S).outgoing then s.set S { s.session S with creator := .makeCall x }
  else if ok then s.set S { s.session S with creator := .threadLaunch x }
  else s.fail S (s.pvt x)

/-- `find_channel`, up to a channel without a session, or without one. -/
def System.find (s : System) (S : ℕ) : Option Chan → Option System
  | none => if (s.session S).creator = .finding then some (s.fail S none) else none
  | some x =>
    if (s.session S).creator = .finding ∧ s.locked = false ∧ s.pvt x = none then
      some ({ s with locked := true }.set S { s.session S with creator := .found x })
    else
      none

/-- The next step of `channel_outgoing_channel` or `khomp_channel_from_event`. -/
def System.create (s : System) (S : ℕ) (ok : Bool) : Option System :=
  match (s.session S).creator with
  | .found x => some (({ s with locked := false }.setSession x (some S)).set S
      { s.session S with creator := .techInit x })
  | .techInit x => some ((s.setSession x (some S)).set S
      { s.session S with tech := some x, creator := .initRead x })
  | .initRead x =>
    let s' := s.initCodec S (x, .read) ok
    some (if ok then s'.set S { s.session S with creator := .initWrite x }
      else s'.afterTechInit S x false)
  | .initWrite x =>
    let s' := s.initCodec S (x, .write) ok
    if ok then some (s'.afterTechInit S x true)
    else (s'.destroyCodec (x, .read)).map fun s' => s'.afterTechInit S x false
  | .makeCall x => some (
      if ok then s.set S { s.session S with creator := .returned, core := .ready }
      else s.fail S (s.pvt x))
  | .threadLaunch x => some (
      if ok then s.set S { s.session S with creator := .setSession x, core := .ready }
      else s.fail S (s.pvt x))
  | .setSession x => some ((s.setSession x (some S)).set S
      { s.session S with creator := .returned })
  | .finding | .returned | .failed _ => none

/-- `channel_on_init` -/
def System.onInit (s : System) (S : ℕ) : Option System :=
  if (s.session S).core = .ready ∧ (s.session S).inited = false then
    some { s.set S { s.session S with inited := true } with calls := s.calls + 1 }
  else
    none

/-- The core runs `channel_on_hangup`. -/
def System.coreHangup (s : System) (S : ℕ) (ok : Bool) : Option System :=
  match (s.session S).core with
  | .idle => none
  | .ready => (s.session S).tech.map fun x =>
      s.set S { s.session S with core := .hangup x .read }
  | .hangup x phase => (s.hangup S x ok phase).map fun (s', phase') =>
      s'.set S { s'.session S with core := .hangup x phase' }

/-- The core is done with a session. -/
def System.coreDestroy (s : System) (S : ℕ) : Option System :=
  match (s.session S).core with
  | .hangup _ .done => some (s.set S { s.session S with destroyed := true })
  | _ => none

/-- `EV_CONNECT` marks the call of the session as answered. -/
def System.evConnect (s : System) (x : Chan) : Option System :=
  (s.pvt x).bind fun S => if (s.session S).destroyed then none else some s

/-- `EV_DISCONNECT`, up to the call of `channel_on_hangup`. -/
def System.evDisconnect (s : System) (x : Chan) : Option System :=
  match s.pvt x with
  | none => some s
  | some S =>
    if (s.session S).destroyed then none
    else (s.session S).tech.map fun pvt =>
      { s with handlers := s.handlers ++ [{ session := S, pvt := pvt, channel := x }] }

/-- The next step of an `EV_DISCONNECT`: it sets the session to null once more. -/
def System.handle (s : System) (i : ℕ) (ok : Bool) : Option System :=
  s.handlers[i]?.bind fun h =>
    if h.phase = .done then
      if h.dropped then none
      else some { s.setSession h.channel none with
        handlers := s.handlers.set i { h with dropped := true } }
    else
      (s.hangup h.session h.pvt ok h.phase).map fun (s', phase') =>
        { s' with handlers := s'.handlers.set i { h with phase := phase' } }

/-! ## Runs -/

inductive Action
  | outgoing (requested : Bool)
  | newCall (x : Chan) (requested : Bool)
  | find (S : ℕ) (found : Option Chan)
  | create (S : ℕ) (ok : Bool)
  | onInit (S : ℕ)
  | hangup (S : ℕ) (ok : Bool)
  | destroy (S : ℕ)
  | connect (x : Chan)
  | disconnect (x : Chan)
  | handle (i : ℕ) (ok : Bool)

def next (s : System) : Action → Option System
  | .outgoing requested =>
    some (if requested then s.request { outgoing := true, creator := .finding } else s)
  | .newCall x requested =>
    some (if requested then s.request { outgoing := false, creator := .techInit x } else s)
  | .find S found => if S < s.numSessions then s.find S found else none
  | .create S ok => if S < s.numSessions then s.create S ok else none
  | .onInit S => if S < s.numSessions then s.onInit S else none
  | .hangup S ok => if S < s.numSessions then s.coreHangup S ok else none
  | .destroy S => if S < s.numSessions then s.coreDestroy S else none
  | .connect x => s.evConnect x
  | .disconnect x => s.evDisconnect x
  | .handle i ok => s.handle i ok

end Khomp.Channels
