import Mathlib.Data.Nat.Notation
import Mathlib.Logic.Function.Basic
import FreeswitchContrib.Library.Interleaving

/-!
# The commands of `mod_blacklist`

Any number of threads run `blacklist_api_function`.  A step is a critical section: `globals.lists`
is read and replaced under `lists_mutex`, the entries of a list under the `list_mutex` of that list.
The lists have numbers in the order of their creation.

The history has the start, the critical section on the entries and the answer of each command.
-/

namespace FreeswitchContrib.Blacklist

/-- `blacklist_t *` -/
abbrev ListPtr := ℕ

inductive Kind where
  | check
  | add
  | del
  deriving DecidableEq

structure Access where
  kind : Kind
  name : String
  entry : String
  deriving DecidableEq

inductive Command where
  | access (access : Access)
  | reload
  deriving DecidableEq

/-- `strcasecmp` -/
def sameText (s t : String) : Bool := s.toList.map Char.toLower = t.toList.map Char.toLower

/-- The two arguments after the name of the command; `zstr` is true of the empty string. -/
def Access.ofArgs (kind : Kind) : List String → Option Access
  | name :: entry :: _ => if name = "" ∨ entry = "" then none else some ⟨kind, name, entry⟩
  | _ => none

/-- What the arguments ask for. -/
def Command.ofArgv : List String → Option Command
  | [] => none
  | cmd :: args =>
    if sameText cmd "check" then (Access.ofArgs .check args).map .access
    else if sameText cmd "add" then (Access.ofArgs .add args).map .access
    else if sameText cmd "del" then (Access.ofArgs .del args).map .access
    else if sameText cmd "reload" then some .reload
    else none

def trim (string : String) : String :=
  String.ofList ((string.toList.takeWhile (· ≠ '\n')).takeWhile (· ≠ '\r'))

/-- `globals.lists` with the memory of the lists. -/
structure Lists where
  lists : List (String × ListPtr)
  entries : ListPtr → String → Bool
  freed : ListPtr → Bool
  numCreated : ℕ
  /-- a list was locked, read or written after it was freed -/
  misused : Bool

namespace Lists

def find (l : Lists) (name : String) : Option ListPtr := l.lists.lookup name

def insert (l : Lists) (name : String) (bl : ListPtr) : Lists :=
  { l with lists := (name, bl) :: l.lists.filter fun list => list.1 ≠ name }

/-- `switch_core_hash_insert` in a list; to insert NULL is to delete. -/
def insertEntry (l : Lists) (bl : ListPtr) (entry : String) (value : Bool) : Lists :=
  { l with entries := Function.update l.entries bl (Function.update (l.entries bl) entry value) }

def blacklistCreate (l : Lists) : Lists :=
  { l with
    entries := Function.update l.entries l.numCreated fun _ => false
    numCreated := l.numCreated + 1 }

def blacklistFree (l : Lists) (bl : ListPtr) : Lists :=
  { l with freed := Function.update l.freed bl true }

/-- `load_list`, with what `fgets` delivers; `none` when the file cannot be opened. -/
def loadList (l : Lists) (name : String) (file : Option (List String)) : Lists :=
  match file with
  | none => l.blacklistCreate
  | some lines =>
    (lines.foldl (fun l' buf => l'.insertEntry l.numCreated (trim buf) true) l.blacklistCreate).insert
      name l.numCreated

/-- The lists of `mod_blacklist.conf`, or `none` when it cannot be opened. -/
abbrev Config := Option (List (String × Option (List String)))

/-- `do_config` -/
def doConfig (l : Lists) : Config → Lists
  | none => l
  | some cfg =>
    cfg.foldl (fun l list => l.loadList list.1 list.2)
      { l.lists.foldl (fun l list => l.blacklistFree list.2) l with lists := [] }

/-- The mutex of a list is locked, and the entries are read or written. -/
def use (l : Lists) (bl : ListPtr) (a : Access) : Lists :=
  let l := if l.freed bl then { l with misused := true } else l
  match a.kind with
  | .check => l
  | .add => l.insertEntry bl a.entry true
  | .del => l.insertEntry bl a.entry false

/-- The answer to an access. -/
def result (l : Lists) (bl : ListPtr) (a : Access) : String :=
  match a.kind with
  | .check => if l.entries bl a.entry then "true" else "false"
  | .add | .del => "+OK\n"

end Lists

/-- The answer when there is no such list. -/
def Kind.unknown : Kind → String
  | .check => "false"
  | .add | .del => "-ERR Unknown blacklist\n"

/-- Where a thread is, before its next critical section. -/
inductive Phase where
  | idle
  | find (access : Access)
  | use (access : Access) (bl : ListPtr)
  | doConfig
  | answer (command : Command) (text : String)

inductive Event (τ : Type) where
  | started (t : τ) (command : Command)
  | done (t : τ) (command : Command)
  | answered (t : τ) (command : Command) (text : String)

structure State (τ : Type) where
  lists : Lists
  phase : τ → Phase
  history : List (Event τ)

inductive Action (τ : Type) where
  | start (t : τ) (argv : List String)
  | find (t : τ)
  | use (t : τ)
  | doConfig (t : τ) (config : Lists.Config)
  | answer (t : τ)

/-- The module was loaded with this configuration. -/
def State.init (τ : Type) (config : Lists.Config) : State τ where
  lists := Lists.doConfig ⟨[], fun _ _ => false, fun _ => false, 0, false⟩ config
  phase := fun _ => .idle
  history := []

variable {τ : Type} [DecidableEq τ]

def State.goto (s : State τ) (t : τ) (phase : Phase) (events : List (Event τ)) : State τ :=
  { s with phase := Function.update s.phase t phase, history := s.history ++ events }

def next (s : State τ) : Action τ → Option (State τ)
  | .start t argv =>
    match s.phase t with
    | .idle =>
      match Command.ofArgv argv with
      | none => some s
      | some (.access a) => some (s.goto t (.find a) [.started t (.access a)])
      | some .reload => some (s.goto t .doConfig [.started t .reload])
    | _ => none
  | .find t =>
    match s.phase t with
    | .find a =>
      match s.lists.find a.name with
      | none => some (s.goto t (.answer (.access a) a.kind.unknown) [])
      | some bl => some (s.goto t (.use a bl) [])
    | _ => none
  | .use t =>
    match s.phase t with
    | .use a bl =>
      some ({ s with lists := s.lists.use bl a }.goto t
        (.answer (.access a) (s.lists.result bl a)) [.done t (.access a)])
    | _ => none
  | .doConfig t config =>
    match s.phase t with
    | .doConfig =>
      some ({ s with lists := s.lists.doConfig config }.goto t (.answer .reload "+OK\n")
        (if config.isSome then [.done t .reload] else []))
    | _ => none
  | .answer t =>
    match s.phase t with
    | .answer command text => some (s.goto t .idle [.answered t command text])
    | _ => none

end FreeswitchContrib.Blacklist
