import FreeswitchContrib.EventSocket.Parser
import FreeswitchContrib.Library.Interleaving

/-!
# The queue of commands

`EventSocket` writes a command to the server and puts it in a queue; a reply goes to the first
command of the queue.  Any number of threads send commands, subscribe, find the connection broken or
connect again, while one thread parses what was received.  A step is one access to what they share.

Connections have numbers in the order in which they were opened.  The server answers the lines of a
connection one after the other, and the reply knows which line that was.  A piece that is read is a
list of messages: where the parser cuts them is its own matter.

`replies_matched` says which steps must not happen for the replies to go to their commands;
`replies_mismatched` has a run for each of them.
-/

namespace FreeswitchContrib.EventSocket

open Interleaving

namespace CommandQueue

/-! ## Commands and messages -/

/-- A command object; `number` is its identity, and `OnAuthed` handles the reply of `auth`. -/
structure CmdBase where
  number : ℕ
  text : String
  isAuth : Bool
  deriving DecidableEq

/-- What is written. -/
inductive Line where
  | command (cmd : CmdBase)
  /-- the request of `RequestEvents` -/
  | eventPlain (events : List String)
  deriving DecidableEq

def Line.text : Line → String
  | command cmd => cmd.text ++ "\n\n"
  | eventPlain events =>
    "event plain " ++ events.foldl (fun text event => text ++ event ++ " ") "" ++ "\n\n"

def Line.command? : Line → Option CmdBase
  | command cmd => some cmd
  | eventPlain _ => none

/-- The two content types that are taken for replies. -/
def IsReply (msg : PlainEventMsg) : Prop :=
  msg.contentType = "api/response".toList ∨ msg.contentType = "command/reply".toList

instance (msg : PlainEventMsg) : Decidable (IsReply msg) := inferInstanceAs (Decidable (_ ∨ _))

/-- A message of the server, and the line that it answers if it is a reply. -/
structure Message where
  msg : PlainEventMsg
  answers : Option Line
  isReply_iff : IsReply msg ↔ answers.isSome

def Message.command? (m : Message) : Option CmdBase := m.answers.bind Line.command?

/-! ## The client -/

inductive Party (τ : Type) where
  /-- the thread that parses the messages -/
  | parse
  | thread (t : τ)
  deriving DecidableEq

/-- Where a thread is, before its next step. -/
inductive Phase where
  | idle
  /-- in `Send`, the socket being connected -/
  | enqueue (text : String)
  | write (line : Line)
  | streamWrite (line : Line)
  /-- in `Subscribe`, the events being set -/
  | subscribe
  | requestEvents
  | handleReply (cmd : CmdBase)
  /-- in `TryConnect`, the socket being connected -/
  | openStream
  /-- the steps of `HandleDisconnect` -/
  | clearParser
  | resetAuthed
  | closeSocket
  | disposeStream

/-- A connection as the server sees it. -/
structure Connection where
  unanswered : List Line
  /-- what the server has sent and was not read -/
  sent : List Message

structure State (τ : Type) where
  commands : List CmdBase
  numCommands : ℕ
  /-- the messages in the parser, with the connection they came from -/
  parser : List (ℕ × Message)
  authed : Bool
  events : Option (List String)
  /-- the connection of the socket, unless it is a new one -/
  socket : Option ℕ
  connected : Bool
  stream : Option ℕ
  connection : ℕ → Connection
  numConnections : ℕ
  /-- what was read and not appended yet -/
  pending : List (ℕ × List Message)
  phase : Party τ → Phase
  /-- which answer was handed to which command -/
  handed : List (Option Line × CmdBase)

def State.init (τ : Type) : State τ where
  commands := []
  numCommands := 0
  parser := []
  authed := false
  events := none
  socket := none
  connected := false
  stream := none
  connection := fun _ => ⟨[], []⟩
  numConnections := 0
  pending := []
  phase := fun _ => .idle
  handed := []

inductive Action (τ : Type) where
  | send (t : τ) (text : String)
  | subscribe (t : τ) (events : List String)
  | tryConnect (t : τ)
  /-- a read fails or finds the end of the stream -/
  | disconnect (t : τ)
  | step (p : Party τ)
  /-- a call throws an exception -/
  | throws (p : Party τ)
  /-- the socket is found not to be connected any more -/
  | socketFails
  /-- `EndRead` returns so many messages -/
  | read (n : ℕ)
  /-- a piece that was read is appended -/
  | append (i : ℕ)
  /-- the server answers the next line of a connection -/
  | answer (c : ℕ) (msg : PlainEventMsg)
  /-- the server sends something else -/
  | serverSends (c : ℕ) (msg : PlainEventMsg)

section

variable {τ : Type} [DecidableEq τ]

namespace State

variable (s : State τ)

def goto (p : Party τ) (phase : Phase) : State τ :=
  { s with phase := Function.update s.phase p phase }

/-- A new command is put in the queue and is written next. -/
def enqueue (p : Party τ) (text : String) (isAuth : Bool) : State τ :=
  let cmd : CmdBase := ⟨s.numCommands, text, isAuth⟩
  { s with commands := s.commands ++ [cmd], numCommands := s.numCommands + 1 }.goto p
    (.write (.command cmd))

/-- An exception ends the call, and makes the parsing thread disconnect. -/
def throws (p : Party τ) : State τ :=
  match p with
  | .parse => s.goto p .clearParser
  | .thread _ => s.goto p .idle

def setConnection (c : ℕ) (connection : Connection) : State τ :=
  { s with connection := Function.update s.connection c connection }

end State

/-- A turn of the loop in `ParseMessages`. -/
def parseMessage (password : String) (s : State τ) : Option (State τ) :=
  match s.parser with
  | [] => none
  | (_, m) :: parser =>
    let s := { s with parser := parser }
    if m.msg.contentType = "auth/request".toList then
      some (s.enqueue .parse ("auth " ++ password) true)
    else if IsReply m.msg then
      match s.commands with
      | [] => some s
      | cmd :: commands =>
        some ({ s with commands := commands, handed := s.handed ++ [(m.answers, cmd)] }.goto .parse
          (.handleReply cmd))
    else
      some s

/-- The next step of a thread. -/
def stepParty (password : String) (s : State τ) (p : Party τ) : Option (State τ) :=
  match s.phase p with
  | .idle =>
    match p with
    | .parse => parseMessage password s
    | .thread _ => none
  | .enqueue text => some (s.enqueue p text false)
  | .write line => some (if s.connected then s.goto p (.streamWrite line) else s.goto p .idle)
  | .streamWrite line =>
    match s.stream with
    | none => some (s.throws p)
    | some c =>
      some ((s.setConnection c { s.connection c with
        unanswered := (s.connection c).unanswered ++ [line] }).goto p .idle)
  | .subscribe => some (s.goto p (if s.connected && s.authed then .requestEvents else .idle))
  | .requestEvents =>
    match s.events with
    | none => some (s.throws p)
    | some events =>
      some (s.goto p (if events.length ≤ 0 && s.authed then .idle else .write (.eventPlain events)))
  | .handleReply cmd =>
    some (if cmd.isAuth then { s with authed := true }.goto p .requestEvents else s.goto p .idle)
  | .openStream =>
    some ({ s with stream := if s.stream.isNone && s.connected then s.socket else s.stream }.goto p
      .idle)
  | .clearParser => some ({ s with parser := [] }.goto p .resetAuthed)
  | .resetAuthed => some ({ s with authed := false }.goto p .closeSocket)
  | .closeSocket => some ({ s with socket := none, connected := false }.goto p .disposeStream)
  | .disposeStream => some ({ s with stream := none }.goto p .idle)

/-- A thread begins a call. -/
def call (s : State τ) (t : τ) (s' : State τ) : Option (State τ) :=
  match s.phase (.thread t) with
  | .idle => some s'
  | _ => none

def next (password : String) (s : State τ) : Action τ → Option (State τ)
  | .send t text => call s t (if s.connected then s.goto (.thread t) (.enqueue text) else s)
  | .subscribe t events => call s t ({ s with events := some events }.goto (.thread t) .subscribe)
  | .tryConnect t =>
    if s.socket.isNone then
      call s t ({ s with
        socket := some s.numConnections
        connected := true
        numConnections := s.numConnections + 1 }.goto (.thread t) .openStream)
    else
      none
  | .disconnect t => call s t (s.goto (.thread t) .clearParser)
  | .step p => stepParty password s p
  | .throws p =>
    match s.phase p with
    | .clearParser | .resetAuthed | .closeSocket | .disposeStream => none
    | _ => some (s.throws p)
  | .socketFails => some { s with connected := false }
  | .read n =>
    match s.stream with
    | none => none
    | some c =>
      some { s.setConnection c { s.connection c with sent := (s.connection c).sent.drop n } with
        pending := s.pending ++ [(c, (s.connection c).sent.take n)] }
  | .append i =>
    match s.pending[i]? with
    | none => none
    | some (c, piece) =>
      some { s with
        parser := s.parser ++ piece.map fun m => (c, m)
        pending := s.pending.eraseIdx i }
  | .answer c msg =>
    match (s.connection c).unanswered with
    | [] => none
    | line :: unanswered =>
      if h : IsReply msg then
        some (s.setConnection c
          ⟨unanswered, (s.connection c).sent ++ [⟨msg, some line, by simpa using h⟩]⟩)
      else
        none
  | .serverSends c msg =>
    if h : IsReply msg then none
    else
      some (s.setConnection c { s.connection c with
        sent := (s.connection c).sent ++ [⟨msg, none, by simpa using h⟩] })

end

/-! ## Replies that go to their commands -/

section

variable {τ : Type}

/-- The messages of a connection that are still to be parsed, in the order in which they were
sent. -/
def unparsed (c : ℕ) (parser : List (ℕ × Message)) (pending : List (ℕ × List Message))
    (sent : List Message) : List Message :=
  (parser.filter (·.1 = c)).map (·.2) ++ (pending.filter (·.1 = c)).flatMap (·.2) ++ sent

def commandsOf (messages : List Message) (unanswered : List Line) : List CmdBase :=
  messages.filterMap Message.command? ++ unanswered.filterMap Line.command?

/-- The commands written on a connection of which the reply is still to be parsed. -/
def State.waiting (s : State τ) (c : ℕ) : List CmdBase :=
  commandsOf (unparsed c s.parser s.pending (s.connection c).sent) (s.connection c).unanswered

/-- The commands that wait on the connection that is written to. -/
def State.written (s : State τ) : List CmdBase :=
  match s.stream with
  | none => []
  | some c => s.waiting c

/-- What was handed to a command answers it. -/
def State.Matched (s : State τ) : Prop :=
  ∀ h ∈ s.handed, h.1 = some (.command h.2)

/-- The steps that keep the queue and the connection in step with each other. -/
def Orderly (s : State τ) : Action τ → Prop
  | .step p =>
    match s.phase p with
    | .streamWrite (.command cmd) => s.stream.isSome → s.commands[s.written.length]? = some cmd
    | .clearParser => ∀ m ∈ s.parser, m.2.command? = none
    | .disposeStream => s.written = []
    | .idle =>
      p = .parse → ∀ m ∈ s.parser.head?, m.2.answers.isSome → m.2.command? = none → s.commands = []
    | _ => True
  | .append i => ∀ piece ∈ s.pending[i]?, ∀ earlier ∈ s.pending.take i, earlier.1 ≠ piece.1
  | _ => True

structure Inv (s : State τ) : Prop where
  /-- what was written on another connection waits for nothing -/
  current : ∀ c, s.stream ≠ some c → s.waiting c = []
  queue : ∃ unwritten, s.commands = s.written ++ unwritten
  matched : s.Matched

variable {s s' : State τ} {c k : ℕ}

lemma waiting_congr (hparser : s'.parser = s.parser) (hpending : s'.pending = s.pending)
    (hconnection : s'.connection c = s.connection c) : s'.waiting c = s.waiting c := by
  rw [State.waiting, State.waiting, hparser, hpending, hconnection]

lemma written_congr (hstream : s'.stream = s.stream) (hwaiting : ∀ c, s'.waiting c = s.waiting c) :
    s'.written = s.written := by
  rw [State.written, State.written, hstream]
  cases s.stream with
  | none => rfl
  | some c => exact hwaiting c

lemma written_eq (h : s.stream = some c) : s.written = s.waiting c := by
  rw [State.written, h]

namespace Inv

/-- No command waits for its reply. -/
lemma of_waiting_eq_nil (hnil : ∀ c, s.waiting c = []) (hmatched : s.Matched) : Inv s where
  current c _ := hnil c
  queue := by
    refine ⟨s.commands, ?_⟩
    rw [State.written]
    split
    · rfl
    · next c _ => rw [hnil c, List.nil_append]
  matched := hmatched

lemma init : Inv (State.init τ) := of_waiting_eq_nil (fun _ => rfl) nofun

/-- Nothing is written or parsed. -/
lemma frame (h : Inv s) (hwaiting : ∀ c, s'.waiting c = s.waiting c)
    (hstream : s'.stream = s.stream) (hhanded : s'.handed = s.handed) (cmds : List CmdBase)
    (hcommands : s'.commands = s.commands ++ cmds) : Inv s' where
  current c hc := by rw [hwaiting]; exact h.current c (hstream ▸ hc)
  queue := by
    obtain ⟨unwritten, hqueue⟩ := h.queue
    refine ⟨unwritten ++ cmds, ?_⟩
    rw [hcommands, hqueue, written_congr hstream hwaiting, List.append_assoc]
  matched := by rw [State.Matched, hhanded]; exact h.matched

/-- Neither the queue nor what is on the way changes. -/
lemma unchanged (h : Inv s) (hparser : s'.parser = s.parser) (hpending : s'.pending = s.pending)
    (hconnection : s'.connection = s.connection) (hstream : s'.stream = s.stream)
    (hhanded : s'.handed = s.handed) (hcommands : s'.commands = s.commands) : Inv s' :=
  h.frame (fun c => waiting_congr hparser hpending (congrFun hconnection c)) hstream hhanded []
    (by rw [hcommands, List.append_nil])

end Inv

/-! ### What is on the way -/

variable {parser : List (ℕ × Message)} {pending : List (ℕ × List Message)} {sent : List Message}

lemma setConnection_of_ne (hk : k ≠ c) (connection : Connection) :
    (s.setConnection c connection).connection k = s.connection k :=
  Function.update_of_ne hk _ _

lemma setConnection_self (connection : Connection) :
    (s.setConnection c connection).connection c = connection :=
  Function.update_self _ _ _

/-- A read moves messages from the connection to the last piece. -/
lemma unparsed_read (n : ℕ) :
    unparsed c parser (pending ++ [(c, sent.take n)]) (sent.drop n) =
      unparsed c parser pending sent := by
  simp only [unparsed, List.filter_append, List.filter_cons_of_pos, List.filter_nil,
    decide_true, List.flatMap_append, List.flatMap_cons, List.flatMap_nil, List.append_nil,
    List.append_assoc, List.take_append_drop]

lemma unparsed_read_of_ne (hk : k ≠ c) (piece : List Message) :
    unparsed k parser (pending ++ [(c, piece)]) sent = unparsed k parser pending sent := by
  have hne : ¬ c = k := fun h => hk h.symm
  simp only [unparsed, List.filter_append, List.filter_cons, hne, decide_false, List.filter_nil,
    Bool.false_eq_true, if_false, List.append_nil]

lemma filter_map_self (piece : List Message) :
    ((piece.map fun m => (c, m)).filter (·.1 = c)).map (·.2) = piece := by
  induction piece with
  | nil => rfl
  | cons m piece ih =>
    rw [List.map_cons, List.filter_cons_of_pos (by simp), List.map_cons, ih]

lemma filter_map_of_ne (hk : k ≠ c) (piece : List Message) :
    (piece.map fun m => (c, m)).filter (·.1 = k) = [] := by
  rw [List.filter_eq_nil_iff]
  rintro ⟨c', m⟩ hm
  obtain ⟨m', _, heq⟩ := List.mem_map.mp hm
  cases heq
  simpa using fun h => hk h.symm

/-- The first piece of its connection is appended to the messages of the parser. -/
lemma unparsed_append {before after : List (ℕ × List Message)} {piece : List Message}
    (hbefore : ∀ earlier ∈ before, earlier.1 ≠ c) (k : ℕ) :
    unparsed k (parser ++ piece.map fun m => (c, m)) (before ++ after) sent =
      unparsed k parser (before ++ (c, piece) :: after) sent := by
  unfold unparsed
  by_cases hk : k = c
  · subst hk
    have hnone : before.filter (·.1 = k) = [] := by
      rw [List.filter_eq_nil_iff]
      intro earlier hearlier
      simpa using hbefore earlier hearlier
    rw [List.filter_append, List.map_append, filter_map_self, List.filter_append, hnone,
      List.filter_append, hnone, List.filter_cons_of_pos (by simp), List.nil_append,
      List.nil_append, List.flatMap_cons]
    simp only [List.append_assoc]
  · have hne : ¬ c = k := fun h => hk h.symm
    rw [List.filter_append, filter_map_of_ne hk, List.append_nil, List.filter_append,
      List.filter_append, List.filter_cons_of_neg (by simpa using hne)]

/-- A line that is answered waits in the answer from then on. -/
lemma commandsOf_answer {m : Message} {line : Line} {unanswered : List Line}
    (hm : m.answers = some line) :
    commandsOf (unparsed c parser pending (sent ++ [m])) unanswered =
      commandsOf (unparsed c parser pending sent) (line :: unanswered) := by
  have hcommand : m.command? = line.command? := by rw [Message.command?, hm]; rfl
  simp only [commandsOf, unparsed, List.filterMap_append, List.append_assoc]
  cases hline : line.command? <;> simp [hcommand, hline]

lemma commandsOf_send {m : Message} {unanswered : List Line} (hm : m.answers = none) :
    commandsOf (unparsed c parser pending (sent ++ [m])) unanswered =
      commandsOf (unparsed c parser pending sent) unanswered := by
  have hcommand : m.command? = none := by rw [Message.command?, hm]; rfl
  simp [commandsOf, unparsed, hcommand]

/-- A message is taken out of the parser. -/
lemma waiting_pop {m : Message} {rest : List (ℕ × Message)} (hparser : s.parser = (c, m) :: rest)
    (k : ℕ) :
    s.waiting k =
      (if k = c then m.command?.toList else []) ++
        ({ s with parser := rest } : State τ).waiting k := by
  rw [State.waiting, State.waiting, commandsOf, commandsOf, unparsed, unparsed, hparser]
  by_cases hk : k = c
  · rw [if_pos hk, List.filter_cons_of_pos (by simp [hk]), List.map_cons, List.cons_append,
      List.cons_append, List.filterMap_cons]
    cases m.command? with
    | none => rfl
    | some cmd => rfl
  · have hne : ¬ c = k := fun h => hk h.symm
    rw [if_neg hk, List.filter_cons_of_neg (by simpa using hne), List.nil_append]

/-! ### One step -/

namespace Inv

section

variable [DecidableEq τ] {p : Party τ} {password : String}

lemma goto (h : Inv s) (phase : Phase) : Inv (s.goto p phase) :=
  h.unchanged rfl rfl rfl rfl rfl rfl

lemma throws (h : Inv s) : Inv (s.throws p) := by
  cases p with
  | parse | thread t => exact h.goto _

lemma enqueue (h : Inv s) (text : String) (isAuth : Bool) : Inv (s.enqueue p text isAuth) :=
  h.frame (fun _ => rfl) rfl rfl _ rfl

/-- A line is written; a command has to be the next one of the queue. -/
lemma streamWrite (h : Inv s) {line : Line} (hstream : s.stream = some c)
    (hnext : ∀ cmd, line = .command cmd → s.commands[s.written.length]? = some cmd) :
    Inv ((s.setConnection c { s.connection c with
      unanswered := (s.connection c).unanswered ++ [line] }).goto p .idle) := by
  refine goto ?_ _
  set s' := s.setConnection c { s.connection c with
    unanswered := (s.connection c).unanswered ++ [line] }
  have hself : s'.waiting c = s.waiting c ++ line.command?.toList := by
    rw [State.waiting, State.waiting, setConnection_self, commandsOf, commandsOf,
      List.filterMap_append, List.append_assoc]
    cases line with
    | command cmd | eventPlain events => rfl
  have hother : ∀ k, k ≠ c → s'.waiting k = s.waiting k := fun k hk =>
    waiting_congr rfl rfl (setConnection_of_ne hk _)
  refine ⟨fun k hk => ?_, ?_, h.matched⟩
  · have hkc : k ≠ c := fun heq => hk (heq ▸ hstream)
    rw [hother k hkc]
    exact h.current k hk
  · obtain ⟨unwritten, hqueue⟩ := h.queue
    rw [written_eq (s := s') hstream, hself]
    rw [written_eq hstream] at hqueue hnext
    cases line with
    | eventPlain events => exact ⟨unwritten, hqueue.trans (by rw [Line.command?]; simp)⟩
    | command cmd =>
      have hcmd := hnext cmd rfl
      rw [hqueue, List.getElem?_append_right (Nat.le_refl _), Nat.sub_self] at hcmd
      cases unwritten with
      | nil => cases hcmd
      | cons first unwritten =>
        cases hcmd
        refine ⟨unwritten, ?_⟩
        show s.commands = _
        rw [hqueue, List.append_assoc]
        rfl

end

/-- A message that is not the reply to a command leaves the queue alone. -/
lemma pop (h : Inv s) {m : Message} {rest : List (ℕ × Message)}
    (hparser : s.parser = (c, m) :: rest) (hm : m.command? = none) :
    Inv { s with parser := rest } := by
  refine h.frame (fun k => ?_) rfl rfl [] (List.append_nil _).symm
  rw [waiting_pop hparser k, hm]
  split_ifs <;> rfl

/-- The reply to a command finds this command at the head of the queue. -/
lemma popReply (h : Inv s) {m : Message} {rest : List (ℕ × Message)} {cmd : CmdBase}
    (hparser : s.parser = (c, m) :: rest) (hm : m.command? = some cmd) :
    ∃ commands, s.commands = cmd :: commands ∧
      Inv { s with
        parser := rest, commands := commands, handed := s.handed ++ [(m.answers, cmd)] } := by
  have hself := waiting_pop hparser c
  rw [if_pos rfl, hm, Option.toList_some, List.singleton_append] at hself
  have hstream : s.stream = some c := by
    by_contra hne
    have hnil := h.current c hne
    rw [hself] at hnil
    cases hnil
  obtain ⟨unwritten, hqueue⟩ := h.queue
  rw [written_eq hstream, hself, List.cons_append] at hqueue
  refine ⟨_, hqueue, ?_⟩
  set popped : State τ := { s with
    parser := rest
    commands := ({ s with parser := rest } : State τ).waiting c ++ unwritten
    handed := s.handed ++ [(m.answers, cmd)] }
  refine ⟨?_, ⟨unwritten, ?_⟩, ?_⟩
  · intro k hk
    have hkc : k ≠ c := fun heq => hk (heq ▸ hstream)
    have hother := waiting_pop hparser k
    rw [if_neg hkc, List.nil_append, h.current k hk] at hother
    exact hother.symm
  · rw [written_eq (s := popped) hstream]
    rfl
  · intro x hx
    rcases List.mem_append.mp hx with hx | hx
    · exact h.matched x hx
    · rw [List.mem_singleton.mp hx]
      obtain ⟨line, hline, hcommand⟩ := Option.bind_eq_some_iff.mp hm
      cases line with
      | command cmd' =>
        cases hcommand
        exact hline
      | eventPlain events => cases hcommand

/-- Nothing is written on a connection any more. -/
lemma close (h : Inv s) (hwritten : s.written = []) (c : ℕ) : s.waiting c = [] := by
  by_cases hc : s.stream = some c
  · rw [← written_eq hc]
    exact hwritten
  · exact h.current c hc

lemma clearParser (h : Inv s) (hnone : ∀ m ∈ s.parser, m.2.command? = none) :
    Inv { s with parser := [] } := by
  refine h.frame (fun c => ?_) rfl rfl [] (List.append_nil _).symm
  have hnil : ((s.parser.filter (·.1 = c)).map (·.2)).filterMap Message.command? = [] := by
    rw [List.filterMap_eq_nil_iff]
    intro m hm
    obtain ⟨x, hx, rfl⟩ := List.mem_map.mp hm
    exact hnone x (List.mem_filter.mp hx).1
  simp only [State.waiting, commandsOf, unparsed, List.filterMap_append, hnil, List.filter_nil,
    List.map_nil, List.filterMap_nil]

lemma call {t : τ} {s₁ : State τ} (h : Inv s₁) (hnext : call s t s₁ = some s') : Inv s' := by
  unfold CommandQueue.call at hnext
  split at hnext
  · cases hnext
    exact h
  · cases hnext

lemma setConnection (h : Inv s) (connection : Connection)
    (hwaiting : (s.setConnection c connection).waiting c = s.waiting c) :
    Inv (s.setConnection c connection) := by
  refine h.frame (fun k => ?_) rfl rfl [] (List.append_nil _).symm
  by_cases hk : k = c
  · rw [hk]
    exact hwaiting
  · exact waiting_congr rfl rfl (setConnection_of_ne hk _)

lemma read (h : Inv s) (n : ℕ) :
    Inv { s.setConnection c { s.connection c with sent := (s.connection c).sent.drop n } with
      pending := s.pending ++ [(c, (s.connection c).sent.take n)] } := by
  refine h.frame (fun k => ?_) rfl rfl [] (List.append_nil _).symm
  unfold State.waiting
  by_cases hk : k = c
  · subst hk
    rw [setConnection_self]
    exact congrArg (commandsOf · _) (unparsed_read n)
  · rw [setConnection_of_ne hk]
    exact congrArg (commandsOf · _) (unparsed_read_of_ne hk _)

lemma append (h : Inv s) {i : ℕ} {piece : List Message} (hpending : s.pending[i]? = some (c, piece))
    (hfirst : ∀ earlier ∈ s.pending.take i, earlier.1 ≠ c) :
    Inv { s with
      parser := s.parser ++ piece.map fun m => (c, m), pending := s.pending.eraseIdx i } := by
  refine h.frame (fun k => ?_) rfl rfl [] (List.append_nil _).symm
  obtain ⟨hi, hget⟩ := List.getElem?_eq_some_iff.mp hpending
  have hsplit : s.pending = s.pending.take i ++ (c, piece) :: s.pending.drop (i + 1) := by
    rw [← hget, List.getElem_cons_drop, List.take_append_drop]
  unfold State.waiting
  refine congrArg (commandsOf · _) ?_
  dsimp only
  rw [List.eraseIdx_eq_take_drop_succ]
  conv_rhs => rw [hsplit]
  exact unparsed_append hfirst k

variable [DecidableEq τ] {p : Party τ} {password : String}

lemma parseMessage (h : Inv s)
    (horderly : ∀ m ∈ s.parser.head?, m.2.answers.isSome → m.2.command? = none → s.commands = [])
    (hnext : parseMessage password s = some s') : Inv s' := by
  unfold CommandQueue.parseMessage at hnext
  split at hnext
  · cases hnext
  · next c m rest hparser =>
    have hnone : ¬ IsReply m.msg → m.command? = none := by
      intro hreply
      rw [m.isReply_iff, Option.not_isSome_iff_eq_none] at hreply
      rw [Message.command?, hreply]
      rfl
    dsimp only at hnext
    split_ifs at hnext with hauth hreply
    · cases hnext
      refine (h.pop hparser (hnone ?_)).enqueue _ _
      rw [IsReply, hauth]
      decide
    · cases hm : m.command? with
      | none =>
        have hempty := horderly (c, m) (by rw [hparser]; rfl) (m.isReply_iff.mp hreply) hm
        split at hnext
        · cases hnext
          exact h.pop hparser hm
        · next hcommands =>
          rw [hempty] at hcommands
          cases hcommands
      | some cmd =>
        obtain ⟨commands, hcommands, hpopped⟩ := h.popReply hparser hm
        rw [hcommands] at hnext
        cases hnext
        exact hpopped.goto _
    · cases hnext
      exact h.pop hparser (hnone hreply)

lemma stepParty (h : Inv s) (horderly : Orderly s (.step p))
    (hnext : stepParty password s p = some s') : Inv s' := by
  unfold CommandQueue.stepParty at hnext
  unfold Orderly at horderly
  dsimp only at horderly
  cases hphase : s.phase p with
  | idle =>
    rw [hphase] at hnext horderly
    cases p with
    | parse => exact h.parseMessage (horderly rfl) hnext
    | thread t => cases hnext
  | enqueue text =>
    rw [hphase] at hnext
    cases hnext
    exact h.enqueue text false
  | write line =>
    rw [hphase] at hnext
    dsimp only at hnext
    split_ifs at hnext
    all_goals
      cases hnext
      exact h.goto _
  | streamWrite line =>
    rw [hphase] at hnext horderly
    dsimp only at hnext
    split at hnext
    · cases hnext
      exact h.throws
    · next c hstream =>
      cases hnext
      refine h.streamWrite hstream fun cmd hline => ?_
      subst hline
      exact horderly (by rw [hstream]; rfl)
  | subscribe =>
    rw [hphase] at hnext
    cases hnext
    exact h.goto _
  | requestEvents =>
    rw [hphase] at hnext
    dsimp only at hnext
    split at hnext
    · cases hnext
      exact h.throws
    · cases hnext
      exact h.goto _
  | handleReply cmd =>
    rw [hphase] at hnext
    dsimp only at hnext
    split_ifs at hnext
    · cases hnext
      exact h.unchanged rfl rfl rfl rfl rfl rfl
    · cases hnext
      exact h.goto _
  | openStream =>
    rw [hphase] at hnext
    cases hnext
    cases hstream : s.stream with
    | some c =>
      refine h.unchanged rfl rfl rfl ?_ rfl rfl
      rw [hstream]
      rfl
    | none =>
      exact of_waiting_eq_nil (fun c => h.current c (by rw [hstream]; nofun)) h.matched
  | clearParser =>
    rw [hphase] at hnext horderly
    cases hnext
    exact (h.clearParser horderly).goto _
  | resetAuthed =>
    rw [hphase] at hnext
    cases hnext
    exact h.unchanged rfl rfl rfl rfl rfl rfl
  | closeSocket =>
    rw [hphase] at hnext
    cases hnext
    exact h.unchanged rfl rfl rfl rfl rfl rfl
  | disposeStream =>
    rw [hphase] at hnext horderly
    cases hnext
    exact of_waiting_eq_nil (h.close horderly) h.matched

lemma next {a : Action τ} (h : Inv s) (horderly : Orderly s a)
    (hnext : next password s a = some s') : Inv s' := by
  unfold CommandQueue.next at hnext
  cases a with
  | send t text =>
    dsimp only at hnext
    refine call ?_ hnext
    split_ifs
    · exact h.goto _
    · exact h
  | subscribe t events =>
    dsimp only at hnext
    refine call ?_ hnext
    exact h.unchanged rfl rfl rfl rfl rfl rfl
  | tryConnect t =>
    dsimp only at hnext
    split_ifs at hnext
    refine call ?_ hnext
    exact h.unchanged rfl rfl rfl rfl rfl rfl
  | disconnect t =>
    dsimp only at hnext
    exact call (h.goto _) hnext
  | step p => exact h.stepParty horderly hnext
  | throws p =>
    dsimp only at hnext
    split at hnext
    all_goals
      cases hnext
    exact h.throws
  | socketFails =>
    cases hnext
    exact h.unchanged rfl rfl rfl rfl rfl rfl
  | read n =>
    dsimp only at hnext
    split at hnext
    · cases hnext
    · cases hnext
      exact h.read n
  | append i =>
    dsimp only at hnext
    split at hnext
    · cases hnext
    · next c piece hpending =>
      cases hnext
      exact h.append hpending (horderly _ hpending)
  | answer c msg =>
    dsimp only at hnext
    split at hnext
    · cases hnext
    · next line unanswered hunanswered =>
      split_ifs at hnext with hreply
      cases hnext
      refine h.setConnection _ ?_
      rw [State.waiting, State.waiting, setConnection_self, hunanswered]
      exact commandsOf_answer rfl
  | serverSends c msg =>
    dsimp only at hnext
    split_ifs at hnext with hreply
    cases hnext
    refine h.setConnection _ ?_
    rw [State.waiting, State.waiting, setConnection_self]
    exact commandsOf_send rfl

end Inv

variable [DecidableEq τ]

/-- **Replies go to their commands** in every run of which the steps are orderly: what is handed to
a command answers the line of this command. -/
theorem replies_matched {password : String} {as : List (Action τ)}
    (horderly : Always (next password) Orderly (.init τ) as)
    (hrun : run (next password) (.init τ) as = some s) : s.Matched := by
  have hstep : ∀ (s : State τ) a s', Inv s → Orderly s a → next password s a = some s' →
      Inv s' := fun _ _ _ h horderly hnext => h.next horderly hnext
  exact (run_invariant_of_always hstep Inv.init horderly hrun).matched

end

/-! ## Replies that do not -/

def commandReply : PlainEventMsg := ⟨"command/reply".toList, -1, "+OK".toList⟩

def authRequest : PlainEventMsg := ⟨"auth/request".toList, -1, []⟩

/-- A thread sets the events and connects. -/
def connectTo (t : ℕ) : List (Action ℕ) :=
  [.subscribe t ["ALL"], .step (.thread t), .tryConnect t, .step (.thread t)]

/-- What the server has sent is read, appended and parsed. -/
def receive : List (Action ℕ) := [.read 1, .append 0, .step .parse]

/-- A line of the parsing thread is written. -/
def parseWrites : List (Action ℕ) := [.step .parse, .step .parse]

def authenticate (c : ℕ) : List (Action ℕ) :=
  .serverSends c authRequest :: receive ++ parseWrites ++ [.answer c commandReply] ++ receive

/-- A command is put in the queue. -/
def enqueue (t : ℕ) (text : String) : List (Action ℕ) := [.send t text, .step (.thread t)]

def writes (t : ℕ) : List (Action ℕ) := [.step (.thread t), .step (.thread t)]

theorem replies_matched_sent : ∃ s,
    run (next "ClueCon") (.init ℕ) (connectTo 0 ++ enqueue 1 "api status" ++ writes 1 ++
      [.answer 0 commandReply] ++ receive) = some s ∧ s.Matched := by
  have horderly : Always (next "ClueCon") Orderly (.init ℕ) (connectTo 0 ++
      enqueue 1 "api status" ++ writes 1 ++ [.answer 0 commandReply] ++ receive) := by
    simp only [connectTo, enqueue, writes, receive, List.cons_append, List.nil_append]
    repeat
      refine always_cons ?_ rfl ?_
      · first
          | exact trivial
          | exact fun _ => rfl
          | exact fun _ _ _ hearlier => absurd hearlier List.not_mem_nil
          | exact fun _ m hm _ hnone => by cases hm; cases hnone
    trivial
  exact ⟨_, rfl, replies_matched horderly rfl⟩

/-- **Replies can go astray**: the reply to a subscription goes to a command that was sent behind
it; two threads write their commands in the other order; a command of a lost connection gets the
reply to the authentication of the next one. -/
theorem replies_mismatched :
    (∃ s, run (next "ClueCon") (.init ℕ) (connectTo 0 ++ authenticate 0 ++
        List.replicate 4 (.step .parse) ++ enqueue 1 "api status" ++ writes 1 ++
        [.answer 0 commandReply] ++ receive) = some s ∧ ¬ s.Matched) ∧
    (∃ s, run (next "ClueCon") (.init ℕ) (connectTo 0 ++ enqueue 1 "api status" ++
        enqueue 2 "api version" ++ writes 2 ++ writes 1 ++ [.answer 0 commandReply] ++ receive) =
        some s ∧ ¬ s.Matched) ∧
    ∃ s, run (next "ClueCon") (.init ℕ) (connectTo 0 ++ enqueue 1 "api status" ++ writes 1 ++
        [.disconnect 2] ++ List.replicate 4 (.step (.thread 2)) ++ connectTo 0 ++ authenticate 1) =
        some s ∧ ¬ s.Matched := by
  refine ⟨⟨_, rfl, fun h => ?_⟩, ⟨_, rfl, fun h => ?_⟩, ⟨_, rfl, fun h => ?_⟩⟩
  · cases h (_, _) (List.mem_cons_of_mem _ List.mem_cons_self)
  · cases h (_, _) List.mem_cons_self
  · cases h (_, _) List.mem_cons_self

end CommandQueue

end FreeswitchContrib.EventSocket
