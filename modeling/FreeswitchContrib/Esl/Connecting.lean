import FreeswitchContrib.Esl.SyncCommands

/-!
# Connecting

`connect` of the inbound client.  The thread that calls it waits until the protocol listener has
been told of the answer to the password.  The listener belongs to the client and not to a
connection: whichever connection an answer is of, its thread writes the same three fields one after
the other, and nothing takes the values of an earlier connection back.

Connections have numbers in the order of the attempts.  An attempt that was given up can still
succeed later.  The fields are read and written one at a time, each access at once for all threads.

`connect_truthful` says when a call can trust what it reads: when `authenticated` was last written
for the connection that the call has opened.  `connect_not_truthful` is a client that is connected
twice.
-/

namespace FreeswitchContrib.Esl

open Interleaving

/-- The answer to a command; to make one fails with a null pointer if there is no text. -/
structure CommandResponse where
  command : String
  replyText : List Char
  response : EslMessage
  replyText_eq : response.headers (some .replyText) = some replyText

namespace CommandResponse

def new (command : String) (response : EslMessage) : Option CommandResponse :=
  match h : response.headers (some .replyText) with
  | none => none
  | some replyText => some ⟨command, replyText, response, h⟩

def isOk (r : CommandResponse) : Bool := "+OK".toList.isPrefixOf r.replyText

lemma response_of_new {command : String} {m : EslMessage} {r : CommandResponse}
    (h : new command m = some r) : r.response = m := by
  unfold new at h
  split at h
  · cases h
  · cases h
    rfl

end CommandResponse

namespace EslMessage

/-- A reply to a command, with this verdict. -/
def Replies (m : EslMessage) (ok : Bool) : Prop :=
  m.getContentType = some "command/reply".toList ∧
    ∃ replyText, m.headers (some .replyText) = some replyText ∧
      "+OK".toList.isPrefixOf replyText = ok

end EslMessage

namespace Client

/-- What ends the thread of a connection before it tells the listener. -/
inductive AuthError where
  | nullPointer
  | incorrectAuthResponse

/-- `handleAuthRequest`, from the response to the password on. -/
def handleAuthRequest (password : String) (response : EslMessage) :
    Except AuthError CommandResponse :=
  match response.getContentType with
  | none => .error .nullPointer
  | some contentType =>
    if contentType = "command/reply".toList then
      match CommandResponse.new ("auth " ++ password) response with
      | none => .error .nullPointer
      | some commandResponse => .ok commandResponse
    else
      .error .incorrectAuthResponse

lemma handleAuthRequest_ok {password : String} {m : EslMessage} {r : CommandResponse}
    (h : handleAuthRequest password m = .ok r) : m.Replies r.isOk := by
  unfold handleAuthRequest at h
  split at h
  · cases h
  · next contentType hcontent =>
    split_ifs at h with hreply
    split at h
    · cases h
    · next r' hr =>
      cases h
      obtain rfl := CommandResponse.response_of_new hr
      exact ⟨hcontent.trans (congrArg some hreply), r.replyText, r.replyText_eq, rfl⟩

/-! ## The client -/

inductive Link where
  | connecting
  | failed
  | connected
  | closed
  deriving DecidableEq

/-- Where the thread that handles the authentication of a connection is.  It tells the listener in
three steps. -/
inductive IoThread where
  | awaitsResponse
  | setResponded (response : CommandResponse)
  | setAuthenticated (response : CommandResponse)
  | setResponse (response : CommandResponse)
  | ended

structure Connection where
  password : String
  link : Link
  /-- what the server has answered to the password -/
  reply : Option EslMessage
  ioThread : IoThread

def Connection.new (password : String) : Connection where
  password := password
  link := .connecting
  reply := none
  ioThread := .awaitsResponse

/-- Where the thread that calls `connect` is; the number is that of the connection it opened. -/
inductive Caller where
  | idle
  /-- inside `canSend`, with the channel connected -/
  | canSend (password : String)
  | close (password : String)
  | awaitsConnection (n : ℕ)
  | awaitsResponded (n : ℕ)
  | testsAuthenticated (n : ℕ)
  | readsResponse (n : ℕ)

/-- How a call of `connect` ended. -/
inductive Outcome where
  | returned (n : ℕ)
  | timeoutConnecting (n : ℕ)
  | couldNotConnect (n : ℕ)
  | authenticationFailed (n : ℕ) (replyText : List Char)
  | nullPointer (n : ℕ)
  /-- an exception of `close` -/
  | notClosed

structure State where
  authenticatorResponded : Bool
  authenticated : Bool
  authenticationResponse : Option CommandResponse
  channel : Option ℕ
  connection : ℕ → Connection
  numConnections : ℕ
  caller : Caller
  outcomes : List Outcome
  /-- the connection that `authenticated` was last written for -/
  writer : Option ℕ

def State.init : State where
  authenticatorResponded := false
  authenticated := false
  authenticationResponse := none
  channel := none
  connection := fun _ => .new ""
  numConnections := 0
  caller := .idle
  outcomes := []
  writer := none

inductive Action where
  | connect (password : String)
  /-- `close` returns, or throws -/
  | closed (returns : Bool)
  /-- the attempt to connect takes too long -/
  | timeout
  /-- the next step of `connect` -/
  | caller
  | established (n : ℕ)
  | refused (n : ℕ)
  | disconnected (n : ℕ)
  /-- the server answers the password -/
  | reply (n : ℕ) (response : EslMessage)
  /-- the next step of the thread of a connection -/
  | io (n : ℕ)

namespace State

variable (s : State)

/-- `channel != null && channel.isConnected()` -/
def isConnected : Bool :=
  match s.channel with
  | none => false
  | some n => (s.connection n).link = .connected

/-- `bootstrap.connect` -/
def openConnection (password : String) : State :=
  { s with
    connection := Function.update s.connection s.numConnections (.new password)
    numConnections := s.numConnections + 1
    caller := .awaitsConnection s.numConnections }

/-- The call of `connect` is over. -/
def finish (outcome : Outcome) : State :=
  { s with caller := .idle, outcomes := s.outcomes ++ [outcome] }

def setConnection (n : ℕ) (c : Connection) : State :=
  { s with connection := Function.update s.connection n c }

/-- The thread of a connection goes on. -/
def goto (n : ℕ) (ioThread : IoThread) : State :=
  s.setConnection n { s.connection n with ioThread := ioThread }

def setLink (n : ℕ) (old new : Link) : Option State :=
  if n < s.numConnections ∧ (s.connection n).link = old then
    some (s.setConnection n { s.connection n with link := new })
  else
    none

end State

def callerStep (s : State) : Option State :=
  match s.caller with
  | .idle => none
  | .canSend password =>
    if s.authenticated then some { s with caller := .close password }
    else some (s.openConnection password)
  | .close _ => none
  | .awaitsConnection n =>
    match (s.connection n).link with
    | .connecting => none
    | .failed => some ({ s with channel := none }.finish (.couldNotConnect n))
    | .connected | .closed => some { s with channel := some n, caller := .awaitsResponded n }
  | .awaitsResponded n =>
    if s.authenticatorResponded then some { s with caller := .testsAuthenticated n } else some s
  | .testsAuthenticated n =>
    if s.authenticated then some (s.finish (.returned n))
    else some { s with caller := .readsResponse n }
  | .readsResponse n =>
    match s.authenticationResponse with
    | none => some (s.finish (.nullPointer n))
    | some response => some (s.finish (.authenticationFailed n response.replyText))

/-- A step of `handleAuthRequest` and of `authResponseReceived`. -/
def ioStep (s : State) (n : ℕ) : Option State :=
  match (s.connection n).ioThread with
  | .awaitsResponse =>
    match (s.connection n).reply with
    | none => none
    | some message =>
      match handleAuthRequest (s.connection n).password message with
      | .error _ => some (s.goto n .ended)
      | .ok response => some (s.goto n (.setResponded response))
  | .setResponded response =>
    some ({ s with authenticatorResponded := true }.goto n (.setAuthenticated response))
  | .setAuthenticated response =>
    some ({ s with authenticated := response.isOk, writer := some n }.goto n
      (.setResponse response))
  | .setResponse response =>
    some ({ s with authenticationResponse := some response }.goto n .ended)
  | .ended => none

def next (s : State) : Action → Option State
  | .connect password =>
    match s.caller with
    | .idle => some (if s.isConnected then { s with caller := .canSend password }
        else s.openConnection password)
    | _ => none
  | .closed returns =>
    match s.caller with
    | .close password => some (if returns then s.openConnection password else s.finish .notClosed)
    | _ => none
  | .timeout =>
    match s.caller with
    | .awaitsConnection n =>
      if (s.connection n).link = .connecting then some (s.finish (.timeoutConnecting n)) else none
    | _ => none
  | .caller => callerStep s
  | .established n => s.setLink n .connecting .connected
  | .refused n => s.setLink n .connecting .failed
  | .disconnected n => s.setLink n .connected .closed
  | .reply n response =>
    if n < s.numConnections ∧ (s.connection n).link = .connected ∧ (s.connection n).reply.isNone then
      some (s.setConnection n { s.connection n with reply := some response })
    else
      none
  | .io n => ioStep s n

/-! ## What a call can trust -/

/-- What an outcome tells about the connection of the call is true. -/
def Outcome.Truthful (connection : ℕ → Connection) : Outcome → Prop
  | .returned n => ∃ m, (connection n).reply = some m ∧ m.Replies true
  | .authenticationFailed n _ => ∃ m, (connection n).reply = some m ∧ m.Replies false
  | _ => True

/-- The value of `authenticated` that `connect` reads is the one written for its own connection. -/
def ReadsOwn (s : State) (a : Action) : Prop :=
  a = .caller → ∀ n, s.caller = .testsAuthenticated n → s.writer = some n

/-- What the thread of a connection holds is the answer to the password. -/
def IoThread.Holds (reply : Option EslMessage) : IoThread → Prop
  | awaitsResponse | ended => True
  | setResponded r | setAuthenticated r | setResponse r => ∃ m, reply = some m ∧ m.Replies r.isOk

structure Inv (s : State) : Prop where
  fresh : ∀ n, s.numConnections ≤ n → (s.connection n).reply = none
  holds : ∀ n, (s.connection n).ioThread.Holds (s.connection n).reply
  writer : ∀ n, s.writer = some n →
    ∃ m, (s.connection n).reply = some m ∧ m.Replies s.authenticated
  rejected : ∀ n, s.caller = .readsResponse n →
    ∃ m, (s.connection n).reply = some m ∧ m.Replies false
  truthful : ∀ outcome ∈ s.outcomes, outcome.Truthful s.connection

/-- No answer is taken back. -/
def Keeps (connection connection' : ℕ → Connection) : Prop :=
  ∀ n m, (connection n).reply = some m → (connection' n).reply = some m

lemma Outcome.Truthful.mono {outcome : Outcome} {connection connection' : ℕ → Connection}
    (h : outcome.Truthful connection) (hkeeps : Keeps connection connection') :
    outcome.Truthful connection' := by
  cases outcome with
  | returned n | authenticationFailed n =>
    obtain ⟨m, hm, hreplies⟩ := h
    exact ⟨m, hkeeps n m hm, hreplies⟩
  | _ => trivial

namespace Inv

variable {s s' : State} {n : ℕ}

lemma init : Inv State.init where
  fresh _ _ := rfl
  holds _ := trivial
  writer _ h := nomatch h
  rejected _ h := nomatch h
  truthful _ h := nomatch h

/-- A step of the caller that writes none of the three fields. -/
lemma caller (h : Inv s) (hconnection : s'.connection = s.connection)
    (hnum : s'.numConnections = s.numConnections) (hauth : s'.authenticated = s.authenticated)
    (hwriter : s'.writer = s.writer) (houtcomes : s'.outcomes = s.outcomes)
    (hcaller : ∀ n, s'.caller = .readsResponse n →
      ∃ m, (s.connection n).reply = some m ∧ m.Replies false) : Inv s' where
  fresh := by rw [hconnection, hnum]; exact h.fresh
  holds := by rw [hconnection]; exact h.holds
  writer := by rw [hconnection, hwriter, hauth]; exact h.writer
  rejected := by rw [hconnection]; exact hcaller
  truthful := by rw [hconnection, houtcomes]; exact h.truthful

lemma finish (h : Inv s) {outcome : Outcome} (houtcome : outcome.Truthful s.connection) :
    Inv (s.finish outcome) where
  fresh := h.fresh
  holds := h.holds
  writer := h.writer
  rejected _ h := nomatch h
  truthful o ho := by
    rcases List.mem_append.mp ho with ho | ho
    · exact h.truthful o ho
    · rw [List.mem_singleton.mp ho]
      exact houtcome

lemma keeps_update {c : Connection} (hkeep : ∀ m, (s.connection n).reply = some m →
    c.reply = some m) : Keeps s.connection (Function.update s.connection n c) := by
  intro k m hm
  by_cases hk : k = n
  · rw [hk, Function.update_self]
    exact hkeep m (hk ▸ hm)
  · rw [Function.update_of_ne hk]
    exact hm

lemma setConnection (h : Inv s) {c : Connection} (hholds : c.ioThread.Holds c.reply)
    (hkeep : ∀ m, (s.connection n).reply = some m → c.reply = some m)
    (hfresh : s.numConnections ≤ n → c.reply = none) : Inv (s.setConnection n c) where
  fresh k hk := by
    show (Function.update s.connection n c k).reply = none
    by_cases hkn : k = n
    · rw [hkn, Function.update_self]
      exact hfresh (hkn ▸ hk)
    · rw [Function.update_of_ne hkn]
      exact h.fresh k hk
  holds k := by
    show (Function.update s.connection n c k).ioThread.Holds
      (Function.update s.connection n c k).reply
    by_cases hkn : k = n
    · rw [hkn, Function.update_self]
      exact hholds
    · rw [Function.update_of_ne hkn]
      exact h.holds k
  writer k hk := by
    obtain ⟨m, hm, hreplies⟩ := h.writer k hk
    exact ⟨m, keeps_update hkeep k m hm, hreplies⟩
  rejected k hk := by
    obtain ⟨m, hm, hreplies⟩ := h.rejected k hk
    exact ⟨m, keeps_update hkeep k m hm, hreplies⟩
  truthful o ho := (h.truthful o ho).mono (keeps_update hkeep)

lemma goto (h : Inv s) {ioThread : IoThread} (hholds : ioThread.Holds (s.connection n).reply) :
    Inv (s.goto n ioThread) :=
  h.setConnection hholds (fun _ hm => hm) (h.fresh n)

lemma openConnection (h : Inv s) (password : String) : Inv (s.openConnection password) := by
  have hnew : Inv (s.setConnection s.numConnections (.new password)) := by
    refine h.setConnection trivial ?_ fun _ => rfl
    intro m hm
    rw [h.fresh _ le_rfl] at hm
    cases hm
  exact {
    fresh := fun n hn => hnew.fresh n (Nat.le_of_succ_le hn)
    holds := hnew.holds
    writer := hnew.writer
    rejected := fun _ h => nomatch h
    truthful := hnew.truthful }

lemma setLink (h : Inv s) {old new : Link} (hnext : s.setLink n old new = some s') : Inv s' := by
  unfold State.setLink at hnext
  split_ifs at hnext with hn
  cases hnext
  exact h.setConnection (h.holds n) (fun _ hm => hm) (h.fresh n)

lemma callerStep (h : Inv s) (hown : ReadsOwn s .caller) (hnext : callerStep s = some s') :
    Inv s' := by
  unfold Client.callerStep at hnext
  cases hcaller : s.caller with
  | idle | close => rw [hcaller] at hnext; cases hnext
  | canSend password =>
    rw [hcaller] at hnext
    dsimp only at hnext
    split_ifs at hnext with hauth
    · cases hnext
      exact h.caller rfl rfl rfl rfl rfl fun n hn => nomatch hn
    · cases hnext
      exact h.openConnection password
  | awaitsConnection n =>
    rw [hcaller] at hnext
    dsimp only at hnext
    split at hnext
    · cases hnext
    · cases hnext
      refine finish ?_ trivial
      exact h.caller rfl rfl rfl rfl rfl fun n hn => nomatch hn
    all_goals
      cases hnext
      exact h.caller rfl rfl rfl rfl rfl fun n hn => nomatch hn
  | awaitsResponded n =>
    rw [hcaller] at hnext
    dsimp only at hnext
    split_ifs at hnext
    · cases hnext
      exact h.caller rfl rfl rfl rfl rfl fun n hn => nomatch hn
    · cases hnext
      exact h
  | testsAuthenticated n =>
    -- the only step that depends on whose value is read
    obtain ⟨m, hm, hreplies⟩ := h.writer n (hown rfl n hcaller)
    rw [hcaller] at hnext
    dsimp only at hnext
    split_ifs at hnext with hauth
    · cases hnext
      rw [hauth] at hreplies
      exact h.finish ⟨m, hm, hreplies⟩
    · cases hnext
      rw [Bool.not_eq_true] at hauth
      rw [hauth] at hreplies
      refine h.caller rfl rfl rfl rfl rfl fun k hk => ?_
      cases hk
      exact ⟨m, hm, hreplies⟩
  | readsResponse n =>
    have hrejected := h.rejected n hcaller
    rw [hcaller] at hnext
    dsimp only at hnext
    split at hnext
    · cases hnext
      exact h.finish trivial
    · cases hnext
      exact h.finish hrejected

lemma ioStep (h : Inv s) (hnext : ioStep s n = some s') : Inv s' := by
  unfold Client.ioStep at hnext
  have hholds := h.holds n
  cases hio : (s.connection n).ioThread with
  | awaitsResponse =>
    rw [hio] at hnext
    dsimp only at hnext
    cases hreply : (s.connection n).reply with
    | none => rw [hreply] at hnext; cases hnext
    | some message =>
      rw [hreply] at hnext
      dsimp only at hnext
      cases hauth : handleAuthRequest (s.connection n).password message with
      | error e =>
        rw [hauth] at hnext
        cases hnext
        exact h.goto trivial
      | ok response =>
        rw [hauth] at hnext
        cases hnext
        exact h.goto ⟨message, hreply, handleAuthRequest_ok hauth⟩
  | setResponded response =>
    rw [hio] at hnext hholds
    cases hnext
    have h' : Inv { s with authenticatorResponded := true } :=
      h.caller rfl rfl rfl rfl rfl h.rejected
    exact h'.goto hholds
  | setAuthenticated response =>
    rw [hio] at hnext hholds
    cases hnext
    have h' : Inv { s with authenticated := response.isOk, writer := some n } := by
      refine { h with writer := fun k hk => ?_ }
      cases hk
      exact hholds
    exact h'.goto hholds
  | setResponse response =>
    rw [hio] at hnext
    cases hnext
    have h' : Inv { s with authenticationResponse := some response } :=
      h.caller rfl rfl rfl rfl rfl h.rejected
    exact h'.goto trivial
  | ended => rw [hio] at hnext; cases hnext

lemma next {a : Action} (h : Inv s) (hown : ReadsOwn s a) (hnext : next s a = some s') :
    Inv s' := by
  cases a with
  | connect password =>
    unfold Client.next at hnext
    dsimp only at hnext
    split at hnext
    · split_ifs at hnext
      · cases hnext
        exact h.caller rfl rfl rfl rfl rfl fun n hn => nomatch hn
      · cases hnext
        exact h.openConnection password
    · cases hnext
  | closed returns =>
    unfold Client.next at hnext
    dsimp only at hnext
    split at hnext
    · next password _ =>
      split_ifs at hnext
      · cases hnext
        exact h.openConnection password
      · cases hnext
        exact h.finish trivial
    · cases hnext
  | timeout =>
    unfold Client.next at hnext
    dsimp only at hnext
    split at hnext
    · split_ifs at hnext
      cases hnext
      exact h.finish trivial
    · cases hnext
  | caller => exact h.callerStep hown hnext
  | established n | refused n | disconnected n => exact h.setLink hnext
  | reply n response =>
    unfold Client.next at hnext
    dsimp only at hnext
    split_ifs at hnext with hn
    obtain ⟨hlt, _, hnone⟩ := hn
    rw [Option.isNone_iff_eq_none] at hnone
    cases hnext
    refine h.setConnection ?_ ?_ fun hle => absurd hlt (Nat.not_lt.mpr hle)
    · have hholds := h.holds n
      show (s.connection n).ioThread.Holds (some response)
      -- without an answer the thread still waits for one, or holds nothing any more
      cases hio : (s.connection n).ioThread with
      | awaitsResponse | ended => trivial
      | setResponded r | setAuthenticated r | setResponse r =>
        rw [hio] at hholds
        obtain ⟨m, hm, _⟩ := hholds
        rw [hnone] at hm
        cases hm
    · intro m hm
      rw [hnone] at hm
      cases hm
  | io n => exact h.ioStep hnext

end Inv

/-- **A call tells the truth** about its own connection if it reads what was written for it: it
returns only if the server has accepted the password, and it reports a failed authentication only if
the server has rejected it. -/
theorem connect_truthful {as : List Action} {s : State} (hown : Always next ReadsOwn .init as)
    (hrun : run next .init as = some s) :
    ∀ outcome ∈ s.outcomes, outcome.Truthful s.connection := by
  have hstep : ∀ s a s', Inv s → ReadsOwn s a → next s a = some s' → Inv s' :=
    fun _ _ _ h hown hnext => h.next hown hnext
  exact (run_invariant_of_always hstep Inv.init hown hrun).truthful

/-! ## Calls that do not tell the truth -/

def commandReply (replyText : String) : EslMessage :=
  (EslMessage.new.addHeader (some .contentType) "command/reply".toList).addHeader
    (some .replyText) replyText.toList

/-- A call of `connect` on an idle client, up to the loop. -/
def dial (n : ℕ) (password : String) : List Action :=
  [.connect password, .established n, .caller]

/-- The answer to a password, up to and with the write of `authenticated`. -/
def authenticate (n : ℕ) (replyText : String) : List Action :=
  [.reply n (commandReply replyText), .io n, .io n, .io n]

theorem connect_truthful_accepted : ∃ s : State,
    run next .init (dial 0 "ClueCon" ++ authenticate 0 "+OK accepted" ++ [.caller, .caller]) =
      some s ∧ ∀ outcome ∈ s.outcomes, outcome.Truthful s.connection := by
  have hown : Always next ReadsOwn .init
      (dial 0 "ClueCon" ++ authenticate 0 "+OK accepted" ++ [.caller, .caller]) := by
    simp only [dial, authenticate, List.cons_append, List.nil_append]
    repeat
      refine always_cons (fun hcaller n hn => ?_) rfl ?_
      · cases hcaller <;> cases hn <;> rfl
    trivial
  exact ⟨_, rfl, connect_truthful hown rfl⟩

/-- **A call can lie.**  The second call of the first run returns on what the first connection has
left behind, before its own server has answered.  The call of the second run reads `authenticated`
between two writes of its own connection's thread and reports that the server, which has accepted
the password, has rejected it. -/
theorem connect_not_truthful :
    (∃ s : State,
      run next .init (dial 0 "ClueCon" ++ authenticate 0 "+OK accepted" ++
        [.caller, .caller, .disconnected 0] ++ dial 1 "wrong" ++ [.caller, .caller]) = some s ∧
      ¬ ∀ outcome ∈ s.outcomes, outcome.Truthful s.connection) ∧
    ∃ s : State,
      run next .init (dial 0 "ClueCon" ++ [.reply 0 (commandReply "+OK accepted"), .io 0, .io 0,
        .caller, .caller, .io 0, .io 0, .caller]) = some s ∧
      ¬ ∀ outcome ∈ s.outcomes, outcome.Truthful s.connection := by
  refine ⟨⟨_, rfl, fun h => ?_⟩, ⟨_, rfl, fun h => ?_⟩⟩
  · obtain ⟨m, hm, _⟩ := h (.returned 1) (List.mem_cons_of_mem _ List.mem_cons_self)
    cases hm
  · obtain ⟨m, hm, _, replyText, htext, hok⟩ := h (.authenticationFailed 0 _) List.mem_cons_self
    cases hm
    cases htext
    exact absurd hok (by decide)

end Client

end FreeswitchContrib.Esl
