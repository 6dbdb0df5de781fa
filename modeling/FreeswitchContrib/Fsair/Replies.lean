import FreeswitchContrib.Fsair.MessageStream
import FreeswitchContrib.Library.Interleaving

/-!
# The replies to commands

The server answers the commands in the order in which they were sent, an api command with an
api response and any other with a command reply.  The client remembers one callback of each kind.

* **What goes wrong**: a command takes the slot away from a callback that still waits
  (`not_run_called`), also a command without a callback; `bgapi` puts its callback into the slot for
  api responses although it is answered by a command reply; and a callback that gives the next
  command of its own kind has the slot emptied behind it.
* **What remains** is stated by `Careful`: `run_called` says that runs that keep to it call every
  callback with its own reply, as the reply arrives.
-/

namespace FreeswitchContrib.Fsair

open Search Interleaving

variable {ξ κ : Type}

/-! ## Commands and their replies -/

inductive Kind where
  | api
  | command
deriving DecidableEq, Repr

namespace Command

/-- What is written to the socket, without the empty line. -/
def text : Command κ → Text
  | eslSend str _ => str
  | auth pass _ => "Auth ".toList ++ pass
  | eslEvent events type => "event ".toList ++ type ++ ' ' :: events
  | api str _ => "api ".toList ++ str
  | bgapi str _ => "bgapi ".toList ++ str

def callback : Command κ → Option κ
  | eslSend _ callback | auth _ callback | api _ callback | bgapi _ callback => callback
  | eslEvent _ _ => none

/-- How the server answers. -/
def kind (c : Command κ) : Kind :=
  if "api ".toList <+: c.text then .api else .command

/-- Where the client puts the callback. -/
def slot : Command κ → Kind
  | api _ _ | bgapi _ _ => .api
  | _ => .command

end Command

def replyKind (type : Text) : Option Kind :=
  if type = "api/response".toList then some .api
  else if type = "command/reply".toList then some .command
  else none

/-- What a callback is to be called with. -/
def answer (m : WireMessage) : Kind → Option Text
  | .api => some m.body
  | .command => (dictionary m.headers).getHeader "Reply-Text".toList

namespace Esl

def slot (esl : Esl ξ κ) : Kind → Option κ
  | .api => esl.apiCallback
  | .command => esl.commandCallback

def clear (esl : Esl ξ κ) : Kind → Esl ξ κ
  | .api => { esl with apiCallback := none }
  | .command => { esl with commandCallback := none }

/-- The calls that were made because of a reply. -/
def calledBack (esl : Esl ξ κ) : List (κ × Option Text) :=
  esl.called.filterMap fun (func, argument) => match argument with
    | .reply text => some (func, text)
    | .event _ => none

end Esl

/-! ## Runs -/

/-- The socket with the number of commands that were answered, and the calls that their callbacks
have a right to. -/
structure Session (ξ κ : Type) where
  esl : Esl ξ κ
  answered : ℕ
  owed : List (κ × Option Text)

/-- The commands without an answer, the first one first. -/
def Session.inFlight (s : Session ξ κ) : List (Command κ) :=
  s.esl.commands.drop s.answered

inductive Action (κ : Type) where
  | listen (key : Text) (func : κ)
  | give (c : Command κ)
  | deliver (m : WireMessage) (short : m.body.length ≤ 2147483647)

variable (R : Runtime ξ) (react : Callbacks ξ κ)

/-- A reply only comes to the first command without one, and is of its kind. -/
def next (s : Session ξ κ) : Action κ → Option (Session ξ κ)
  | .listen key func => some { s with esl := s.esl.addEventCallback key func }
  | .give c => some { s with esl := s.esl.perform c }
  | .deliver m _ =>
    match (dictionary m.headers).contentType.bind replyKind with
    | none => (s.esl.socketData R react m.wire).map fun esl => { s with esl := esl }
    | some kind =>
      match s.inFlight with
      | [] => none
      | c :: _ =>
        if c.kind = kind then
          (s.esl.socketData R react m.wire).map fun esl =>
            { esl := esl
              answered := s.answered + 1
              owed := s.owed ++ (c.callback.map (·, answer m kind)).toList }
        else
          none

def Session.start (password : Text) : Session ξ κ :=
  ⟨.new password, 0, []⟩

/-! ## What is safe -/

/-- The callbacks that wait for a reply of the kind, with the commands that have none. -/
def pending (kind : Kind) (inFlight : List (Command κ)) : List (Option κ) :=
  (inFlight.filter fun c => c.kind = kind).map Command.callback

/-- No callback waits for a reply of the kind. -/
def Idle (kind : Kind) (inFlight : List (Command κ)) : Prop :=
  ∀ callback ∈ pending kind inFlight, callback = none

/-- No command is sent while a callback waits in a slot that the command takes, and none with a
callback while any reply of its kind is to come; `bgapi` has no callback, and an api command that
has one is given by `api`. -/
structure CarefulCommand (inFlight : List (Command κ)) (c : Command κ) : Prop where
  command : Idle .command inFlight
  api : c.slot = .api → Idle .api inFlight
  answered : c.callback ≠ none → c.slot = c.kind ∧ pending c.kind inFlight = []

def CarefulCommands (inFlight : List (Command κ)) : List (Command κ) → Prop
  | [] => True
  | c :: cs => CarefulCommand inFlight c ∧ CarefulCommands (inFlight ++ [c]) cs

/-- The commands of event callbacks, which are called one after the other until one throws. -/
def CarefulCalls (argument : Argument ξ) : List (Command κ) → List (κ × Argument ξ) → List κ → Prop
  | _, _, [] => True
  | inFlight, called, func :: funcs =>
    let reaction := react called func argument
    CarefulCommands inFlight reaction.commands ∧
      (reaction.throws = false →
        CarefulCalls argument (inFlight ++ reaction.commands) (called ++ [(func, argument)]) funcs)

/-- The commands of the callback of a reply: it gives no callback of the kind of the reply, and does
not throw. -/
structure CarefulReaction (kind : Kind) (inFlight : List (Command κ)) (reaction : Reaction κ) :
    Prop where
  commands : CarefulCommands inFlight reaction.commands
  other : ∀ c ∈ reaction.commands, c.callback ≠ none → c.kind ≠ kind
  returns : reaction.throws = false

/-- The condition on the message that is delivered, by its content type. -/
def CarefulMessage (s : Session ξ κ) (m : WireMessage) (type : Text) : Prop :=
  match replyKind type with
  | some kind =>
    ∀ func ∈ s.inFlight.head?.bind Command.callback,
      CarefulReaction kind s.inFlight.tail (react s.esl.called func (.reply (answer m kind)))
  | none =>
    if type = "auth/request".toList then
      CarefulCommand s.inFlight (.auth s.esl.eslPassword none)
    else if (indexOf "text/event-".toList type).isSome then
      ∀ ev ∈ EslEvent.new R (type == "text/event-xml".toList) m.body,
        CarefulCalls react (.event ev) s.inFlight s.esl.called
          ((s.esl.eventCallback.entries.filter fun entry => ev.wanted R entry.1).map (·.2))
    else
      True

def Careful (s : Session ξ κ) : Action κ → Prop
  | .listen _ _ => True
  | .give c => CarefulCommand s.inFlight c
  | .deliver m _ => ∀ type ∈ (dictionary m.headers).contentType, CarefulMessage R react s m type

/-! ## One slot -/

variable {R : Runtime ξ} {react : Callbacks ξ κ} {esl esl' : Esl ξ κ} {s s' : Session ξ κ}
  {c : Command κ} {cs inFlight : List (Command κ)} {kind : Kind} {callback : Option κ} {func : κ}
  {argument : Argument ξ} {m : WireMessage}

/-- The slot has the callback of the first command of the kind, and no other command of the kind
has one. -/
structure Served (kind : Kind) (slot : Option κ) (inFlight : List (Command κ)) : Prop where
  slot : slot = (pending kind inFlight).head?.join
  others : ∀ callback ∈ (pending kind inFlight).tail, callback = none

lemma pending_append (kind : Kind) (inFlight : List (Command κ)) (c : Command κ) :
    pending kind (inFlight ++ [c])
      = pending kind inFlight ++ if c.kind = kind then [c.callback] else [] := by
  rw [pending, List.filter_append, List.map_append, ← pending]
  by_cases hkind : c.kind = kind <;> simp [hkind]

lemma pending_cons_self (c : Command κ) (inFlight : List (Command κ)) :
    pending c.kind (c :: inFlight) = c.callback :: pending c.kind inFlight := by
  simp [pending]

lemma pending_cons_ne (h : c.kind ≠ kind) : pending kind (c :: inFlight) = pending kind inFlight := by
  simp [pending, h]

lemma served_of_idle (h : Idle kind inFlight) : Served kind none inFlight := by
  refine ⟨?_, fun callback hmem => h callback (List.mem_of_mem_tail hmem)⟩
  cases hhead : (pending kind inFlight).head? with
  | none => rfl
  | some callback =>
    rw [h callback (List.mem_of_mem_head? hhead)]
    rfl

/-- A command without a callback is no callback's command. -/
lemma idle_append (h : Idle kind inFlight) (hc : c.callback ≠ none → c.kind ≠ kind) :
    Idle kind (inFlight ++ [c]) := by
  intro callback hmem
  rw [pending_append, List.mem_append] at hmem
  rcases hmem with hmem | hmem
  · exact h callback hmem
  · split_ifs at hmem with hkind
    · rw [List.mem_singleton] at hmem
      by_contra hne
      exact hc (hmem ▸ hne) hkind
    · exact absurd hmem List.not_mem_nil

/-- The first command of the kind has its callback served. -/
lemma served_append_of_clear (h : pending kind inFlight = []) (hkind : c.kind = kind) :
    Served kind c.callback (inFlight ++ [c]) := by
  have hpending : pending kind (inFlight ++ [c]) = [c.callback] := by
    rw [pending_append, h, if_pos hkind, List.nil_append]
  refine ⟨?_, ?_⟩
  · rw [hpending]
    rfl
  · rw [hpending]
    exact fun callback hmem => absurd hmem List.not_mem_nil

/-- A command that leaves the slot alone changes nothing about it. -/
lemma served_append_of_none (h : Served kind callback inFlight)
    (hc : c.callback ≠ none → c.kind ≠ kind) : Served kind callback (inFlight ++ [c]) := by
  by_cases hkind : c.kind = kind
  · have hnone : c.callback = none := by
      by_contra hne
      exact hc hne hkind
    have hpending : pending kind (inFlight ++ [c]) = pending kind inFlight ++ [none] := by
      rw [pending_append, if_pos hkind, hnone]
    obtain ⟨hslot, hothers⟩ := h
    cases hlist : pending kind inFlight with
    | nil =>
      rw [hlist] at hslot
      refine ⟨?_, ?_⟩
      · rw [hpending, hlist, hslot]
        rfl
      · rw [hpending, hlist]
        exact fun callback hmem => absurd hmem List.not_mem_nil
    | cons first others =>
      rw [hlist] at hslot hothers
      refine ⟨?_, ?_⟩
      · rw [hpending, hlist, hslot]
        rfl
      · rw [hpending, hlist, List.cons_append, List.tail_cons]
        intro callback hmem
        rcases List.mem_append.1 hmem with hmem | hmem
        · exact hothers callback hmem
        · exact List.mem_singleton.1 hmem
  · have hpending : pending kind (inFlight ++ [c]) = pending kind inFlight := by
      rw [pending_append, if_neg hkind, List.append_nil]
    exact ⟨hpending ▸ h.slot, hpending ▸ h.others⟩

/-! ## Commands -/

namespace Esl

@[simp] lemma commands_perform (esl : Esl ξ κ) (c : Command κ) :
    (esl.perform c).commands = esl.commands ++ [c] := by
  cases c <;> rfl

@[simp] lemma called_perform (esl : Esl ξ κ) (c : Command κ) :
    (esl.perform c).called = esl.called := by
  cases c <;> rfl

lemma slot_perform (esl : Esl ξ κ) (c : Command κ) (kind : Kind) :
    (esl.perform c).slot kind = if c.slot = kind then c.callback
      else if kind = .command then none else esl.slot kind := by
  cases c <;> cases kind <;> rfl

end Esl

/-- **A careful command** keeps the slots right. -/
lemma served_perform (hc : CarefulCommand inFlight c)
    (h : Served kind (esl.slot kind) inFlight) :
    Served kind ((esl.perform c).slot kind) (inFlight ++ [c]) := by
  rw [Esl.slot_perform]
  by_cases hslot : c.slot = kind
  · rw [if_pos hslot]
    have hidle : Idle kind inFlight := by
      cases kind with
      | api => exact hc.api hslot
      | command => exact hc.command
    by_cases hnone : c.callback = none
    · rw [hnone]
      exact served_of_idle (idle_append hidle fun hne => absurd hnone hne)
    · obtain ⟨hkind, hclear⟩ := hc.answered hnone
      rw [hslot] at hkind
      rw [← hkind] at hclear
      exact served_append_of_clear hclear hkind.symm
  · rw [if_neg hslot]
    have hother : c.callback ≠ none → c.kind ≠ kind :=
      fun hne hkind => hslot ((hc.answered hne).1.trans hkind)
    split_ifs with hcommand
    · subst hcommand
      exact served_of_idle (idle_append hc.command hother)
    · exact served_append_of_none h hother

lemma commands_foldl (cs : List (Command κ)) :
    ∀ esl : Esl ξ κ, (cs.foldl Esl.perform esl).commands = esl.commands ++ cs ∧
      (cs.foldl Esl.perform esl).called = esl.called := by
  induction cs with
  | nil => exact fun esl => ⟨(List.append_nil _).symm, rfl⟩
  | cons c cs ih =>
    intro esl
    obtain ⟨hcommands, hcalled⟩ := ih (esl.perform c)
    rw [List.foldl_cons]
    refine ⟨?_, hcalled.trans (Esl.called_perform esl c)⟩
    rw [hcommands, Esl.commands_perform, List.append_assoc, List.singleton_append]

lemma served_foldl (hcs : CarefulCommands inFlight cs) (h : Served kind (esl.slot kind) inFlight) :
    Served kind ((cs.foldl Esl.perform esl).slot kind) (inFlight ++ cs) := by
  induction cs generalizing inFlight esl with
  | nil => rwa [List.append_nil]
  | cons c cs ih =>
    have hrest := ih hcs.2 (served_perform hcs.1 h)
    rwa [List.append_assoc, List.singleton_append] at hrest

lemma idle_append_all (h : Idle kind inFlight)
    (hcs : ∀ c ∈ cs, c.callback ≠ none → c.kind ≠ kind) : Idle kind (inFlight ++ cs) := by
  induction cs generalizing inFlight with
  | nil => rwa [List.append_nil]
  | cons c cs ih =>
    have hrest := ih (idle_append h (hcs c List.mem_cons_self))
      fun c' hmem => hcs c' (List.mem_cons_of_mem c hmem)
    rwa [List.append_assoc, List.singleton_append] at hrest

/-! ## Messages -/

/-- What handling a message did, besides the call of a reply's callback: commands were sent, and the
slots are right for those in flight. -/
structure Grown (esl esl' : Esl ξ κ) (inFlight cs : List (Command κ)) : Prop where
  commands : esl'.commands = esl.commands ++ cs
  served : ∀ kind, Served kind (esl'.slot kind) (inFlight ++ cs)
  called : esl'.calledBack = esl.calledBack
  kept : esl'.lastData = esl.lastData

lemma Grown.refl (h : ∀ kind, Served kind (esl.slot kind) inFlight) : Grown esl esl inFlight [] :=
  ⟨(List.append_nil _).symm, by simpa using h, rfl, rfl⟩

lemma Grown.trans {esl₁ : Esl ξ κ} {cs' : List (Command κ)} (h : Grown esl esl₁ inFlight cs)
    (h' : Grown esl₁ esl' (inFlight ++ cs) cs') : Grown esl esl' inFlight (cs ++ cs') := by
  refine ⟨?_, fun kind => ?_, h'.called.trans h.called, h'.kept.trans h.kept⟩
  · rw [h'.commands, h.commands, List.append_assoc]
  · rw [← List.append_assoc]
    exact h'.served kind

lemma Grown.of_record {message : EslHeader × Text}
    (h : Grown (esl.record message) esl' inFlight cs) : Grown esl esl' inFlight cs :=
  ⟨h.commands, h.served, h.called, h.kept⟩

lemma calledBack_of_event {ev : EslEvent ξ}
    (h : esl'.called = esl.called ++ [(func, .event ev)]) : esl'.calledBack = esl.calledBack := by
  rw [Esl.calledBack, Esl.calledBack, h, List.filterMap_append]
  exact List.append_nil _

lemma leftBy_call : Esl.leftBy (esl.call react func argument)
    = (react esl.called func argument).commands.foldl Esl.perform
        { esl with called := esl.called ++ [(func, argument)] } := by
  rw [Esl.call]
  split_ifs <;> rfl

/-- The call of an event's callback. -/
lemma grown_call {ev : EslEvent ξ}
    (hcareful : CarefulCommands inFlight (react esl.called func (.event ev)).commands)
    (h : ∀ kind, Served kind (esl.slot kind) inFlight) :
    Grown esl (Esl.leftBy (esl.call react func (.event ev))) inFlight
      (react esl.called func (.event ev)).commands := by
  rw [leftBy_call]
  generalize (react esl.called func (.event ev)).commands = cs at hcareful
  obtain ⟨hcommands, hcalled⟩ :=
    commands_foldl cs { esl with called := esl.called ++ [(func, .event ev)] }
  exact ⟨hcommands, fun kind => served_foldl hcareful (h kind), calledBack_of_event hcalled,
    (Esl.perform_frame cs _).1⟩

lemma called_call (hok : esl.call react func argument = .ok esl') :
    esl'.called = esl.called ++ [(func, argument)] := by
  have hleft := congrArg Esl.leftBy hok
  rw [leftBy_call] at hleft
  rw [Esl.leftBy] at hleft
  rw [← hleft]
  exact (commands_foldl _ _).2

/-- The calls of an event's callbacks, by induction on those that are left. -/
lemma grown_calls {ev : EslEvent ξ} (entries : List (Σ _ : Text, κ)) :
    ∀ {esl : Esl ξ κ} {inFlight : List (Command κ)},
      CarefulCalls react (.event ev) inFlight esl.called (entries.map (·.2)) →
      (∀ kind, Served kind (esl.slot kind) inFlight) →
      ∃ cs, Grown esl
        (Esl.leftBy (entries.foldlM (fun esl entry => esl.call react entry.2 (.event ev)) esl))
        inFlight cs := by
  induction entries with
  | nil => exact fun _ h => ⟨[], Grown.refl h⟩
  | cons entry entries ih =>
    intro esl inFlight hcareful h
    have hone := grown_call hcareful.1 h
    rw [List.foldlM_cons]
    cases hcall : esl.call react entry.2 (.event ev) with
    | error esl₁ =>
      rw [hcall] at hone
      exact ⟨_, hone⟩
    | ok esl₁ =>
      rw [hcall] at hone
      have hthrows : (react esl.called entry.2 (.event ev)).throws = false := by
        rw [Esl.call] at hcall
        by_contra hthrows
        rw [Bool.not_eq_false] at hthrows
        simp [hthrows] at hcall
      have hnext := hcareful.2 hthrows
      rw [← called_call hcall] at hnext
      obtain ⟨cs, hrest⟩ := ih hnext hone.served
      exact ⟨_, hone.trans hrest⟩

/-- **A message that is no reply** leaves the slots right. -/
lemma grown_dispatch {type : Text} (hparsed : (dictionary m.headers).contentType = some type)
    (hreply : replyKind type = none) (hcareful : CarefulMessage R react s m type)
    (h : ∀ kind, Served kind (s.esl.slot kind) s.inFlight) :
    ∃ cs, Grown s.esl (Esl.leftBy (s.esl.dispatch R react m.parsed)) s.inFlight cs := by
  have hapi : type ≠ "api/response".toList := by
    rintro rfl
    cases hreply
  have hcommand : type ≠ "command/reply".toList := by
    rintro rfl
    cases hreply
  have htype : m.parsed.1.contentType = some type := hparsed
  rw [CarefulMessage, hreply] at hcareful
  dsimp only at hcareful
  have hrecord : ∀ kind, Served kind ((s.esl.record m.parsed).slot kind) s.inFlight := h
  rw [Esl.dispatch]
  simp only [htype, if_neg hapi, if_neg hcommand]
  split_ifs at hcareful ⊢ with hauth hevent
  · have hcommands := Esl.commands_perform (s.esl.record m.parsed) (.auth s.esl.eslPassword none)
    exact ⟨[.auth s.esl.eslPassword none], hcommands,
      fun kind => served_perform hcareful (hrecord kind), rfl, rfl⟩
  · cases hnew : EslEvent.new R (type == "text/event-xml".toList) m.body with
    | none =>
      have hbody : EslEvent.new R (type == "text/event-xml".toList) m.parsed.2 = none := hnew
      simp only [hbody]
      exact ⟨[], Grown.of_record (Grown.refl hrecord)⟩
    | some ev =>
      have hbody : EslEvent.new R (type == "text/event-xml".toList) m.parsed.2 = some ev := hnew
      simp only [hbody]
      have hcalls : CarefulCalls react (.event ev) s.inFlight (s.esl.record m.parsed).called _ :=
        hcareful ev hnew
      obtain ⟨cs, hgrown⟩ := grown_calls _ hcalls hrecord
      exact ⟨cs, Grown.of_record hgrown⟩
  · exact ⟨[], Grown.of_record (Grown.refl hrecord)⟩

/-- What the callback of a reply was called with is recorded, and its slot is empty. -/
structure Answered (esl esl' : Esl ξ κ) (inFlight cs : List (Command κ)) (c : Command κ)
    (text : Option Text) : Prop where
  commands : esl'.commands = esl.commands ++ cs
  served : ∀ kind, Served kind (esl'.slot kind) (inFlight ++ cs)
  called : esl'.calledBack = esl.calledBack ++ (c.callback.map (·, text)).toList
  kept : esl'.lastData = esl.lastData

/-- The slot after the first command of its kind is gone. -/
lemma served_tail (h : ∀ kind, Served kind (esl.slot kind) (c :: inFlight)) :
    esl.slot c.kind = c.callback ∧ Idle c.kind inFlight ∧
      ∀ kind, kind ≠ c.kind → Served kind (esl.slot kind) inFlight := by
  have hown := h c.kind
  refine ⟨?_, ?_, fun kind hne => ?_⟩
  · rw [hown.slot, pending_cons_self]
    rfl
  · have hothers := hown.others
    rwa [pending_cons_self, List.tail_cons] at hothers
  · have hkind := h kind
    have hpending : pending kind (c :: inFlight) = pending kind inFlight :=
      pending_cons_ne hne.symm
    exact ⟨hpending ▸ hkind.slot, hpending ▸ hkind.others⟩

/-- A reply to a command without a callback. -/
lemma answered_of_none {message : EslHeader × Text} {text : Option Text}
    (h : ∀ kind, Served kind (esl.slot kind) (c :: inFlight)) (hnone : c.callback = none) :
    Answered esl (esl.record message) inFlight [] c text := by
  obtain ⟨hslot, hidle, hother⟩ := served_tail h
  refine ⟨(List.append_nil _).symm, fun kind => ?_, ?_, rfl⟩
  · rw [List.append_nil]
    by_cases hkind : kind = c.kind
    · subst hkind
      have hempty : (esl.record message).slot c.kind = none := hslot.trans hnone
      rw [hempty]
      exact served_of_idle hidle
    · exact hother kind hkind
  · rw [hnone]
    exact (List.append_nil _).symm

lemma slot_clear (esl : Esl ξ κ) (kind kind' : Kind) :
    (esl.clear kind).slot kind' = if kind' = kind then none else esl.slot kind' := by
  cases kind <;> cases kind' <;> rfl

/-- A reply to a command with a callback, which is called; then its slot is emptied. -/
lemma answered_of_some {message : EslHeader × Text} {text : Option Text}
    (h : ∀ kind, Served kind (esl.slot kind) (c :: inFlight)) (hfunc : c.callback = some func)
    (hcareful : CarefulReaction c.kind inFlight (react esl.called func (.reply text)))
    (hcall : (esl.record message).call react func (.reply text) = .ok esl') :
    Answered esl (esl'.clear c.kind) inFlight (react esl.called func (.reply text)).commands c
      text := by
  obtain ⟨hslot, hidle, hother⟩ := served_tail h
  have hleft : Esl.leftBy ((esl.record message).call react func (.reply text)) = _ := leftBy_call
  rw [hcall] at hleft
  obtain ⟨hcommands, hcalled⟩ := commands_foldl (react esl.called func (.reply text)).commands
    { esl.record message with called := esl.called ++ [(func, .reply text)] }
  have hkept := (Esl.perform_frame (react esl.called func (.reply text)).commands
    { esl.record message with called := esl.called ++ [(func, .reply text)] }).1
  have hesl : esl' = (react esl.called func (.reply text)).commands.foldl Esl.perform
      { esl.record message with called := esl.called ++ [(func, .reply text)] } := hleft
  rw [← hesl] at hcommands hcalled hkept
  refine ⟨?_, fun kind => ?_, ?_, ?_⟩
  · cases hkind : c.kind <;> exact hcommands
  · rw [slot_clear]
    split_ifs with hkind
    · subst hkind
      exact served_of_idle (idle_append_all hidle hcareful.other)
    · rw [hesl]
      exact served_foldl hcareful.commands (hother kind hkind)
  · have hclear : (esl'.clear c.kind).called = esl.called ++ [(func, .reply text)] := by
      cases hkind : c.kind <;> exact hcalled
    rw [Esl.calledBack, Esl.calledBack, hclear, List.filterMap_append, hfunc]
    rfl
  · cases hkind : c.kind <;> exact hkept

lemma call_of_returns (h : (react esl.called func argument).throws = false) :
    ∃ esl₁, esl.call react func argument = .ok esl₁ := by
  rw [Esl.call]
  simp [h]

/-- A reply is handed to the callback in the slot of its kind. -/
lemma dispatch_reply {type : Text} (hparsed : (dictionary m.headers).contentType = some type)
    (hreply : replyKind type = some kind) :
    esl.dispatch R react m.parsed = match esl.slot kind with
      | some func =>
        ((esl.record m.parsed).call react func (.reply (answer m kind))).map (Esl.clear · kind)
      | none => .ok (esl.record m.parsed) := by
  have htype : m.parsed.1.contentType = some type := hparsed
  rw [replyKind] at hreply
  rw [Esl.dispatch]
  split_ifs at hreply with hapi hcommand
  · obtain rfl := Option.some.inj hreply
    subst hapi
    have hauth : "api/response".toList ≠ "auth/request".toList := by decide
    simp only [htype, if_neg hauth, if_pos]
    rfl
  · obtain rfl := Option.some.inj hreply
    subst hcommand
    have hauth : "command/reply".toList ≠ "auth/request".toList := by decide
    simp only [htype, if_neg hauth, if_neg hapi, if_pos]
    rfl

/-- **A reply** goes to the callback of the first command without one. -/
lemma answered_dispatch {type : Text} (hparsed : (dictionary m.headers).contentType = some type)
    (hreply : replyKind type = some c.kind) (hflight : s.inFlight = c :: inFlight)
    (hcareful : CarefulMessage R react s m type)
    (h : ∀ kind, Served kind (s.esl.slot kind) s.inFlight) :
    ∃ cs, Answered s.esl (Esl.leftBy (s.esl.dispatch R react m.parsed)) inFlight cs c
      (answer m c.kind) := by
  rw [CarefulMessage, hreply] at hcareful
  simp only [hflight] at hcareful h
  rw [dispatch_reply hparsed hreply, (served_tail h).1]
  cases hfunc : c.callback with
  | none => exact ⟨[], answered_of_none h hfunc⟩
  | some func =>
    have hreaction := hcareful func hfunc
    obtain ⟨esl₁, hcall⟩ : ∃ esl₁, (s.esl.record m.parsed).call react func
        (.reply (answer m c.kind)) = .ok esl₁ := call_of_returns hreaction.returns
    simp only [hcall]
    exact ⟨_, answered_of_some h hfunc hreaction hcall⟩

/-! ## Runs -/

/-- The slots are right for the commands in flight, and every call that was owed was made. -/
structure Paired (s : Session ξ κ) : Prop where
  answered : s.answered ≤ s.esl.commands.length
  served : ∀ kind, Served kind (s.esl.slot kind) s.inFlight
  called : s.esl.calledBack = s.owed
  kept : s.esl.lastData = none

lemma paired_start (password : Text) : Paired (Session.start password : Session ξ κ) :=
  ⟨Nat.le_refl 0, fun kind => by cases kind <;> exact ⟨rfl, fun _ h => absurd h List.not_mem_nil⟩,
    rfl, rfl⟩

lemma drop_append (h : s.answered ≤ s.esl.commands.length) :
    (s.esl.commands ++ cs).drop s.answered = s.inFlight ++ cs :=
  List.drop_append_of_le_length h

/-- The first command in flight is the next one of those sent. -/
lemma inFlight_cons (h : s.inFlight = c :: inFlight) :
    s.answered + 1 ≤ s.esl.commands.length ∧
      s.esl.commands.drop (s.answered + 1) = inFlight := by
  rw [Session.inFlight] at h
  have hlength := congrArg List.length h
  rw [List.length_drop, List.length_cons] at hlength
  refine ⟨by omega, ?_⟩
  rw [← List.drop_drop, h]
  rfl

/-- **Step.**  A careful step keeps the callbacks paired with their replies. -/
theorem paired_next (s : Session ξ κ) (a : Action κ) (s' : Session ξ κ) (h : Paired s)
    (hcareful : Careful R react s a) (hnext : next R react s a = some s') : Paired s' := by
  cases a with
  | listen key func =>
    obtain rfl := Option.some.inj hnext
    exact ⟨h.answered, fun kind => by cases kind <;> exact h.served _, h.called, h.kept⟩
  | give c =>
    obtain rfl := Option.some.inj hnext
    have hcommands := Esl.commands_perform s.esl c
    refine ⟨?_, fun kind => ?_, ?_, (Esl.lastData_perform c).trans h.kept⟩
    · rw [hcommands, List.length_append]
      exact h.answered.trans (Nat.le_add_right _ _)
    · rw [Session.inFlight, hcommands, drop_append h.answered]
      exact served_perform hcareful (h.served kind)
    · rw [Esl.calledBack, Esl.called_perform]
      exact h.called
  | deliver m hshort =>
    have hreceived : s.esl.socketData R react m.wire = _ := Esl.socketData_wire hshort h.kept
    obtain ⟨type, htype⟩ := m.exists_contentType
    have hmessage := hcareful type htype
    rw [next, htype, Option.bind_some] at hnext
    cases hreply : replyKind type with
    | none =>
      simp only [hreply, hreceived, Option.map_some, Option.some.injEq] at hnext
      subst hnext
      obtain ⟨cs, hgrown⟩ := grown_dispatch htype hreply hmessage h.served
      refine ⟨?_, fun kind => ?_, hgrown.called.trans h.called, hgrown.kept.trans h.kept⟩
      · rw [hgrown.commands, List.length_append]
        exact h.answered.trans (Nat.le_add_right _ _)
      · rw [Session.inFlight, hgrown.commands, drop_append h.answered]
        exact hgrown.served kind
    | some kind =>
      cases hflight : s.inFlight with
      | nil =>
        simp only [hreply, hflight] at hnext
        cases hnext
      | cons c inFlight =>
        simp only [hreply, hflight] at hnext
        split_ifs at hnext with hkind
        subst hkind
        simp only [hreceived, Option.map_some, Option.some.injEq] at hnext
        subst hnext
        obtain ⟨cs, hanswered⟩ := answered_dispatch htype hreply hflight hmessage h.served
        obtain ⟨hlt, hrest⟩ := inFlight_cons hflight
        refine ⟨?_, fun kind => ?_, ?_, hanswered.kept.trans h.kept⟩
        · rw [hanswered.commands, List.length_append]
          exact hlt.trans (Nat.le_add_right _ _)
        · rw [Session.inFlight, hanswered.commands, List.drop_append_of_le_length hlt, hrest]
          exact hanswered.served kind
        · rw [hanswered.called, h.called]

/-- **Runs.**  In every run of careful steps, the calls of reply callbacks are those that are owed:
each callback is called once, with the reply to its command, as the reply arrives. -/
theorem run_called {password : Text} {actions : List (Action κ)}
    (hcareful : Always (next R react) (Careful R react) (Session.start password) actions)
    (hrun : run (next R react) (Session.start password) actions = some s) :
    s.esl.calledBack = s.owed :=
  (run_invariant_of_always paired_next (paired_start password) hcareful hrun).called

/-! ## Two api commands -/

def apiResponse : WireMessage where
  headers := [("Content-Type".toList, "api/response".toList), ("Content-Length".toList, ['1'])]
  body := ['1']
  names := by decide
  values := by decide
  typed := by decide
  framed := by
    change Numeral.decimal ['1'] = some 1
    decide

def quiet : Callbacks Text ℕ :=
  fun _ _ _ => ⟨[], false⟩

/-- A command of which the callback gets the response. -/
theorem run_called_response :
    let actions : List (Action ℕ) := [.give (.api ['a'] (some 0)), .deliver apiResponse (by decide)]
    Always (next plainRuntime quiet) (Careful plainRuntime quiet) (Session.start []) actions ∧
      ∃ s, run (next plainRuntime quiet) (Session.start []) actions = some s ∧
        s.esl.calledBack = s.owed := by
  intro actions
  have hclear : ∀ kind, pending kind ([] : List (Command ℕ)) = [] := by
    intro kind
    cases kind <;> rfl
  have hgive : Careful plainRuntime quiet (Session.start []) (.give (.api ['a'] (some 0))) :=
    ⟨fun _ h => absurd h List.not_mem_nil, fun _ _ h => absurd h List.not_mem_nil,
      fun _ => ⟨rfl, hclear _⟩⟩
  have hdeliver : ∀ s, Careful plainRuntime quiet s (.deliver apiResponse (by decide)) := by
    intro s type htype
    obtain rfl : "api/response".toList = type := Option.some.inj htype
    exact fun func _ => ⟨trivial, fun _ h => absurd h List.not_mem_nil, rfl⟩
  have halways : Always (next plainRuntime quiet) (Careful plainRuntime quiet)
      (Session.start []) actions :=
    ⟨hgive, fun s₁ _ => ⟨hdeliver s₁, fun _ _ => trivial⟩⟩
  have hrun : ∃ s, run (next plainRuntime quiet) (Session.start []) actions = some s := ⟨_, rfl⟩
  obtain ⟨s, hrun⟩ := hrun
  exact ⟨halways, s, hrun, run_called halways hrun⟩

/-- Two api commands at a time: the callback of the second one is called with the response to the
first one. -/
theorem not_run_called :
    ¬ ∀ (actions : List (Action ℕ)) (s : Session Text ℕ),
      run (next plainRuntime quiet) (Session.start []) actions = some s →
      s.esl.calledBack = s.owed := by
  intro hall
  obtain ⟨s, hrun⟩ : ∃ s, run (next plainRuntime quiet) (Session.start [])
      [.give (.api ['a'] (some 0)), .give (.api ['b'] (some 1)),
        .deliver apiResponse (by decide)] = some s := ⟨_, rfl⟩
  have hmisdirected : (run (next plainRuntime quiet) (Session.start [])
      [.give (.api ['a'] (some 0)), .give (.api ['b'] (some 1)),
        .deliver apiResponse (by decide)]).map (fun s => (s.esl.calledBack, s.owed))
      = some ([(1, some ['1'])], [(0, some ['1'])]) := by
    decide
  rw [hrun, Option.map_some, hall _ s hrun] at hmisdirected
  obtain ⟨h₁, h₂⟩ := Prod.mk.inj (Option.some.inj hmisdirected)
  rw [h₁] at h₂
  exact absurd h₂ (by decide)

end FreeswitchContrib.Fsair
