import FreeswitchContrib.Esl.SyncCommands

/-!
# Replies go to their callers

The callbacks in the queue are, in this order, those of the replies that were not polled for, of the
commands that the server has not answered, and of the command whose writer has the lock: the field
`queue` of the invariant.  So the callback that is polled for a reply is that of the call that the
reply answers.
-/

namespace FreeswitchContrib.Esl.SyncCommands

open Interleaving

variable {τ : Type}

/-- Messages are handled in the order of receipt, one after the other. -/
def InOrder (_ : State τ) : Action τ → Prop
  | .handle i => i = 0
  | _ => True

/-- The call of a reply that was not polled for. -/
def Task.waits (task : Task) : Option SyncCallback :=
  match task.phase with
  | .received => task.reply.map Prod.snd
  | _ => none

def Phase.writing : Phase → List SyncCallback
  | .write callback _ => [callback]
  | _ => []

/-- The callback that was added for a command that is not written yet. -/
def writing (syncLock : Option τ) (phase : τ → Phase) : List SyncCallback :=
  match syncLock with
  | some t => (phase t).writing
  | none => []

def Phase.Locked : Phase → Prop
  | .add _ _ | .write _ _ | .unlock _ => True
  | _ => False

/-- A message is a reply if it is handled as one, and it answers the call that it says. -/
structure Task.Ok (answered : List (SyncCallback × EslMessage)) (task : Task) : Prop where
  poll : messageReceived task.message = .poll ↔ task.reply.isSome
  reply : ∀ number callback, task.reply = some (number, callback) →
    answered[number]? = some (callback, task.message)

/-- What is known of the message that is being handled. -/
def Task.Handled (s : State τ) (task : Task) : Prop :=
  match task.phase with
  | .received => True
  | .polled callback => ∃ number, task.reply = some (number, callback)
  | .responded callback => (∃ number, task.reply = some (number, callback)) ∧
      s.response callback = some task.message

structure Inv (s : State τ) : Prop where
  lock : ∀ t, (s.phase t).Locked → s.syncLock = some t
  queue : s.syncCallbacks =
    s.tasks.filterMap Task.waits ++ s.channel.map Prod.fst ++ writing s.syncLock s.phase
  tasks : ∀ task ∈ s.tasks, task.Ok s.answered
  head : ∀ task ∈ s.tasks.head?, task.Handled s
  tail : ∀ task ∈ s.tasks.tail, task.phase = .received
  released : ∀ callback, s.released callback = true →
    ∃ message, s.response callback = some message ∧ (callback, message) ∈ s.answered
  handed : ∀ h ∈ s.handed, ∃ message, s.answered[h.1]? = some (h.2, message)
  returned : ∀ r ∈ s.returned, ∃ message, r.2 = some message ∧ (r.1, message) ∈ s.answered
  nullPolled : s.nullPolled = false

variable {s s' : State τ} {t : τ} {m : EslMessage}

lemma Inv.init : Inv (State.init τ) where
  lock _ ht := ht.elim
  queue := rfl
  tasks _ ht := by cases ht
  head _ ht := by cases ht
  tail _ ht := by cases ht
  released _ hc := by cases hc
  handed _ hh := by cases hh
  returned _ hr := by cases hr
  nullPolled := rfl

lemma messageReceived_eq_poll_iff : messageReceived m = .poll ↔ m.IsReply := by
  rw [messageReceived, EslMessage.IsReply]
  cases hcontent : m.getContentType with
  | none => simp
  | some contentType =>
    simp only [Option.some.injEq]
    constructor
    · intro h
      split_ifs at h with _ hapi hreply
      · exact Or.inl hapi
      · exact Or.inr hreply
    · rintro (rfl | rfl) <;> decide

lemma Task.Ok.append {task : Task} {answered answered' : List (SyncCallback × EslMessage)}
    (h : task.Ok answered) : task.Ok (answered ++ answered') where
  poll := h.poll
  reply number callback hreply := by
    have hnumber := h.reply number callback hreply
    rw [List.getElem?_append_left (List.getElem?_eq_some_iff.mp hnumber).1, hnumber]

/-! ## The server -/

/-- A message arrives behind the others. -/
lemma head_append {tasks : List Task} {task : Task} (hphase : task.phase = .received)
    (hhead : ∀ task ∈ tasks.head?, task.Handled s) :
    ∀ task' ∈ (tasks ++ [task]).head?, task'.Handled s := by
  cases tasks with
  | nil =>
    rintro task' ht
    obtain rfl : task = task' := by simpa using ht
    rw [Task.Handled, hphase]
    trivial
  | cons first tasks => simpa using hhead

lemma tail_append {tasks : List Task} {task : Task} (hphase : task.phase = .received)
    (htail : ∀ task ∈ tasks.tail, task.phase = .received) :
    ∀ task' ∈ (tasks ++ [task]).tail, task'.phase = .received := by
  cases tasks with
  | nil => simp
  | cons first tasks =>
    intro task' ht
    rcases List.mem_append.mp ht with ht | ht
    · exact htail task' ht
    · rwa [List.mem_singleton.mp ht]

lemma Inv.answer (h : Inv s) {callback : SyncCallback} {text : String}
    {channel : List (SyncCallback × String)} (hchannel : s.channel = (callback, text) :: channel)
    (hreply : m.IsReply) :
    Inv { s with
      channel := channel
      answered := s.answered ++ [(callback, m)]
      tasks := s.tasks ++ [⟨m, some (s.answered.length, callback), .received⟩] } where
  lock := h.lock
  queue := by
    have hqueue := h.queue
    rw [hchannel] at hqueue
    simpa [Task.waits] using hqueue
  tasks task ht := by
    rcases List.mem_append.mp ht with ht | ht
    · exact (h.tasks task ht).append
    · obtain rfl := List.mem_singleton.mp ht
      refine ⟨by simp [messageReceived_eq_poll_iff, hreply], fun number callback' heq => ?_⟩
      obtain ⟨rfl, rfl⟩ := Prod.mk.inj (Option.some.inj heq)
      simp
  head := head_append rfl h.head
  tail := tail_append rfl h.tail
  released callback' hc := by
    obtain ⟨message, hmessage, hmem⟩ := h.released callback' hc
    exact ⟨message, hmessage, List.mem_append_left _ hmem⟩
  handed p hp := by
    obtain ⟨message, hmessage⟩ := h.handed p hp
    exact ⟨message, by
      rw [List.getElem?_append_left (List.getElem?_eq_some_iff.mp hmessage).1, hmessage]⟩
  returned r hr := by
    obtain ⟨message, hmessage, hmem⟩ := h.returned r hr
    exact ⟨message, hmessage, List.mem_append_left _ hmem⟩
  nullPolled := h.nullPolled

lemma Inv.send (h : Inv s) (hreply : ¬ m.IsReply) :
    Inv { s with tasks := s.tasks ++ [⟨m, none, .received⟩] } where
  lock := h.lock
  queue := by simpa [Task.waits, List.filterMap_cons] using h.queue
  tasks task ht := by
    rcases List.mem_append.mp ht with ht | ht
    · exact h.tasks task ht
    · obtain rfl := List.mem_singleton.mp ht
      exact ⟨by simp [messageReceived_eq_poll_iff, hreply], nofun⟩
  head := head_append rfl h.head
  tail := tail_append rfl h.tail
  released := h.released
  handed := h.handed
  returned := h.returned
  nullPolled := h.nullPolled

/-! ## The executor -/

/-- The first message is done. -/
lemma head_of_tail {tasks : List Task} (htail : ∀ task ∈ tasks, task.phase = .received) :
    ∀ task ∈ tasks.head?, task.Handled s := by
  intro task ht
  rw [Task.Handled, htail task (List.mem_of_mem_head? ht)]
  trivial

lemma Inv.handleStep (h : Inv s) (hnext : handleStep s 0 = some s') : Inv s' := by
  have hqueue := h.queue
  rw [SyncCommands.handleStep] at hnext
  cases htasks : s.tasks with
  | nil => simp [htasks] at hnext
  | cons task tasks =>
    have hok : task.Ok s.answered := h.tasks task (by rw [htasks]; exact List.mem_cons_self)
    have hhandled : task.Handled s := h.head task (by rw [htasks]; rfl)
    have hrest : ∀ task ∈ tasks, task.Ok s.answered := fun task' ht =>
      h.tasks task' (by rw [htasks]; exact List.mem_cons_of_mem task ht)
    have htail : ∀ task ∈ tasks, task.phase = .received := by
      have htail := h.tail
      rwa [htasks] at htail
    obtain ⟨message, reply, phase⟩ := task
    rw [htasks] at hqueue
    simp only [htasks, List.getElem?_cons_zero, List.eraseIdx_cons_zero, List.set_cons_zero]
      at hnext
    cases phase with
    | received =>
      simp only at hnext
      split_ifs at hnext with hpoll
      · -- the callback at the head of the queue is that of the call which the reply answers
        obtain ⟨⟨number, callback⟩, rfl⟩ := Option.isSome_iff_exists.mp (hok.poll.mp hpoll)
        rw [List.filterMap_cons_some (show Task.waits _ = some callback from rfl),
          List.cons_append, List.cons_append] at hqueue
        rw [hqueue] at hnext
        obtain rfl := Option.some.inj hnext
        refine ⟨h.lock, rfl, ?_, ?_, htail, h.released, h.handed, h.returned, h.nullPolled⟩
        · exact List.forall_mem_cons.mpr ⟨⟨hok.poll, hok.reply⟩, hrest⟩
        · intro task' ht
          obtain rfl := Option.some.inj ht
          exact ⟨number, rfl⟩
      · have hnone : reply = none := by
          rw [← Option.not_isSome_iff_eq_none]
          exact fun hsome => hpoll (hok.poll.mpr hsome)
        subst hnone
        obtain rfl := Option.some.inj hnext
        exact ⟨h.lock, hqueue, hrest, head_of_tail htail, fun task' ht =>
          htail task' (List.mem_of_mem_tail ht), h.released, h.handed, h.returned, h.nullPolled⟩
    | polled callback =>
      obtain ⟨number, rfl⟩ := hhandled
      have hnumber := hok.reply number callback rfl
      obtain rfl := Option.some.inj hnext
      refine ⟨h.lock, hqueue, ?_, ?_, htail, fun callback' hc => ?_, fun p hp => ?_, h.returned,
        h.nullPolled⟩
      · exact List.forall_mem_cons.mpr ⟨⟨hok.poll, hok.reply⟩, hrest⟩
      · intro task' ht
        obtain rfl := Option.some.inj ht
        exact ⟨⟨number, rfl⟩, Function.update_self _ _ _⟩
      · by_cases heq : callback' = callback
        · subst heq
          exact ⟨message, Function.update_self _ _ _, List.mem_of_getElem? hnumber⟩
        · obtain ⟨message', hmessage', hmem⟩ := h.released callback' hc
          exact ⟨message', (Function.update_of_ne heq _ _).trans hmessage', hmem⟩
      · rcases List.mem_append.mp hp with hp | hp
        · exact h.handed p hp
        · obtain rfl : p = (number, callback) := by simpa using hp
          exact ⟨message, hnumber⟩
    | responded callback =>
      obtain ⟨⟨number, rfl⟩, hresponse⟩ := hhandled
      have hnumber := hok.reply number callback rfl
      obtain rfl := Option.some.inj hnext
      refine ⟨h.lock, hqueue, hrest, head_of_tail htail, fun task' ht =>
        htail task' (List.mem_of_mem_tail ht), fun callback' hc => ?_, h.handed, h.returned,
        h.nullPolled⟩
      by_cases heq : callback' = callback
      · subst heq
        exact ⟨message, hresponse, List.mem_of_getElem? hnumber⟩
      · simp only [Function.update_of_ne heq] at hc
        exact h.released callback' hc

/-! ## The threads -/

section

variable [DecidableEq τ] {q : Phase}

lemma writing_update {lock : Option τ} {phase : τ → Phase} :
    writing lock (Function.update phase t q) =
      if lock = some t then q.writing else writing lock phase := by
  cases lock with
  | none => simp [writing]
  | some t' =>
    by_cases heq : t' = t
    · subst heq
      simp [writing]
    · simp [writing, heq]

/-- What is left to show for a step of a thread. -/
lemma Inv.step (h : Inv s) {lock : Option τ} {callbacks : List SyncCallback} {n : ℕ}
    {channel : List (SyncCallback × String)} {returned : List (SyncCallback × Option EslMessage)}
    (hlock : ∀ t', t' ≠ t → s.syncLock = some t' → lock = some t')
    (hlocked : q.Locked → lock = some t)
    (hqueue : callbacks = s.tasks.filterMap Task.waits ++ channel.map Prod.fst ++
      if lock = some t then q.writing else writing lock s.phase)
    (hreturned : ∀ r ∈ returned, ∃ message, r.2 = some message ∧ (r.1, message) ∈ s.answered) :
    Inv ({ s with
      syncLock := lock, syncCallbacks := callbacks, numCallbacks := n, channel := channel
      returned := returned }.goto t q) where
  lock t' ht' := by
    simp only [State.goto] at ht'
    by_cases heq : t' = t
    · subst heq
      rw [Function.update_self] at ht'
      exact hlocked ht'
    · rw [Function.update_of_ne heq] at ht'
      exact hlock t' heq (h.lock t' ht')
  queue := by
    simp only [State.goto, writing_update]
    exact hqueue
  tasks := h.tasks
  head := h.head
  tail := h.tail
  released := h.released
  handed := h.handed
  returned := hreturned
  nullPolled := h.nullPolled

/-- Where the lock is not touched, a thread without it does not write. -/
lemma Inv.queue_goto (h : Inv s) (hwriting : (s.phase t).writing = []) (hq : q.writing = []) :
    s.syncCallbacks = s.tasks.filterMap Task.waits ++ s.channel.map Prod.fst ++
      if s.syncLock = some t then q.writing else writing s.syncLock s.phase := by
  split_ifs with hlock
  · have hqueue := h.queue
    rw [hlock, show writing (some t) s.phase = [] from hwriting] at hqueue
    rw [hqueue, hq]
  · exact h.queue

lemma Inv.callStep (h : Inv s) (hnext : callStep s t = some s') : Inv s' := by
  have hqueue := h.queue
  rw [SyncCommands.callStep] at hnext
  cases hphase : s.phase t with
  | idle => simp [hphase] at hnext
  | lock callback text =>
    simp only [hphase, Option.ite_none_right_eq_some, Option.some.injEq] at hnext
    obtain ⟨hfree, rfl⟩ := hnext
    refine h.step (fun t' _ ht' => ?_) (fun _ => rfl) ?_ h.returned
    · rw [hfree] at ht'
      cases ht'
    · rw [if_pos rfl, hqueue, hfree]
      rfl
  | add callback text =>
    have hlock : s.syncLock = some t := h.lock t (by rw [hphase]; trivial)
    simp only [hphase] at hnext
    obtain rfl := Option.some.inj hnext
    refine h.step (fun _ _ ht' => ht') (fun _ => hlock) ?_ h.returned
    rw [hqueue, if_pos hlock, hlock]
    simp [hphase, writing, Phase.writing]
  | write callback text =>
    have hlock : s.syncLock = some t := h.lock t (by rw [hphase]; trivial)
    simp only [hphase] at hnext
    obtain rfl := Option.some.inj hnext
    refine h.step (fun _ _ ht' => ht') (fun _ => hlock) ?_ h.returned
    rw [hqueue, if_pos hlock, hlock]
    simp [hphase, writing, Phase.writing]
  | unlock callback =>
    have hlock : s.syncLock = some t := h.lock t (by rw [hphase]; trivial)
    simp only [hphase] at hnext
    obtain rfl := Option.some.inj hnext
    refine h.step (fun t' hne ht' => ?_) nofun ?_ h.returned
    · exact absurd (Option.some.inj (hlock.symm.trans ht')).symm hne
    · rw [hqueue, if_neg nofun, hlock]
      simp [hphase, writing, Phase.writing]
  | await callback =>
    simp only [hphase, Option.ite_none_right_eq_some, Option.some.injEq] at hnext
    obtain ⟨hreleased, rfl⟩ := hnext
    refine h.step (fun _ _ ht' => ht') nofun (h.queue_goto (by rw [hphase]; rfl) rfl) fun r hr => ?_
    rcases List.mem_append.mp hr with hr | hr
    · exact h.returned r hr
    · obtain rfl := List.mem_singleton.mp hr
      exact h.released callback hreleased

/-! ## The system -/

lemma Inv.next {a : Action τ} (h : Inv s) (hordered : InOrder s a) (hnext : next s a = some s') :
    Inv s' := by
  cases a with
  | call t command =>
    rw [SyncCommands.next] at hnext
    cases hphase : s.phase t with
    | idle =>
      simp only [hphase] at hnext
      obtain rfl := Option.some.inj hnext
      exact h.step (fun _ _ ht' => ht') nofun (h.queue_goto (by rw [hphase]; rfl) rfl) h.returned
    | lock | add | write | unlock | await => simp [hphase] at hnext
  | step t => exact h.callStep hnext
  | interrupt t =>
    rw [SyncCommands.next] at hnext
    cases hphase : s.phase t with
    | await callback =>
      simp only [hphase] at hnext
      obtain rfl := Option.some.inj hnext
      exact h.step (fun _ _ ht' => ht') nofun (h.queue_goto (by rw [hphase]; rfl) rfl) h.returned
    | idle | lock | add | write | unlock => simp [hphase] at hnext
  | answer message =>
    rw [SyncCommands.next] at hnext
    cases hchannel : s.channel with
    | nil => simp [hchannel] at hnext
    | cons command channel =>
      simp only [hchannel, Option.ite_none_right_eq_some, Option.some.injEq] at hnext
      obtain ⟨hreply, rfl⟩ := hnext
      exact h.answer hchannel hreply
  | send message =>
    simp only [SyncCommands.next, Option.ite_none_left_eq_some, Option.some.injEq] at hnext
    obtain ⟨hreply, rfl⟩ := hnext
    exact h.send hreply
  | handle i =>
    obtain rfl : i = 0 := hordered
    exact h.handleStep hnext

end

/-- A message of this type. -/
def message (contentType : String) (body : String) : EslMessage :=
  (EslMessage.new.addHeader (some .contentType) contentType.toList).addBodyLine body.toList

/-- So many steps of a thread. -/
def steps (n : ℕ) (t : Bool) : List (Action Bool) := List.replicate n (.step t)

/-- Two threads; the second one gets the lock first, and an event comes between the replies. -/
def twoCalls : List (Action Bool) :=
  [.call true (.singleLine "api status"), .call false (.multiLine ["sendmsg", "x: y"])] ++
    steps 4 false ++ steps 2 true ++ [.answer (message "command/reply" "+OK"),
    .send (message "text/event-plain" "HEARTBEAT"), .handle 0] ++ steps 1 true ++
    [.answer (message "api/response" "UP"), .handle 0, .handle 0, .handle 0, .handle 0] ++
    steps 1 true ++ [.handle 0, .handle 0] ++ steps 1 true ++ steps 1 false

/-- Handled out of order, the second reply goes to the first caller. -/
example : ∃ s, run SyncCommands.next (State.init Bool)
    ([.call true (.singleLine "api status"), .call false (.singleLine "api version")] ++
      steps 4 true ++ steps 4 false ++ [.answer (message "api/response" "UP"),
      .answer (message "api/response" "1.0"), .handle 1, .handle 1, .handle 1] ++ steps 1 true) =
      some s ∧ s.returned = [(0, some (message "api/response" "1.0"))] :=
  ⟨_, rfl, rfl⟩

end FreeswitchContrib.Esl.SyncCommands
