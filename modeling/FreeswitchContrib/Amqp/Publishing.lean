import FreeswitchContrib.Amqp.Threads

/-!
# Events are published in order

Whatever the threads do, before a shutdown the messages that the queue accepted are those that were
published, the one that the sender holds, and those that are queued.  The sender keeps its message
over failed sends and reconnects, and takes the next one only when it has none.
-/

namespace FreeswitchContrib.Amqp

open Interleaving

variable {τ μ : Type}

/-- The sender leaves its loop. -/
def Sender.Exiting : Sender → Prop
  | .exitLock | .exitClose _ | .exitUnlock | .ended => True
  | _ => False

/-- What is kept about the messages. -/
structure Ordered (s : State τ μ) : Prop where
  order : s.running = true → s.accepted = s.published ++ s.msg.toList ++ s.amqpSendQueue
  pop : s.sender = .pop → s.msg = none
  exiting : s.sender.Exiting → s.running = false

variable {s s' : State τ μ} {reply : Reply}

lemma Ordered.init : Ordered (State.init τ μ) := by
  constructor <;> simp [State.init, Sender.Exiting]

/-- A step that moves no message. -/
lemma Ordered.frame (h : Ordered s) (hrunning : s'.running = s.running)
    (haccepted : s'.accepted = s.accepted) (hpublished : s'.published = s.published)
    (hmsg : s'.msg = s.msg) (hqueue : s'.amqpSendQueue = s.amqpSendQueue)
    (hpop : s'.sender = .pop → s.sender = .pop ∨ s.msg = none)
    (hexiting : s'.sender.Exiting → s.sender.Exiting ∨ s.running = false) : Ordered s' where
  order := by
    rw [hrunning, haccepted, hpublished, hmsg, hqueue]
    exact h.order
  pop hs := by
    rw [hmsg]
    exact (hpop hs).elim h.pop id
  exiting hs := by
    rw [hrunning]
    exact (hexiting hs).elim h.exiting id

/-- The same for a step inside `closeAmqpConnection` or `openAmqpConnection`. -/
lemma Ordered.frame_map {α : Type} (h : Ordered s) {inside : α → Sender} {phase : Option α}
    {done : Sender} (hrunning : s'.running = s.running) (haccepted : s'.accepted = s.accepted)
    (hpublished : s'.published = s.published) (hmsg : s'.msg = s.msg)
    (hqueue : s'.amqpSendQueue = s.amqpSendQueue)
    (hsender : s'.sender = (phase.map inside).getD done) (hpop : ∀ x, inside x ≠ .pop)
    (hdone : done ≠ .pop)
    (hexiting : ∀ p : Sender, p.Exiting → (p = done ∨ ∃ x, p = inside x) → s.sender.Exiting) :
    Ordered s' := by
  have hphase : s'.sender = done ∨ ∃ x, s'.sender = inside x := by
    rw [hsender]
    cases phase with
    | none => exact Or.inl rfl
    | some x => exact Or.inr ⟨x, rfl⟩
  refine h.frame hrunning haccepted hpublished hmsg hqueue (fun hp => ?_)
    fun hp => Or.inl (hexiting _ hp hphase)
  rcases hphase with heq | ⟨x, heq⟩
  · exact absurd (heq.symm.trans hp) hdone
  · exact absurd (heq.symm.trans hp) (hpop x)

lemma Ordered.senderStep (h : Ordered s) (hnext : senderStep s reply = some s') : Ordered s' := by
  rw [Amqp.senderStep] at hnext
  cases hsender : s.sender with
  | top =>
    simp only [hsender] at hnext
    split_ifs at hnext with hrunning
    · obtain rfl := Option.some.inj hnext
      exact h.frame rfl rfl rfl rfl rfl (fun h => by cases h) (fun h => by cases h)
    · -- the message is aborted
      obtain rfl := Option.some.inj hnext
      exact ⟨fun hrun => absurd hrun hrunning, (fun h => by cases h),
        fun _ => by simpa using hrunning⟩
  | check =>
    simp only [hsender] at hnext
    split_ifs at hnext with hconn hmsg <;> obtain rfl := Option.some.inj hnext
    · exact h.frame rfl rfl rfl rfl rfl (fun h => by cases h) (fun h => by cases h)
    · exact h.frame rfl rfl rfl rfl rfl (fun _ => Or.inr (Option.isNone_iff_eq_none.mp hmsg))
        (fun h => by cases h)
    · exact h.frame rfl rfl rfl rfl rfl (fun h => by cases h) (fun h => by cases h)
  | bounceLock | sendLock =>
    simp only [hsender, Option.ite_none_right_eq_some, Option.some.injEq] at hnext
    obtain ⟨-, rfl⟩ := hnext
    exact h.frame rfl rfl rfl rfl rfl (fun h => by cases h) (fun h => by cases h)
  | bounceCheck | sendCheck =>
    simp only [hsender] at hnext
    split_ifs at hnext <;> obtain rfl := Option.some.inj hnext <;>
      exact h.frame rfl rfl rfl rfl rfl (fun h => by cases h) (fun h => by cases h)
  | bounceClose closing | sendClose closing | bounceOpen opening =>
    simp only [hsender] at hnext
    obtain rfl := Option.some.inj hnext
    exact h.frame_map rfl rfl rfl rfl rfl rfl (fun _ h => by cases h) (fun h => by cases h)
      (by rintro p hp (rfl | ⟨x, rfl⟩) <;> exact hp.elim)
  | exitClose closing =>
    simp only [hsender] at hnext
    obtain rfl := Option.some.inj hnext
    exact h.frame_map rfl rfl rfl rfl rfl rfl (fun _ h => by cases h) (fun h => by cases h)
      fun _ _ _ => by rw [hsender]; trivial
  | pop =>
    simp only [hsender] at hnext
    split_ifs at hnext
    · -- the sender holds no message, and takes the first one
      have hmsg := h.pop hsender
      cases hqueue : s.amqpSendQueue with
      | nil => simp [hqueue] at hnext
      | cons msg queue =>
        rw [hqueue] at hnext
        obtain rfl := Option.some.inj hnext
        refine ⟨fun hrun => ?_, (fun h => by cases h), (fun h => by cases h)⟩
        simpa [hmsg, hqueue] using h.order hrun
    · obtain rfl := Option.some.inj hnext
      exact h.frame rfl rfl rfl rfl rfl (fun h => by cases h) (fun h => by cases h)
  | publish =>
    simp only [hsender] at hnext
    split_ifs at hnext <;> obtain rfl := Option.some.inj hnext
    · refine ⟨fun hrun => ?_, (fun h => by cases h), (fun h => by cases h)⟩
      simpa using h.order hrun
    · exact h.frame rfl rfl rfl rfl rfl (fun h => by cases h) (fun h => by cases h)
  | unlock =>
    simp only [hsender] at hnext
    obtain rfl := Option.some.inj hnext
    exact h.frame rfl rfl rfl rfl rfl (fun h => by cases h) (fun h => by cases h)
  | exitLock =>
    simp only [hsender, Option.ite_none_right_eq_some, Option.some.injEq] at hnext
    obtain ⟨-, rfl⟩ := hnext
    exact h.frame rfl rfl rfl rfl rfl (fun h => by cases h)
      fun _ => Or.inl (by rw [hsender]; trivial)
  | exitUnlock =>
    simp only [hsender] at hnext
    obtain rfl := Option.some.inj hnext
    have hrunning := h.exiting (by rw [hsender]; trivial)
    exact ⟨fun hrun => absurd (hrun.symm.trans hrunning) (by simp), (fun h => by cases h),
      fun _ => hrunning⟩
  | ended => simp [hsender] at hnext

variable [DecidableEq τ] {a : Action τ μ} {as : List (Action τ μ)} {size : ℕ}

lemma Ordered.next (h : Ordered s) (hnext : next size s a = some s') : Ordered s' := by
  cases a with
  | push msg =>
    rw [Amqp.next] at hnext
    split_ifs at hnext <;> obtain rfl := Option.some.inj hnext
    · refine ⟨fun hrun => ?_, h.pop, h.exiting⟩
      simp only [h.order hrun, List.append_assoc]
    · exact h
  | sender reply => exact h.senderStep hnext
  | listener reply =>
    obtain ⟨connections, listener, rfl⟩ := listenerStep_eq hnext
    exact h.frame rfl rfl rfl rfl rfl Or.inl Or.inl
  | reload t =>
    obtain ⟨connections, mutex, reload, rfl⟩ := reloadStep_eq hnext
    exact h.frame rfl rfl rfl rfl rfl Or.inl Or.inl
  | shutdown =>
    obtain rfl := Option.some.inj hnext
    exact ⟨(fun h => by cases h), h.pop, fun _ => rfl⟩

lemma run_running (hshutdown : Action.shutdown ∉ as)
    (h : run (next size) (State.init τ μ) as = some s) : s.running = true :=
  run_invariant_of_always (I := fun s => s.running = true) (G := fun _ a => a ≠ .shutdown)
    (fun _ _ _ hrun ha hnext => (next_running hnext ha).trans hrun) rfl
    (always_of_forall fun _ ha _ => ne_of_mem_of_not_mem ha hshutdown) h

/-- **Events are published in order.**  Before a shutdown the accepted messages are the published
ones, the one that the sender holds, and those in the queue, in this order. -/
theorem accepted_eq (hshutdown : Action.shutdown ∉ as)
    (h : run (next size) (State.init τ μ) as = some s) :
    s.accepted = s.published ++ s.msg.toList ++ s.amqpSendQueue :=
  (run_invariant (fun _ _ _ hI hnext => hI.next hnext) Ordered.init h).order
    (run_running hshutdown h)

/-- So many steps of the sender without a failure. -/
def senderSteps (n : ℕ) : List (Action Unit ℕ) := List.replicate n (.sender .normal)

/-- A send that fails, a reconnect, and the same message again; the third push finds the queue
full. -/
def sendTwice : List (Action Unit ℕ) :=
  senderSteps 8 ++ [.push 1] ++ senderSteps 2 ++ [.push 2, .push 3] ++ senderSteps 3
    ++ [.sender .other] ++ senderSteps 19

theorem accepted_eq_sendTwice : ∃ s, run (next 2) (State.init Unit ℕ) sendTwice = some s ∧
    s.published = [1] ∧ s.accepted = s.published ++ s.msg.toList ++ s.amqpSendQueue :=
  ⟨_, rfl, rfl, accepted_eq (by simp [sendTwice, senderSteps])
    (show run (next 2) _ sendTwice = some _ from rfl)⟩

end FreeswitchContrib.Amqp
