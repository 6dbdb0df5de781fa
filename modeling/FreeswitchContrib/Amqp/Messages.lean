import Mathlib.Data.Int.Notation
import FreeswitchContrib.Amqp.Publishing
import FreeswitchContrib.Library.Ownership

/-!
# The memory of the event messages

`mod_AMQP_event_handler` allocates a message with its text and gives it to the send queue.  The
sender frees it after a publish, or at its exit, when it also empties the queue.  The messages have
numbers in the order of their allocation, and the steps are those of `Threads`, with three more
things.

* The handlers test, allocate and push in three steps, with a time that comes with the action.
* The sender at its exit takes the queue's messages one by one, at most `amqpSendQueueSize`.
* A reload whose settings cannot be parsed sets `amqpSendQueueSize`, and nothing else of what is
  here; the capacity of the queue stays.

A message whose push is refused is not freed.  `FreedOnce` is what holds in the runs where no push
is.
-/

namespace FreeswitchContrib.Amqp

open Interleaving Ownership

/-- A call of `mod_AMQP_event_handler`, with its `now` and its `amqp_message`. -/
inductive Handler where
  | idle
  | allocate (now : ℤ)
  | push (now : ℤ) (amqp_message : ℕ)

def Handler.msg : Handler → Option ℕ
  | .push _ amqp_message => some amqp_message
  | _ => none

structure Memory (ι τ : Type) where
  threads : State τ ℕ
  handler : ι → Handler
  circuit_breaker_reset_time : ℤ
  amqpSendQueueSize : ℕ
  /-- the local of the sender, when it empties the queue -/
  to_pop : Option ℕ
  numAllocated : ℕ
  /-- how often a message was freed -/
  freed : ℕ → ℕ

namespace Memory

inductive Action (ι τ : Type) where
  | handler (t : ι) (now : ℤ)
  | sender (reply : Reply)
  | listener (reply : Reply)
  | reload (t : τ)
  | parseFailure
  | shutdown

variable {ι τ : Type}

/-- The queue was created with the configured size. -/
def init (ι τ : Type) (amqpSendQueueSize : ℕ) : Memory ι τ where
  threads := State.init τ ℕ
  handler := fun _ => .idle
  circuit_breaker_reset_time := 0
  amqpSendQueueSize := amqpSendQueueSize
  to_pop := none
  numAllocated := 0
  freed := fun _ => 0

/-- `switch_safe_free` of a message and its text. -/
def free (freed : ℕ → ℕ) : Option ℕ → ℕ → ℕ
  | some msg => Function.update freed msg (freed msg + 1)
  | none => freed

/-- A step of the event sender.  It loses its message only by `switch_safe_free`, which sets the
pointer to NULL. -/
def senderStep (s : Memory ι τ) (reply : Reply) : Option (Memory ι τ) :=
  match s.to_pop, s.threads.sender with
  | none, .exitUnlock =>
    some { s with
      threads := { s.threads with amqpConnectionMutex := none, sender := .ended }
      to_pop := some s.amqpSendQueueSize }
  | none, _ =>
    (Amqp.senderStep s.threads reply).map fun threads =>
      { s with
        threads := threads
        freed := if threads.msg = none then free s.freed s.threads.msg else s.freed }
  | some 0, _ => some { s with to_pop := none }
  | some (to_pop + 1), _ =>
    match s.threads.amqpSendQueue with
    | [] => some { s with to_pop := none }
    | msg :: queue =>
      some { s with
        threads := { s.threads with amqpSendQueue := queue }
        to_pop := some to_pop, freed := free s.freed (some msg) }

section

variable [DecidableEq ι]

/-- A step of `mod_AMQP_event_handler`. -/
def handlerStep (capacity : ℕ) (circuit_breaker_ms : ℤ) (s : Memory ι τ) (t : ι) (now : ℤ) :
    Memory ι τ :=
  match s.handler t with
  | .idle =>
    if s.threads.running = false ∨ now < s.circuit_breaker_reset_time then s
    else { s with handler := Function.update s.handler t (.allocate now) }
  | .allocate now =>
    { s with
      handler := Function.update s.handler t (.push now s.numAllocated)
      numAllocated := s.numAllocated + 1 }
  | .push now amqp_message =>
    if s.threads.amqpSendQueue.length < capacity then
      { s with
        threads := { s.threads with
          amqpSendQueue := s.threads.amqpSendQueue ++ [amqp_message]
          accepted := s.threads.accepted ++ [amqp_message] }
        handler := Function.update s.handler t .idle }
    else
      { s with
        handler := Function.update s.handler t .idle
        circuit_breaker_reset_time := now + circuit_breaker_ms * 1000 }

variable [DecidableEq τ]

def next (capacity : ℕ) (circuit_breaker_ms : ℤ) (s : Memory ι τ) :
    Action ι τ → Option (Memory ι τ)
  | .handler t now => some (s.handlerStep capacity circuit_breaker_ms t now)
  | .sender reply => s.senderStep reply
  | .listener reply =>
    (listenerStep s.threads reply).map fun threads => { s with threads := threads }
  | .reload t => (reloadStep s.threads t).map fun threads => { s with threads := threads }
  | .parseFailure => some { s with amqpSendQueueSize := 500 }
  | .shutdown => some { s with threads := { s.threads with running := false } }

end

/-! ## Where the messages are -/

inductive Place (ι : Type) where
  | handler (t : ι)
  | queued (msg : ℕ)
  | sender
  deriving DecidableEq

def held (s : Memory ι τ) : Place ι → Option ℕ
  | .handler t => (s.handler t).msg
  | .queued msg => if msg ∈ s.threads.amqpSendQueue then some msg else none
  | .sender => s.threads.msg

/-- What is kept in every run. -/
structure Sound (s : Memory ι τ) : Prop where
  owned : Owned s.held s.freed s.numAllocated
  nodup : s.threads.amqpSendQueue.Nodup
  ordered : Ordered s.threads
  emptying : s.to_pop ≠ none → s.threads.sender = .ended

variable {s s' : Memory ι τ} {threads : State τ ℕ} {t : ι} {now : ℤ} {msg : ℕ} {queue : List ℕ}
  {reply : Reply}

lemma held_queued_eq_some {m : ℕ} :
    s.held (.queued m) = some msg ↔ msg ∈ s.threads.amqpSendQueue ∧ m = msg := by
  rw [held]
  split_ifs with hm
  · constructor
    · rintro ⟨⟩
      exact ⟨hm, rfl⟩
    · rintro ⟨-, rfl⟩
      rfl
  · constructor
    · nofun
    · rintro ⟨hmem, rfl⟩
      exact absurd hmem hm

lemma held_handler {started : ℤ} (hphase : s.handler t = .push started msg) :
    s.held (.handler t) = some msg := by
  rw [held, hphase]
  rfl

lemma not_mem_queue (hs : s.Sound) {started : ℤ}
    (hphase : s.handler t = .push started msg) : msg ∉ s.threads.amqpSendQueue := fun hmem =>
  hs.owned.not_held (q := .queued msg) (held_handler hphase) nofun
    (held_queued_eq_some.mpr ⟨hmem, rfl⟩)

lemma held_queued_of_eq_cons (hqueue : s.threads.amqpSendQueue = msg :: queue) :
    s.held (.queued msg) = some msg :=
  held_queued_eq_some.mpr ⟨hqueue ▸ List.mem_cons_self, rfl⟩

/-! ## Who has to free a message -/

/-- Who has to free a message, or that it was freed. -/
inductive Owner (ι : Type) where
  | handler (t : ι)
  | queue
  | sender
  | freed

def Owns (s : Memory ι τ) (msg : ℕ) : Owner ι → Prop
  | .handler t => (s.handler t).msg = some msg
  | .queue => msg ∈ s.threads.amqpSendQueue
  | .sender => s.threads.msg = some msg
  | .freed => s.freed msg ≠ 0

structure FreedOnce (s : Memory ι τ) : Prop where
  owner : ∀ msg < s.numAllocated, ∃! o, s.Owns msg o
  queue : s.threads.amqpSendQueue.Nodup
  freed : ∀ msg, s.freed msg ≤ 1
  drained : s.threads.amqpSendQueue = [] → s.threads.msg = none →
    (∀ t, (s.handler t).msg = none) → ∀ msg < s.numAllocated, s.freed msg = 1

/-- The owner that a place is of. -/
def Place.owner : Place ι → Owner ι
  | .handler t => .handler t
  | .queued _ => .queue
  | .sender => .sender

lemma owns_of_held {p : Place ι} (hp : s.held p = some msg) : s.Owns msg p.owner := by
  cases p with
  | handler t => exact hp
  | queued m => exact (held_queued_eq_some.mp hp).1
  | sender => exact hp

lemma held_of_owns {o : Owner ι} (ho : s.Owns msg o) :
    (o = .freed ∧ s.freed msg ≠ 0) ∨ ∃ p : Place ι, p.owner = o ∧ s.held p = some msg := by
  cases o with
  | handler t => exact Or.inr ⟨.handler t, rfl, ho⟩
  | queue => exact Or.inr ⟨.queued msg, rfl, held_queued_eq_some.mpr ⟨ho, rfl⟩⟩
  | sender => exact Or.inr ⟨.sender, rfl, ho⟩
  | freed => exact Or.inl ⟨rfl, ho⟩

/-- One place at most, and nothing lost, is one owner. -/
lemma Sound.freedOnce (hs : s.Sound) (hkept : Kept s.held s.freed s.numAllocated) :
    FreedOnce s where
  owner msg hmsg := by
    by_cases hfreed : s.freed msg = 0
    · obtain ⟨p, hp⟩ := hkept msg hmsg hfreed
      refine ⟨p.owner, owns_of_held hp, fun o ho => ?_⟩
      rcases held_of_owns ho with ⟨-, hne⟩ | ⟨q, rfl, hq⟩
      · exact absurd hfreed hne
      · rw [hs.owned.unique q p msg hq hp]
    · refine ⟨.freed, hfreed, fun o ho => ?_⟩
      rcases held_of_owns ho with ⟨rfl, -⟩ | ⟨q, -, hq⟩
      · rfl
      · exact absurd (hs.owned.alive q msg hq).1 hfreed
  queue := hs.nodup
  freed := hs.owned.once
  drained hqueue hmsg hhandler msg hlt := by
    refine hkept.destroyed_eq_one hs.owned hlt fun p hp => ?_
    have howns := owns_of_held hp
    cases p with
    | handler t => exact nomatch (hhandler t).symm.trans howns
    | queued m => simp [Owns, Place.owner, hqueue] at howns
    | sender => exact nomatch hmsg.symm.trans howns

/-! ## What the sender does -/

/-- The sender keeps its message, or frees it, or takes the first one of the queue. -/
lemma senderStep_messages {s s' : State τ ℕ} (h : Amqp.senderStep s reply = some s')
    (hexit : s.sender ≠ .exitUnlock) :
    (s'.amqpSendQueue = s.amqpSendQueue ∧ (s'.msg = s.msg ∨ s'.msg = none)) ∨
      (s.sender = .pop ∧ ∃ msg, s.amqpSendQueue = msg :: s'.amqpSendQueue ∧ s'.msg = some msg) := by
  rw [Amqp.senderStep] at h
  cases hsender : s.sender <;> simp only [hsender] at h
  case top =>
    split_ifs at h <;> obtain rfl := Option.some.inj h
    · exact Or.inl ⟨rfl, Or.inl rfl⟩
    · exact Or.inl ⟨rfl, Or.inr rfl⟩
  case pop =>
    split_ifs at h
    · cases hqueue : s.amqpSendQueue with
      | nil => simp [hqueue] at h
      | cons msg queue =>
        rw [hqueue] at h
        obtain rfl := Option.some.inj h
        exact Or.inr ⟨rfl, msg, rfl, rfl⟩
    · obtain rfl := Option.some.inj h
      exact Or.inl ⟨rfl, Or.inl rfl⟩
  case publish =>
    split_ifs at h <;> obtain rfl := Option.some.inj h
    · exact Or.inl ⟨rfl, Or.inr rfl⟩
    · exact Or.inl ⟨rfl, Or.inl rfl⟩
  case exitUnlock => exact absurd hsender hexit
  all_goals
    first
      | split_ifs at h <;> obtain rfl := Option.some.inj h <;> exact Or.inl ⟨rfl, Or.inl rfl⟩
      | obtain rfl := Option.some.inj h
        exact Or.inl ⟨rfl, Or.inl rfl⟩
      | cases h

/-- What the sender does: it goes to empty the queue, takes a step of its loop, stops to empty the
queue, or frees a message of it. -/
lemma senderStep_cases (h : s.senderStep reply = some s') :
    (s.threads.sender = .exitUnlock ∧ s' = { s with
      threads := { s.threads with amqpConnectionMutex := none, sender := .ended }
      to_pop := some s.amqpSendQueueSize }) ∨
    (s.to_pop = none ∧ s.threads.sender ≠ .exitUnlock ∧
      ∃ threads, Amqp.senderStep s.threads reply = some threads ∧ s' = { s with
        threads := threads
        freed := if threads.msg = none then free s.freed s.threads.msg else s.freed }) ∨
    s' = { s with to_pop := none } ∨
    ∃ to_pop msg queue, s.to_pop = some (to_pop + 1) ∧ s.threads.amqpSendQueue = msg :: queue ∧
      s' = { s with
        threads := { s.threads with amqpSendQueue := queue }
        to_pop := some to_pop, freed := free s.freed (some msg) } := by
  rw [senderStep] at h
  split at h
  case h_1 hexit => exact Or.inl ⟨hexit, (Option.some.inj h).symm⟩
  case h_2 hpop hexit =>
    obtain ⟨threads, hthreads, rfl⟩ := Option.map_eq_some_iff.mp h
    exact Or.inr (Or.inl ⟨hpop, hexit, threads, hthreads, rfl⟩)
  case h_3 => exact Or.inr (Or.inr (Or.inl (Option.some.inj h).symm))
  case h_4 _ to_pop hpop =>
    cases hqueue : s.threads.amqpSendQueue with
    | nil =>
      rw [hqueue] at h
      exact Or.inr (Or.inr (Or.inl (Option.some.inj h).symm))
    | cons msg queue =>
      rw [hqueue] at h
      exact Or.inr (Or.inr (Or.inr ⟨to_pop, msg, queue, hpop, rfl, (Option.some.inj h).symm⟩))

lemma senderStep_suffix (h : s.senderStep reply = some s') :
    s'.threads.amqpSendQueue <:+ s.threads.amqpSendQueue := by
  rcases senderStep_cases h with ⟨-, rfl⟩ | ⟨-, hexit, threads, hthreads, rfl⟩ | rfl |
    ⟨to_pop, msg, queue, -, hqueue, rfl⟩
  · exact List.suffix_rfl
  · rcases senderStep_messages hthreads hexit with ⟨hqueue, -⟩ | ⟨-, msg, hqueue, -⟩
    · exact hqueue ▸ List.suffix_rfl
    · exact hqueue ▸ List.suffix_cons _ _
  · exact List.suffix_rfl
  · exact hqueue ▸ List.suffix_cons _ _

/-- Nothing is allocated before the first event. -/
lemma Sound.init (size : ℕ) : Sound (init ι τ size) where
  owned := by
    constructor
    · intro p q r hp
      cases p <;> cases hp
    · intro p r hp
      cases p <;> cases hp
    · exact fun _ => Nat.zero_le 1
    · exact fun r hr => absurd rfl hr
  nodup := List.nodup_nil
  ordered := Ordered.init
  emptying := nofun

lemma kept_init (size : ℕ) :
    Kept (init ι τ size).held (init ι τ size).freed (init ι τ size).numAllocated := nofun

variable [DecidableEq ι]

/-! ## How messages move -/

/-- A handler that changes, and the rest that stays. -/
lemma held_update_handler (s : Memory ι τ) (t : ι) (phase : Handler) (resetTime : ℤ) (num : ℕ) :
    held { s with
      handler := Function.update s.handler t phase
      circuit_breaker_reset_time := resetTime
      numAllocated := num } = Function.update s.held (.handler t) phase.msg := by
  refine Function.eq_update_iff.mpr ⟨?_, fun p hp => ?_⟩
  · simp only [held, Function.update_self]
  · cases p with
    | handler t' =>
      have hne : t' ≠ t := by
        rintro rfl
        exact hp rfl
      simp only [held, Function.update_of_ne hne]
    | queued m => rfl
    | sender => rfl

/-- A message that leaves the queue. -/
lemma held_dequeue (s : Memory ι τ) (threads : State τ ℕ)
    (hqueue : s.threads.amqpSendQueue = msg :: threads.amqpSendQueue)
    (hnodup : s.threads.amqpSendQueue.Nodup) (hmsg : threads.msg = s.threads.msg) :
    { s with threads := threads }.held = Function.update s.held (.queued msg) none := by
  rw [hqueue] at hnodup
  refine Function.eq_update_iff.mpr ⟨if_neg (List.nodup_cons.mp hnodup).1, fun p hp => ?_⟩
  cases p with
  | handler t' => rfl
  | queued m =>
    have hne : m ≠ msg := by
      rintro rfl
      exact hp rfl
    simp [held, hqueue, hne]
  | sender => exact hmsg

/-- A message that enters the queue. -/
lemma held_enqueue (s : Memory ι τ) (threads : State τ ℕ)
    (hqueue : threads.amqpSendQueue = s.threads.amqpSendQueue ++ [msg])
    (hmsg : threads.msg = s.threads.msg) :
    { s with threads := threads }.held = Function.update s.held (.queued msg) (some msg) := by
  refine Function.eq_update_iff.mpr ⟨if_pos (by simp [hqueue]), fun p hp => ?_⟩
  cases p with
  | handler t' => rfl
  | queued m =>
    have hne : m ≠ msg := by
      rintro rfl
      exact hp rfl
    simp [held, hqueue, hne]
  | sender => exact hmsg

lemma held_update_sender (s : Memory ι τ) (threads : State τ ℕ)
    (hqueue : threads.amqpSendQueue = s.threads.amqpSendQueue) :
    { s with threads := threads }.held = Function.update s.held .sender threads.msg := by
  refine Function.eq_update_iff.mpr ⟨rfl, fun p hp => ?_⟩
  cases p with
  | handler t' => rfl
  | queued m => simp only [held, hqueue]
  | sender => exact absurd rfl hp

/-! ## What a step does to the messages -/

/-- A message that goes from the queue to the sender, which holds none. -/
lemma transfer_pop (hs : s.Sound) (hmsg : s.threads.msg = none)
    (hqueue : s.threads.amqpSendQueue = msg :: threads.amqpSendQueue)
    (htaken : threads.msg = some msg) :
    Transfer s.held s.freed s.numAllocated { s with threads := threads }.held s.freed
      s.numAllocated := by
  have hheld : { s with threads := threads }.held =
      Function.update (Function.update s.held (.queued msg) none) .sender (some msg) := by
    have hdequeue := held_dequeue s { s.threads with amqpSendQueue := threads.amqpSendQueue }
      hqueue hs.nodup rfl
    rw [← hdequeue, ← htaken]
    exact held_update_sender { s with
      threads := { s.threads with amqpSendQueue := threads.amqpSendQueue } } threads rfl
  rw [hheld]
  exact .move _ _ _ (held_queued_of_eq_cons hqueue) hmsg

/-- A message that the sender keeps or frees. -/
lemma transfer_free (hqueue : threads.amqpSendQueue = s.threads.amqpSendQueue)
    (hmsg : threads.msg = s.threads.msg ∨ threads.msg = none) :
    Transfer s.held s.freed s.numAllocated { s with threads := threads }.held
      (if threads.msg = none then free s.freed s.threads.msg else s.freed) s.numAllocated := by
  have hheld : { s with threads := threads }.held = Function.update s.held .sender threads.msg :=
    held_update_sender s threads hqueue
  have hframe (heq : threads.msg = s.threads.msg) :
      { s with threads := threads }.held = s.held := by
    rw [hheld]
    exact Function.update_eq_self_iff.mpr heq
  by_cases hnone : threads.msg = none
  · rw [if_pos hnone]
    cases hfree : s.threads.msg with
    | none =>
      rw [hframe (hnone.trans hfree.symm)]
      exact .frame
    | some msg =>
      rw [hheld, hnone]
      exact .destroy _ _ hfree
  · rw [if_neg hnone, hframe (hmsg.resolve_right hnone)]
    exact .frame

/-- The sender transfers messages. -/
lemma senderStep_transfer (hs : s.Sound) (h : s.senderStep reply = some s') :
    Transfer s.held s.freed s.numAllocated s'.held s'.freed s'.numAllocated := by
  rcases senderStep_cases h with ⟨-, rfl⟩ | ⟨-, hexit, threads, hthreads, rfl⟩ | rfl |
    ⟨to_pop, msg, queue, -, hqueue, rfl⟩
  · exact .frame
  · rcases senderStep_messages hthreads hexit with ⟨hqueue, hmsg⟩ | ⟨hpop, msg, hqueue, htaken⟩
    · exact transfer_free hqueue hmsg
    · rw [if_neg (by simp [htaken])]
      exact transfer_pop hs (hs.ordered.pop hpop) hqueue htaken
  · exact .frame
  · have hheld := held_dequeue s { s.threads with amqpSendQueue := queue } hqueue hs.nodup rfl
    have htransfer : Transfer s.held s.freed s.numAllocated _ _ _ :=
      .destroy _ _ (held_queued_of_eq_cons hqueue)
    rw [← hheld] at htransfer
    exact htransfer

variable {capacity : ℕ} {circuit_breaker_ms : ℤ} {started : ℤ}

/-- The push of this handler would be refused. -/
def Refused (s : Memory ι τ) (capacity : ℕ) (t : ι) : Prop :=
  (s.handler t).msg ≠ none ∧ capacity ≤ s.threads.amqpSendQueue.length

lemma handlerStep_allocate (hphase : s.handler t = .allocate started) :
    s.handlerStep capacity circuit_breaker_ms t now = { s with
      handler := Function.update s.handler t (.push started s.numAllocated)
      numAllocated := s.numAllocated + 1 } := by
  rw [handlerStep, hphase]

lemma handlerStep_accept (hphase : s.handler t = .push started msg)
    (hroom : s.threads.amqpSendQueue.length < capacity) :
    s.handlerStep capacity circuit_breaker_ms t now = { s with
      threads := { s.threads with
        amqpSendQueue := s.threads.amqpSendQueue ++ [msg]
        accepted := s.threads.accepted ++ [msg] }
      handler := Function.update s.handler t .idle } := by
  rw [handlerStep, hphase]
  exact if_pos hroom

lemma handlerStep_refuse (hphase : s.handler t = .push started msg)
    (hfull : capacity ≤ s.threads.amqpSendQueue.length) :
    s.handlerStep capacity circuit_breaker_ms t now = { s with
      handler := Function.update s.handler t .idle
      circuit_breaker_reset_time := started + circuit_breaker_ms * 1000 } := by
  rw [handlerStep, hphase]
  exact if_neg (Nat.not_lt.mpr hfull)

/-- A handler that holds no message before and after. -/
lemma held_handler_idle (hphase : s.handler t = .idle) :
    (s.handlerStep capacity circuit_breaker_ms t now).held = s.held ∧
      (s.handlerStep capacity circuit_breaker_ms t now).threads = s.threads ∧
      (s.handlerStep capacity circuit_breaker_ms t now).freed = s.freed ∧
      (s.handlerStep capacity circuit_breaker_ms t now).numAllocated = s.numAllocated := by
  rw [handlerStep, hphase]
  by_cases hignore : s.threads.running = false ∨ now < s.circuit_breaker_reset_time
  · simp only [if_pos hignore, and_self]
  · simp only [if_neg hignore, and_self, and_true]
    rw [held_update_handler]
    refine Function.update_eq_self_iff.mpr ?_
    rw [held, hphase]
    rfl

/-- A handler transfers messages, unless its push is refused. -/
lemma handlerStep_transfer (hs : s.Sound) (hroom : ¬ s.Refused capacity t) :
    Transfer s.held s.freed s.numAllocated
      (s.handlerStep capacity circuit_breaker_ms t now).held
      (s.handlerStep capacity circuit_breaker_ms t now).freed
      (s.handlerStep capacity circuit_breaker_ms t now).numAllocated := by
  cases hphase : s.handler t with
  | idle =>
    obtain ⟨hheld, -, hfreed, hnum⟩ := held_handler_idle hphase
    rw [hheld, hfreed, hnum]
    exact .frame
  | allocate started =>
    have hnone : s.held (.handler t) = none := by
      rw [held, hphase]
      rfl
    rw [handlerStep_allocate hphase, held_update_handler]
    exact .create _ hnone
  | push started msg =>
    have hlength : s.threads.amqpSendQueue.length < capacity := by
      by_contra hfull
      exact hroom ⟨by simp [hphase, Handler.msg], Nat.le_of_not_lt hfull⟩
    have hnone : s.held (.queued msg) = none := if_neg (not_mem_queue hs hphase)
    have hheld := held_enqueue { s with handler := Function.update s.handler t .idle }
      { s.threads with
        amqpSendQueue := s.threads.amqpSendQueue ++ [msg]
        accepted := s.threads.accepted ++ [msg] } rfl rfl
    rw [held_update_handler s t .idle s.circuit_breaker_reset_time s.numAllocated] at hheld
    rw [handlerStep_accept hphase hlength, hheld]
    exact .move _ _ _ (held_handler hphase) hnone

/-- A refused message is forgotten. -/
lemma handlerStep_refused (hrefused : s.Refused capacity t) (circuit_breaker_ms now : ℤ) :
    (s.handlerStep capacity circuit_breaker_ms t now).held =
        Function.update s.held (.handler t) none ∧
      (s.handlerStep capacity circuit_breaker_ms t now).freed = s.freed ∧
      (s.handlerStep capacity circuit_breaker_ms t now).numAllocated = s.numAllocated := by
  obtain ⟨hmsg, hfull⟩ := hrefused
  cases hphase : s.handler t with
  | idle | allocate started => simp [hphase, Handler.msg] at hmsg
  | push started msg =>
    rw [handlerStep_refuse hphase hfull]
    exact ⟨held_update_handler s t .idle _ _, rfl, rfl⟩

/-- What a handler does to the threads. -/
lemma handlerStep_threads (s : Memory ι τ) (capacity : ℕ) (circuit_breaker_ms : ℤ) (t : ι)
    (now : ℤ) :
    (s.handlerStep capacity circuit_breaker_ms t now).to_pop = s.to_pop ∧
      ((s.handlerStep capacity circuit_breaker_ms t now).threads = s.threads ∨
        ∃ started msg, s.handler t = .push started msg ∧
          s.threads.amqpSendQueue.length < capacity ∧
          (s.handlerStep capacity circuit_breaker_ms t now).threads = { s.threads with
            amqpSendQueue := s.threads.amqpSendQueue ++ [msg]
            accepted := s.threads.accepted ++ [msg] }) := by
  cases hphase : s.handler t with
  | idle =>
    refine ⟨?_, Or.inl (held_handler_idle hphase).2.1⟩
    rw [handlerStep, hphase]
    by_cases hignore : s.threads.running = false ∨ now < s.circuit_breaker_reset_time
    · simp only [if_pos hignore]
    · simp only [if_neg hignore]
  | allocate started =>
    rw [handlerStep_allocate hphase]
    exact ⟨rfl, Or.inl rfl⟩
  | push started msg =>
    by_cases hlength : s.threads.amqpSendQueue.length < capacity
    · rw [handlerStep_accept hphase hlength]
      exact ⟨rfl, Or.inr ⟨started, msg, rfl, hlength, rfl⟩⟩
    · rw [handlerStep_refuse hphase (Nat.le_of_not_lt hlength)]
      exact ⟨rfl, Or.inl rfl⟩

/-! ## What every run keeps -/

/-- Another thread takes a step. -/
lemma Sound.frame (hs : s.Sound) (hqueue : threads.amqpSendQueue = s.threads.amqpSendQueue)
    (hmsg : threads.msg = s.threads.msg) (hordered : Ordered threads)
    (hsender : threads.sender = s.threads.sender) : Sound { s with threads := threads } where
  owned := by
    have hheld : { s with threads := threads }.held = s.held := by
      rw [held_update_sender s threads hqueue]
      exact Function.update_eq_self_iff.mpr hmsg
    exact hheld.symm ▸ hs.owned
  nodup := by
    rw [hqueue]
    exact hs.nodup
  ordered := hordered
  emptying hpop := hsender.trans (hs.emptying hpop)

lemma Sound.senderStep (hs : s.Sound) (h : s.senderStep reply = some s') : Sound s' where
  owned := hs.owned.transfer (senderStep_transfer hs h)
  nodup := hs.nodup.sublist (senderStep_suffix h).sublist
  ordered := by
    rcases senderStep_cases h with ⟨hexit, rfl⟩ | ⟨-, -, threads, hthreads, rfl⟩ | rfl |
      ⟨to_pop, msg, queue, hpop, -, rfl⟩
    · have hrunning := hs.ordered.exiting (by rw [hexit]; trivial)
      exact ⟨fun hrun => absurd (hrun.symm.trans hrunning) (by simp), nofun, fun _ => hrunning⟩
    · exact hs.ordered.senderStep hthreads
    · exact hs.ordered
    · -- the sender has left its loop
      have hended := hs.emptying (by simp [hpop])
      have hrunning := hs.ordered.exiting (by rw [hended]; trivial)
      exact ⟨fun hrun => absurd (hrun.symm.trans hrunning) (by simp), hs.ordered.pop,
        fun _ => hrunning⟩
  emptying := by
    rcases senderStep_cases h with ⟨-, rfl⟩ | ⟨hpop, -, threads, -, rfl⟩ | rfl |
      ⟨to_pop, msg, queue, hpop, -, rfl⟩
    · exact fun _ => rfl
    · exact fun hne => absurd hpop hne
    · exact fun hne => absurd rfl hne
    · exact fun _ => hs.emptying (by simp [hpop])

variable [DecidableEq τ] {a : Action ι τ} {as : List (Action ι τ)}

lemma Sound.handlerStep (hs : s.Sound) :
    Sound (s.handlerStep capacity circuit_breaker_ms t now) where
  owned := by
    by_cases hrefused : s.Refused capacity t
    · obtain ⟨hheld, hfreed, hnum⟩ := handlerStep_refused hrefused circuit_breaker_ms now
      rw [hheld, hfreed, hnum]
      exact hs.owned.forget
    · exact hs.owned.transfer (handlerStep_transfer hs hrefused)
  nodup := by
    obtain ⟨-, heq | ⟨started, msg, hphase, -, heq⟩⟩ :=
      s.handlerStep_threads capacity circuit_breaker_ms t now
    · rw [heq]
      exact hs.nodup
    · rw [heq]
      refine List.nodup_append.mpr ⟨hs.nodup, by simp, ?_⟩
      intro m hm m' hm'
      obtain rfl := List.mem_singleton.mp hm'
      exact ne_of_mem_of_not_mem hm (not_mem_queue hs hphase)
  ordered := by
    obtain ⟨-, heq | ⟨started, msg, -, hroom, heq⟩⟩ :=
      s.handlerStep_threads capacity circuit_breaker_ms t now
    · rw [heq]
      exact hs.ordered
    · rw [heq]
      have hpush : Amqp.next capacity s.threads (.push msg) = some _ := if_pos hroom
      exact hs.ordered.next hpush
  emptying hpop := by
    obtain ⟨hto, heq | ⟨started, msg, -, -, heq⟩⟩ :=
      s.handlerStep_threads capacity circuit_breaker_ms t now
    · rw [heq]
      exact hs.emptying (hto ▸ hpop)
    · rw [heq]
      exact hs.emptying (hto ▸ hpop)

lemma Sound.next (hs : s.Sound) (h : next capacity circuit_breaker_ms s a = some s') :
    Sound s' := by
  cases a with
  | handler t now =>
    obtain rfl := Option.some.inj h
    exact hs.handlerStep
  | sender reply => exact hs.senderStep h
  | listener reply =>
    obtain ⟨threads, hthreads, rfl⟩ := Option.map_eq_some_iff.mp h
    have hlistener : Amqp.next capacity s.threads (.listener reply) = some threads := hthreads
    have hordered := hs.ordered.next hlistener
    obtain ⟨connections, listener, rfl⟩ := listenerStep_eq hthreads
    exact hs.frame rfl rfl hordered rfl
  | reload t =>
    obtain ⟨threads, hthreads, rfl⟩ := Option.map_eq_some_iff.mp h
    have hreload : Amqp.next capacity s.threads (.reload t) = some threads := hthreads
    have hordered := hs.ordered.next hreload
    obtain ⟨connections, mutex, reload, rfl⟩ := reloadStep_eq hthreads
    exact hs.frame rfl rfl hordered rfl
  | parseFailure =>
    obtain rfl := Option.some.inj h
    exact ⟨hs.owned, hs.nodup, hs.ordered, hs.emptying⟩
  | shutdown =>
    obtain rfl := Option.some.inj h
    have hshutdown : Amqp.next capacity s.threads .shutdown = some _ := rfl
    exact hs.frame rfl rfl (hs.ordered.next hshutdown) rfl

/-- The step does not push to a full queue. -/
def HasRoom (capacity : ℕ) (s : Memory ι τ) : Action ι τ → Prop
  | .handler t _ => ¬ s.Refused capacity t
  | _ => True

instance (capacity : ℕ) : ∀ (s : Memory ι τ) (a : Action ι τ), Decidable (HasRoom capacity s a)
  | s, .handler t _ => inferInstanceAs (Decidable ¬((s.handler t).msg ≠ none ∧
      capacity ≤ s.threads.amqpSendQueue.length))
  | _, .sender _ | _, .listener _ | _, .reload _ => .isTrue trivial
  | _, .parseFailure | _, .shutdown => .isTrue trivial

/-- Other threads leave the messages where they are. -/
lemma next_transfer (hs : s.Sound) (hroom : HasRoom capacity s a)
    (h : next capacity circuit_breaker_ms s a = some s') :
    Transfer s.held s.freed s.numAllocated s'.held s'.freed s'.numAllocated := by
  cases a with
  | handler t now =>
    obtain rfl := Option.some.inj h
    exact handlerStep_transfer hs hroom
  | sender reply => exact senderStep_transfer hs h
  | listener reply =>
    obtain ⟨threads, hthreads, rfl⟩ := Option.map_eq_some_iff.mp h
    obtain ⟨connections, listener, rfl⟩ := listenerStep_eq hthreads
    exact .frame
  | reload t =>
    obtain ⟨threads, hthreads, rfl⟩ := Option.map_eq_some_iff.mp h
    obtain ⟨connections, mutex, reload, rfl⟩ := reloadStep_eq hthreads
    exact .frame
  | parseFailure | shutdown =>
    obtain rfl := Option.some.inj h
    exact .frame

/-! ## Messages are freed once -/

/-- **No message is freed twice**, in no run. -/
theorem freed_le_one {size : ℕ}
    (h : run (next capacity circuit_breaker_ms) (init ι τ size) as = some s) (msg : ℕ) :
    s.freed msg ≤ 1 :=
  (run_invariant (fun _ _ _ hI hnext => hI.next hnext) (Sound.init size) h).owned.once msg

/-- **Each message is freed once**, in every run whose pushes find room in the queue. -/
theorem freedOnce_of_hasRoom
    (hroom : Always (next capacity circuit_breaker_ms) (HasRoom capacity) (init ι τ capacity) as)
    (h : run (next capacity circuit_breaker_ms) (init ι τ capacity) as = some s) :
    FreedOnce s := by
  have hinv : s.Sound ∧ Kept s.held s.freed s.numAllocated :=
    run_invariant_of_always
      (I := fun s => Sound s ∧ Kept s.held s.freed s.numAllocated)
      (fun _ _ _ hI hG hnext => ⟨hI.1.next hnext, hI.2.transfer (next_transfer hI.1 hG hnext)⟩)
      ⟨Sound.init capacity, kept_init capacity⟩ hroom h
  exact hinv.1.freedOnce hinv.2

/-- A call of the handler. -/
def event (now : ℤ) : List (Action Unit Unit) := List.replicate 3 (.handler () now)

def senderSteps (n : ℕ) : List (Action Unit Unit) := List.replicate n (.sender .normal)

/-- Two messages: a send that fails and is repeated for the first, a shutdown for the second. -/
def twoMessages : List (Action Unit Unit) :=
  event 1 ++ senderSteps 13 ++ [.sender .other] ++ event 2 ++ senderSteps 20
    ++ [.shutdown] ++ senderSteps 10

theorem freedOnce_twoMessages : ∃ s : Memory Unit Unit,
    run (next 2 10000) (init Unit Unit 2) twoMessages = some s ∧ s.numAllocated = 2 ∧
    FreedOnce s := by
  have h : run (next 2 10000) (init Unit Unit 2) twoMessages = some _ := rfl
  exact ⟨_, h, rfl, freedOnce_of_hasRoom (by decide) h⟩

/-- Two events before the sender takes a message, and a queue for one. -/
def burst : List (Action Unit Unit) := event 1 ++ event 2 ++ senderSteps 14

theorem freed_le_one_burst : ∃ s : Memory Unit Unit,
    run (next 1 10000) (init Unit Unit 1) burst = some s ∧ s.freed 0 ≤ 1 :=
  have h : run (next 1 10000) (init Unit Unit 1) burst = some _ := rfl
  ⟨_, h, freed_le_one h 0⟩

theorem not_freedOnce : ¬ ∀ (capacity : ℕ) (circuit_breaker_ms : ℤ) (as : List (Action Unit Unit))
    (s : Memory Unit Unit),
    run (next capacity circuit_breaker_ms) (init Unit Unit capacity) as = some s →
      FreedOnce s := by
  intro h
  have hdrained := (h 1 10000 burst _ rfl).drained rfl rfl (fun _ => rfl) 1 (by decide)
  exact absurd hdrained (by decide)

end Memory

end FreeswitchContrib.Amqp
