import FreeswitchContrib.Library.Exclusion
import FreeswitchContrib.VoicemailOriginate.Originate

/-!
# One callback at a time

A row is selected by the runtime thread and claimed by a thread of its own, with a statement that
does not look at the row; a new message puts a row in the place of one whose call goes on.

* `OneAtATime` — no two originate calls for an account, and no more calls for a row than attempts.
* `Tidy` — what a claim and a new message would have to look at.
* **`one_callback_at_a_time`** — tidy steps keep to it.
-/

namespace FreeswitchContrib.VoicemailOriginate

open Exclusion Interleaving

/-- The attempts setting of a user. -/
def Env.attempts (env : Env) (account : Account) : ℤ :=
  ((env.settings account).map UserProfile.attempts).getD 0

/-- No two originate calls for an account are in progress, and a row has not seen more calls than
its user has attempts. -/
def OneAtATime (env : Env) (s : System) : Prop :=
  Exclusive (fun A : Attempt => A.phase = .dialing) Attempt.account s.attempts ∧
    ∀ row ∈ s.rows, row.calls ≤ (env.attempts row.account).toNat

/-- From the claim until the row is given back or the call is given up. -/
def Phase.isCall : Phase → Bool
  | .originating | .dialing | .dropping | .requeueing | .answered => true
  | _ => false

/-- The attempt has a call, or a channel that changes the queue. -/
def Attempt.Calling (A : Attempt) : Prop := A.hooked = true ∨ A.phase.isCall = true

/-- The rows of an account are waiting for this attempt. -/
def System.Waiting (s : System) (account : Account) (attemptNumber : ℕ) : Prop :=
  (∃ row ∈ s.rows, row.account = account) ∧
    ∀ row ∈ s.rows, row.account = account →
      row.originateState = .waitForNextAttempt ∧ row.attemptCount = attemptNumber

/-- A claim finds the rows as they were selected, and a row is inserted when no call of its account
goes on. -/
def Tidy (s : System) : Action → Prop
  | .thread i o => ∀ A : Attempt, s.attempts[i]? = some A → A.phase = .claiming →
      o.claimed = true → s.Waiting A.account A.attemptNumber
  | .queueing j executed _ _ => ∀ Q : Queueing, s.queueings[j]? = some Q →
      Q.phase = .inserting → executed = true →
      ∀ A ∈ s.attempts, A.account = Q.account → ¬ A.Calling
  | _ => True

instance (A : Attempt) : Decidable A.Calling := inferInstanceAs (Decidable (_ ∨ _))

instance (s : System) (account : Account) (attemptNumber : ℕ) :
    Decidable (s.Waiting account attemptNumber) :=
  inferInstanceAs (Decidable (_ ∧ _))

instance (s : System) : (action : Action) → Decidable (Tidy s action)
  | .thread i o => inferInstanceAs (Decidable (∀ A ∈ s.attempts[i]?, A.phase = .claiming →
      o.claimed = true → s.Waiting A.account A.attemptNumber))
  | .queueing j executed _ _ => inferInstanceAs (Decidable (∀ Q ∈ s.queueings[j]?,
      Q.phase = .inserting → executed = true →
        ∀ A ∈ s.attempts, A.account = Q.account → ¬ A.Calling))
  | .tick _ | .channel _ _ _ _ | .event _ _ _ | .load _ | .unload _ => .isTrue trivial

/-! ## What an attempt does -/

section

variable {env : Env} {released : ℕ → Bool} {o : Outcome} {A A' : Attempt} {changes : List Change}

/-- What is known of a thread before its claim, and of a state handler. -/
structure Attempt.Ready (env : Env) (A : Attempt) : Prop where
  deciding : A.phase = .deciding → A.profile.attempts = env.attempts A.account
  claiming : A.phase = .claiming → A.attemptNumber < env.attempts A.account
  hooked : A.hooked = true → A.phase.isLate = true

lemma Phase.isCall_of_isLate {phase : Phase} (h : phase.isLate = true) : phase.isCall = false := by
  cases phase <;> first | rfl | cases h

/-- What a step of an attempt can do to the queue. -/
inductive Moves (A A' : Attempt) : List Change → Prop
  | quiet (hcalling : A'.Calling → A.Calling)
      (hphase : A'.phase = .originating ↔ A.phase = .originating) : Moves A A' []
  | delete (hcalling : A'.Calling → A.Calling)
      (hphase : A'.phase = .originating ↔ A.phase = .originating) :
      Moves A A' [.delete A.account]
  | claim (hphase : A.phase = .claiming) (hphase' : A'.phase = .originating) :
      Moves A A' [.claim A.account]
  | requeue (nextAttempt : ℤ) (hcalling : A.Calling) (hcalling' : ¬ A'.Calling)
      (hphase : A.phase ≠ .originating) : Moves A A' [.requeue A.account nextAttempt]
  | call (hphase : A.phase = .originating) (hphase' : A'.phase = .dialing) :
      Moves A A' [.call A.account]

/-- It goes on to a phase without a call, and leaves the queue alone. -/
lemma Moves.of_not_isCall (hhooked : A'.hooked = true → A.hooked = true)
    (hphase : A.phase ≠ .originating) (hphase' : A'.phase.isCall = false) : Moves A A' [] := by
  refine .quiet ?_ (iff_of_false ?_ hphase)
  · rintro (h | h)
    · exact .inl (hhooked h)
    · rw [hphase'] at h
      cases h
  · intro h
    rw [h] at hphase'
    cases hphase'

/-- The DELETE is executed or not. -/
lemma Moves.of_statement_delete (executed : Bool) (hhooked : A'.hooked = true → A.hooked = true)
    (hphase : A.phase ≠ .originating) (hphase' : A'.phase.isCall = false) :
    Moves A A' (statement executed (.delete A.account)) := by
  cases executed with
  | false => exact .of_not_isCall hhooked hphase hphase'
  | true =>
    cases Moves.of_not_isCall hhooked hphase hphase' with
    | quiet hcalling hphase => exact .delete hcalling hphase

lemma Attempt.not_calling (hhooked : A.hooked = false) (hphase : A.phase.isCall = false) :
    ¬ A.Calling := by
  rintro (h | h)
  · rw [hhooked] at h
    cases h
  · rw [hphase] at h
    cases h

lemma Attempt.decision_eq_claiming {profile : UserProfile} {attemptNumber : ℕ}
    (h : decision profile attemptNumber = .claiming) : attemptNumber < profile.attempts := by
  rw [decision] at h
  split_ifs at h with _ hlimit
  exact Int.not_le.mp hlimit

lemma Attempt.decision_isCall (profile : UserProfile) (attemptNumber : ℕ) :
    (decision profile attemptNumber).isCall = false ∧
      decision profile attemptNumber ≠ .deciding := by
  rw [decision]
  split_ifs <;> simp [Phase.isCall]

/-- A thread that is not before its claim is ready whatever it does. -/
lemma Attempt.ready_of_late (hdeciding : A'.phase ≠ .deciding) (hclaiming : A'.phase ≠ .claiming)
    (hhooked : A'.hooked = true → A'.phase.isLate = true) : A'.Ready env where
  deciding h := absurd h hdeciding
  claiming h := absurd h hclaiming
  hooked := hhooked

/-- Behind its call a thread does nothing to the queue. -/
lemma Attempt.moves_late (haccount : A'.account = A.account) (hhooked : A'.hooked = A.hooked)
    (hphase : A.phase ≠ .originating)
    (hphase' : A'.phase.isLate = true) :
    Moves A A' [] ∧ A'.Ready env ∧ A'.account = A.account :=
  ⟨.of_not_isCall (fun h => hhooked ▸ h) hphase (Phase.isCall_of_isLate hphase'),
    ready_of_late (fun h => absurd hphase' (by simp [h, Phase.isLate]))
      (fun h => absurd hphase' (by simp [h, Phase.isLate])) (fun _ => hphase'), haccount⟩

/-- A step of a thread. -/
lemma Attempt.step_moves (hready : A.Ready env) (h : A.step released o = some (A', changes)) :
    Moves A A' changes ∧ A'.Ready env ∧ A'.account = A.account := by
  -- A state handler is only there behind the call.
  have hcall : A.phase.isCall = true → A.hooked = false := by
    intro hcall
    cases hhooked : A.hooked with
    | false => rfl
    | true =>
      exact absurd (Phase.isCall_of_isLate (hready.hooked hhooked)) (by simp [hcall])
  cases hphase : A.phase with
  | starting =>
    simp only [step, hphase] at h
    cases h
  | deciding =>
    simp only [step, hphase, Option.some.injEq, Prod.mk.injEq] at h
    obtain ⟨rfl, rfl⟩ := h
    obtain ⟨hcall', hdeciding⟩ := decision_isCall A.profile A.attemptNumber
    refine ⟨.of_not_isCall (fun h => h) (by simp [hphase]) hcall', ⟨?_, ?_, ?_⟩, rfl⟩
    · exact fun h => absurd h hdeciding
    · intro h
      exact lt_of_lt_of_eq (decision_eq_claiming h) (hready.deciding hphase)
    · exact fun h => absurd (hready.hooked h) (by simp [hphase, Phase.isLate])
  | removing =>
    simp only [step, hphase, Option.some.injEq, Prod.mk.injEq] at h
    obtain ⟨rfl, rfl⟩ := h
    exact ⟨.of_statement_delete _ (fun h => h) (by simp [hphase]) rfl,
      ready_of_late (by simp [goto]) (by simp [goto]) (fun _ => rfl), rfl⟩
  | claiming =>
    simp only [step, hphase, Option.some.injEq, Prod.mk.injEq] at h
    obtain ⟨rfl, rfl⟩ := h
    have hhooked : A.hooked ≠ true := fun h =>
      absurd (hready.hooked h) (by simp [hphase, Phase.isLate])
    cases hclaimed : o.claimed with
    | false =>
      exact ⟨.of_not_isCall (fun h => h) (by simp [hphase]) rfl,
        ready_of_late (by simp [goto]) (by simp [goto]) (fun _ => rfl), rfl⟩
    | true =>
      exact ⟨.claim hphase rfl,
        ready_of_late (by simp [goto]) (by simp [goto]) (fun h => absurd h hhooked), rfl⟩
  | originating =>
    simp only [step, hphase, Option.some.injEq, Prod.mk.injEq] at h
    obtain ⟨rfl, rfl⟩ := h
    have hhooked := hcall (by simp [hphase, Phase.isCall])
    exact ⟨.call hphase rfl, ready_of_late (by simp [goto]) (by simp [goto])
      (fun h => absurd (hhooked.symm.trans h) (by simp)), rfl⟩
  | dialing =>
    simp only [step, hphase] at h
    have hhooked := hcall (by simp [hphase, Phase.isCall])
    have hcalling : A.Calling := .inr (by simp [hphase, Phase.isCall])
    split_ifs at h
    · simp only [Option.some.injEq, Prod.mk.injEq] at h
      obtain ⟨rfl, rfl⟩ := h
      exact ⟨.quiet (fun _ => hcalling) (by simp [hphase]),
        ready_of_late (by simp) (by simp)
          (fun h => absurd (hhooked.symm.trans h) (by simp)), rfl⟩
    · simp only [Option.some.injEq, Prod.mk.injEq] at h
      obtain ⟨rfl, rfl⟩ := h
      have hafter := afterFailure_cases A.profile A.attemptNumber o.cause
      refine ⟨.quiet (fun _ => hcalling) (iff_of_false ?_ (by simp [hphase])),
        ready_of_late ?_ ?_ (fun h => absurd (hhooked.symm.trans h) (by simp)), rfl⟩
      all_goals
        show afterFailure A.profile A.attemptNumber o.cause ≠ _
        rcases hafter with h | h | h <;> simp [h]
  | dropping =>
    simp only [step, hphase, Option.some.injEq, Prod.mk.injEq] at h
    obtain ⟨rfl, rfl⟩ := h
    exact ⟨.of_statement_delete _ (fun h => h) (by simp [hphase]) rfl,
      ready_of_late (by simp [goto]) (by simp [goto]) (fun _ => rfl), rfl⟩
  | requeueing =>
    simp only [step, hphase, Option.some.injEq, Prod.mk.injEq] at h
    obtain ⟨rfl, rfl⟩ := h
    have hhooked := hcall (by simp [hphase, Phase.isCall])
    refine ⟨?_, ready_of_late (by simp [goto]) (by simp [goto]) (fun _ => rfl), rfl⟩
    cases o.ended with
    | false => exact .of_not_isCall (fun h => h) (by simp [hphase]) rfl
    | true =>
      exact .requeue _ (.inr (by simp [hphase, Phase.isCall])) (not_calling hhooked rfl)
        (by simp [hphase])
  | answered =>
    simp only [step, hphase, Option.some.injEq, Prod.mk.injEq] at h
    obtain ⟨rfl, rfl⟩ := h
    exact ⟨.quiet (fun _ => .inr (by simp [hphase, Phase.isCall])) (by simp [hphase]),
      ready_of_late (by simp) (by simp) (fun _ => rfl), rfl⟩
  | confirming =>
    simp only [step, hphase] at h
    split_ifs at h
    all_goals
      simp only [Option.some.injEq, Prod.mk.injEq] at h
      obtain ⟨rfl, rfl⟩ := h
      exact moves_late rfl rfl (by simp [hphase]) rfl
  | comparing buf =>
    simp only [step, hphase] at h
    split_ifs at h
    all_goals
      simp only [Option.some.injEq, Prod.mk.injEq] at h
      obtain ⟨rfl, rfl⟩ := h
      exact moves_late rfl rfl (by simp [hphase]) rfl
  | playing | collecting | transferring | reporting =>
    simp only [step, hphase, Option.some.injEq, Prod.mk.injEq] at h
    obtain ⟨rfl, rfl⟩ := h
    exact moves_late rfl rfl (by simp [hphase]) rfl
  | finished =>
    simp only [step, hphase] at h
    cases h

/-- A thread comes to its call by a claim that is executed. -/
lemma Attempt.claimed_of_step (hphase : A.phase = .claiming) (hphase' : A'.phase = .originating)
    (h : A.step released o = some (A', changes)) : o.claimed = true := by
  simp only [step, hphase, Option.some.injEq, Prod.mk.injEq] at h
  obtain ⟨rfl, -⟩ := h
  cases hclaimed : o.claimed with
  | true => rfl
  | false => simp [goto, hclaimed] at hphase'

/-- A step of a state handler. -/
lemma Attempt.changeState_moves {state : ChannelState} {executed : Bool} {now : ℤ}
    (hready : A.Ready env) (h : A.changeState released state executed now = some (A', changes)) :
    Moves A A' changes ∧ A'.Ready env ∧ A'.account = A.account := by
  obtain ⟨old, -, -, hchanged⟩ := changeState_changed h
  cases hchanged with
  | unhooked hhooked => exact ⟨.quiet (fun h => h) Iff.rfl, ⟨hready.1, hready.2, hready.3⟩, rfl⟩
  | removed hhooked _ =>
    have hlate := hready.hooked hhooked
    exact ⟨.of_statement_delete executed (fun h => absurd h (by simp [free]))
        (fun h => absurd hlate (by simp [h, Phase.isLate])) (Phase.isCall_of_isLate hlate),
      ⟨hready.1, hready.2, fun _ => hlate⟩, rfl⟩
  | requeued hhooked _ _ =>
    have hlate := hready.hooked hhooked
    have hcall := Phase.isCall_of_isLate hlate
    have hphase : A.phase ≠ .originating := fun h => absurd hlate (by simp [h, Phase.isLate])
    refine ⟨?_, ⟨hready.1, hready.2, fun _ => hlate⟩, rfl⟩
    cases executed with
    | false => exact .of_not_isCall (fun h => absurd h (by simp [free])) hphase hcall
    | true => exact .requeue _ (.inl hhooked) (not_calling rfl hcall) hphase
  | kept hhooked _ _ =>
    have hlate := hready.hooked hhooked
    exact ⟨.quiet (fun _ => .inl hhooked) Iff.rfl, ⟨hready.1, hready.2, fun _ => hlate⟩, rfl⟩

end

/-! ## What a row has to do with the attempts -/

section

variable {env : Env} {attempts : List Attempt} {A A' : Attempt} {row : Row} {rows : List Row}
  {i : ℕ}

/-- A row whose account has a call is in progress, and it counts the calls, of which one can be yet
to come. -/
structure Row.Ok (env : Env) (attempts : List Attempt) (row : Row) : Prop where
  inProgress : ∀ A ∈ attempts, A.Calling → A.account = row.account →
    row.originateState = .callInProgress
  owed : ∀ A ∈ attempts, A.phase = .originating → A.account = row.account →
    row.calls + 1 = row.attemptCount
  counted : row.calls = row.attemptCount ∨
    ∃ A ∈ attempts, A.phase = .originating ∧ A.account = row.account
  bounded : row.attemptCount ≤ (env.attempts row.account).toNat

lemma Attempt.calling_of_originating (h : A.phase = .originating) : A.Calling :=
  .inr (by simp [h, Phase.isCall])

lemma Row.Ok.calls_le (h : row.Ok env attempts) : row.calls ≤ (env.attempts row.account).toNat := by
  refine le_trans ?_ h.bounded
  rcases h.counted with hcounted | ⟨A, hA, hphase, haccount⟩
  · exact le_of_eq hcounted
  · exact Nat.le_of_succ_le (le_of_eq (h.owed A hA hphase haccount))

/-- A row of an account without a call. -/
lemma Row.Ok.free (h : row.Ok env attempts)
    (hfree : ∀ A ∈ attempts, A.Calling → A.account ≠ row.account) :
    row.calls = row.attemptCount := by
  rcases h.counted with hcounted | ⟨A, hA, hphase, haccount⟩
  · exact hcounted
  · exact absurd haccount (hfree A hA (A.calling_of_originating hphase))

/-- An attempt goes on that does not change the row. -/
lemma Row.Ok.set (h : row.Ok env attempts) (hi : attempts[i]? = some A)
    (haccount : A'.account = A.account) (hcalling : A'.Calling → A.Calling)
    (hphase : A'.phase = .originating ↔ A.phase = .originating) :
    row.Ok env (attempts.set i A') where
  inProgress B hB hcall hrow := by
    rcases mem_set_cases hB with rfl | ⟨j, -, hj⟩
    · exact h.inProgress A (List.mem_of_getElem? hi) (hcalling hcall) (haccount ▸ hrow)
    · exact h.inProgress B (List.mem_of_getElem? hj) hcall hrow
  owed B hB hB' hrow := by
    rcases mem_set_cases hB with rfl | ⟨j, -, hj⟩
    · exact h.owed A (List.mem_of_getElem? hi) (hphase.mp hB') (haccount ▸ hrow)
    · exact h.owed B (List.mem_of_getElem? hj) hB' hrow
  counted := by
    rcases h.counted with hcounted | ⟨B, hB, hB', hrow⟩
    · exact .inl hcounted
    · obtain ⟨j, hj⟩ := List.mem_iff_getElem?.mp hB
      by_cases hne : j = i
      · subst hne
        obtain rfl : A = B := Option.some.inj (hi.symm.trans hj)
        exact .inr ⟨A', mem_set_self hi A', hphase.mpr hB', haccount.trans hrow⟩
      · exact .inr ⟨B, mem_set_of_ne hj hne A', hB', hrow⟩
  bounded := h.bounded

/-- An attempt goes on with the rows of another account. -/
lemma Row.Ok.set_of_ne (h : row.Ok env attempts) (hi : attempts[i]? = some A)
    (haccount : A'.account = A.account) (hrow : row.account ≠ A.account) :
    row.Ok env (attempts.set i A') where
  inProgress B hB hcall hB' := by
    rcases mem_set_cases hB with rfl | ⟨j, -, hj⟩
    · exact absurd (hB'.symm.trans haccount) hrow
    · exact h.inProgress B (List.mem_of_getElem? hj) hcall hB'
  owed B hB hphase hB' := by
    rcases mem_set_cases hB with rfl | ⟨j, -, hj⟩
    · exact absurd (hB'.symm.trans haccount) hrow
    · exact h.owed B (List.mem_of_getElem? hj) hphase hB'
  counted := by
    rcases h.counted with hcounted | ⟨B, hB, hphase, hB'⟩
    · exact .inl hcounted
    · obtain ⟨j, hj⟩ := List.mem_iff_getElem?.mp hB
      have hne : j ≠ i := by
        rintro rfl
        obtain rfl : A = B := Option.some.inj (hi.symm.trans hj)
        exact hrow hB'.symm
      exact .inr ⟨B, mem_set_of_ne hj hne A', hphase, hB'⟩
  bounded := h.bounded

/-- The rows after an UPDATE. -/
lemma mem_updateRows {account : Account} {f : Row → Row} {row' : Row}
    (h : row' ∈ updateRows account f rows) :
    ∃ row ∈ rows, (row.account = account ∧ row' = f row) ∨
      (row.account ≠ account ∧ row' = row) := by
  obtain ⟨row, hrow, rfl⟩ := List.mem_map.mp h
  refine ⟨row, hrow, ?_⟩
  by_cases haccount : row.account = account
  · exact .inl ⟨haccount, if_pos haccount⟩
  · exact .inr ⟨haccount, if_neg haccount⟩

/-- **What an attempt does keeps the rows in order.**  A claim has to find them waiting. -/
lemma rows_ok_of_moves {changes : List Change} (hmoves : Moves A A' changes)
    (hready : A.Ready env) (haccount : A'.account = A.account) (hi : attempts[i]? = some A)
    (halone : Exclusive Attempt.Calling Attempt.account attempts)
    (hclaim : A.phase = .claiming → A'.phase = .originating → ∀ row ∈ rows,
      row.account = A.account → row.originateState = .waitForNextAttempt ∧
        row.attemptCount = A.attemptNumber)
    (h : ∀ row ∈ rows, row.Ok env attempts) :
    ∀ row ∈ changes.foldl Change.exec rows, row.Ok env (attempts.set i A') := by
  have hothers : ∀ {B}, A.Calling → B ∈ attempts.set i A' → B.Calling →
      B.account = A.account → B = A' := by
    intro B hcalling hB hcall hrow
    rcases mem_set_cases hB with rfl | ⟨j, hne, hj⟩
    · rfl
    · exact absurd hrow (halone.eq_of_mem hi hcalling hj hcall hne)
  cases hmoves with
  | quiet hcalling hphase => exact fun row hrow => (h row hrow).set hi haccount hcalling hphase
  | delete hcalling hphase =>
    intro row hrow
    exact (h row (List.mem_filter.mp hrow).1).set hi haccount hcalling hphase
  | claim hphase hphase' =>
    intro row' hrow'
    obtain ⟨row, hrow, ⟨hsame, rfl⟩ | ⟨hne, rfl⟩⟩ := mem_updateRows hrow'
    · obtain ⟨hwaiting, hnumber⟩ := hclaim hphase hphase' row hrow hsame
      have hfree : ∀ B ∈ attempts, B.Calling → B.account ≠ row.account := by
        intro B hB hcall hB'
        exact absurd (((h row hrow).inProgress B hB hcall hB').symm.trans hwaiting) (by simp)
      have hcounted := (h row hrow).free hfree
      have hlimit := hready.claiming hphase
      refine ⟨fun _ _ _ _ => rfl, fun _ _ _ _ => congrArg (· + 1) hcounted,
        .inr ⟨A', mem_set_self hi A', hphase', haccount.trans hsame.symm⟩, ?_⟩
      show row.attemptCount + 1 ≤ (env.attempts row.account).toNat
      rw [hnumber, hsame]
      omega
    · exact (h row' hrow).set_of_ne hi haccount hne
  | requeue nextAttempt hcalling hcalling' hphase =>
    intro row' hrow'
    obtain ⟨row, hrow, ⟨hsame, rfl⟩ | ⟨hne, rfl⟩⟩ := mem_updateRows hrow'
    · have hnone : ∀ B ∈ attempts.set i A', B.Calling → B.account ≠ row.account := by
        intro B hB hcall hB'
        exact hcalling' (hothers hcalling hB hcall (hB'.trans hsame) ▸ hcall)
      refine ⟨fun B hB hcall hB' => absurd hB' (hnone B hB hcall),
        fun B hB hB' hB'' => absurd hB'' (hnone B hB (B.calling_of_originating hB')), .inl ?_,
        (h row hrow).bounded⟩
      rcases (h row hrow).counted with hcounted | ⟨B, hB, hB', hB''⟩
      · exact hcounted
      · obtain ⟨j, hj⟩ := List.mem_iff_getElem?.mp hB
        have hji := halone j i B A hj hi (B.calling_of_originating hB') hcalling
          (hB''.trans hsame)
        subst hji
        obtain rfl : A = B := Option.some.inj (hi.symm.trans hj)
        exact absurd hB' hphase
    · exact (h row' hrow).set_of_ne hi haccount hne
  | call hphase hphase' =>
    intro row' hrow'
    obtain ⟨row, hrow, ⟨hsame, rfl⟩ | ⟨hne, rfl⟩⟩ := mem_updateRows hrow'
    · have hcalling := A.calling_of_originating hphase
      have hA := List.mem_of_getElem? hi
      refine ⟨fun _ _ _ _ => (h row hrow).inProgress A hA hcalling hsame.symm, ?_,
        .inl ((h row hrow).owed A hA hphase hsame.symm), (h row hrow).bounded⟩
      intro B hB hB' hB''
      obtain rfl := hothers hcalling hB (B.calling_of_originating hB') (hB''.trans hsame)
      exact absurd (hphase'.symm.trans hB') (by simp)
    · exact (h row' hrow).set_of_ne hi haccount hne

end

/-! ## The invariant -/

section

variable {env : Env} {s s' : System} {action : Action} {A A' : Attempt} {changes : List Change}
  {i : ℕ}

structure Inv (env : Env) (s : System) : Prop where
  configs : s.configs.Matches env
  ready : ∀ A ∈ s.attempts, A.Ready env
  alone : Exclusive Attempt.Calling Attempt.account s.attempts
  rows : ∀ row ∈ s.rows, row.Ok env s.attempts

lemma inv_init (env : Env) : Inv env .init where
  configs := init_matches
  ready A hA := absurd hA (by simp [System.init])
  alone i j A B hi := by simp [System.init] at hi
  rows row hrow := absurd hrow (by simp [System.init])

lemma Inv.oneAtATime (h : Inv env s) : OneAtATime env s := by
  refine ⟨h.alone.mono ?_, fun row hrow => (h.rows row hrow).calls_le⟩
  intro A hphase
  exact .inr (by simp [hphase, Phase.isCall])

/-- An attempt goes on as `Moves` allows. -/
lemma Inv.moves (h : Inv env s) (hi : s.attempts[i]? = some A) (hmoves : Moves A A' changes)
    (hready : A'.Ready env) (haccount : A'.account = A.account)
    (hclaim : A.phase = .claiming → A'.phase = .originating →
      s.Waiting A.account A.attemptNumber) :
    Inv env (s.setAttempt i (A', changes)) where
  configs := h.configs
  ready B hB := by
    rcases mem_set_cases hB with rfl | ⟨j, -, hj⟩
    · exact hready
    · exact h.ready B (List.mem_of_getElem? hj)
  alone := by
    cases hmoves with
    | quiet hcalling _ | delete hcalling _ => exact h.alone.set_of_imp hi hcalling haccount
    | requeue _ hcalling _ _ => exact h.alone.set_of_imp hi (fun _ => hcalling) haccount
    | call hphase _ =>
      exact h.alone.set_of_imp hi (fun _ => A.calling_of_originating hphase) haccount
    | claim hphase hphase' =>
      -- The claim has found a waiting row, so that nobody has a call.
      obtain ⟨⟨row, hrow, hsame⟩, hwaiting⟩ := hclaim hphase hphase'
      refine h.alone.set_of_free ?_
      intro B hB hcalling hB'
      have hprogress := (h.rows row hrow).inProgress B hB hcalling
        (hB'.trans (haccount.trans hsame.symm))
      exact absurd (hprogress.symm.trans (hwaiting row hrow hsame).1) (by simp)
  rows := rows_ok_of_moves hmoves (h.ready A (List.mem_of_getElem? hi)) haccount hi h.alone
    (fun hphase hphase' => (hclaim hphase hphase').2) h.rows

/-- The threads that the runtime thread starts. -/
lemma Inv.tick (h : Inv env s) (now : ℤ) : Inv env (s.tick now) := by
  have hnew : ∀ A ∈ (due now s.rows).map Attempt.ofRow, A.phase = .starting ∧ A.hooked = false := by
    intro A hA
    obtain ⟨row, -, rfl⟩ := List.mem_map.mp hA
    exact ⟨rfl, rfl⟩
  have hcalling : ∀ A ∈ (due now s.rows).map Attempt.ofRow, ¬ A.Calling := by
    intro A hA
    obtain ⟨hphase, hhooked⟩ := hnew A hA
    exact Attempt.not_calling hhooked (by rw [hphase]; rfl)
  refine ⟨h.configs, ?_, h.alone.append hcalling, ?_⟩
  · intro A hA
    rcases List.mem_append.mp hA with hA | hA
    · exact h.ready A hA
    · obtain ⟨hphase, hhooked⟩ := hnew A hA
      exact Attempt.ready_of_late (by simp [hphase]) (by simp [hphase])
        (fun h => absurd (hhooked.symm.trans h) (by simp))
  · intro row hrow
    refine ⟨?_, ?_, ?_, (h.rows row hrow).bounded⟩
    · intro A hA hcall
      rcases List.mem_append.mp hA with hA | hA
      · exact (h.rows row hrow).inProgress A hA hcall
      · exact absurd hcall (hcalling A hA)
    · intro A hA hphase
      rcases List.mem_append.mp hA with hA | hA
      · exact (h.rows row hrow).owed A hA hphase
      · exact absurd (A.calling_of_originating hphase) (hcalling A hA)
    · rcases (h.rows row hrow).counted with hcounted | ⟨A, hA, hA'⟩
      · exact .inl hcounted
      · exact .inr ⟨A, List.mem_append_left _ hA, hA'⟩

/-- A user profile is set up. -/
lemma Inv.prepare (h : Inv env s) (hi : s.attempts[i]? = some A) (hphase : A.phase = .starting) :
    Inv env { s with
      configs := (setUserProfile env s.configs A.account).1
      attempts := s.attempts.set i (A.prepare (setUserProfile env s.configs A.account).2) } := by
  obtain ⟨hconfigs, hplain⟩ :=
    And.intro (setUserProfile_matches h.configs A.account) (settings_eq h.configs A.account)
  have hhooked : A.hooked = true → False := fun hhooked =>
    absurd ((h.ready A (List.mem_of_getElem? hi)).hooked hhooked) (by simp [hphase, Phase.isLate])
  generalize setUserProfile env s.configs A.account = result at hconfigs hplain ⊢
  obtain ⟨configs, profile⟩ := result
  have hmoves : Moves A (A.prepare profile) [] := by
    cases profile with
    | none => exact .of_not_isCall (fun h => h) (by simp [hphase]) rfl
    | some profile => exact .of_not_isCall (fun h => h) (by simp [hphase]) rfl
  have hready : (A.prepare profile).Ready env := by
    cases profile with
    | none =>
      exact Attempt.ready_of_late (by simp [Attempt.prepare, Attempt.goto])
        (by simp [Attempt.prepare, Attempt.goto]) (fun h => (hhooked h).elim)
    | some profile =>
      refine ⟨fun _ => ?_, fun h => absurd h (by simp [Attempt.prepare]),
        fun h => (hhooked h).elim⟩
      show profile.attempts = env.attempts A.account
      rw [Env.attempts]
      cases hsettings : env.settings A.account with
      | none =>
        rw [hsettings] at hplain
        cases hplain
      | some settings =>
        rw [hsettings] at hplain
        have hsame : profile.plain = settings.plain := Option.some.inj hplain
        have hattempts := congrArg UserProfile.attempts hsame
        exact hattempts
  have haccount : (A.prepare profile).account = A.account := by
    cases profile <;> rfl
  have hinv := h.moves hi hmoves hready haccount (fun h => absurd (hphase.symm.trans h) (by simp))
  exact ⟨hconfigs, hinv.ready, hinv.alone, hinv.rows⟩

/-- A new message is queued. -/
lemma Inv.event (h : Inv env s) (account : Account) (action : Text) (cancelled : Bool) :
    Inv env (s.event env account action cancelled) := by
  have hconfigs := setUserProfile_matches h.configs account
  rw [System.event]
  generalize setUserProfile env s.configs account = result at hconfigs ⊢
  obtain ⟨configs, profile⟩ := result
  cases profile with
  | none => exact ⟨hconfigs, h.ready, h.alone, h.rows⟩
  | some profile =>
    dsimp only
    split_ifs <;> exact ⟨hconfigs, h.ready, h.alone, h.rows⟩

/-- A statement for a new message.  A row is inserted when its account has no call. -/
lemma Inv.queueing (h : Inv env s) {j : ℕ} {executed : Bool} {found now : ℤ} {Q Q' : Queueing}
    (hstep : Q.step s.rows executed found now = some (Q', changes))
    (htidy : Q.phase = .inserting → executed = true →
      ∀ A ∈ s.attempts, A.account = Q.account → ¬ A.Calling) :
    Inv env (s.setQueueing j (Q', changes)) := by
  refine ⟨h.configs, h.ready, h.alone, ?_⟩
  show ∀ row ∈ changes.foldl Change.exec s.rows, row.Ok env s.attempts
  cases hphase : Q.phase with
  | counting =>
    simp only [Queueing.step, hphase, Option.some.injEq, Prod.mk.injEq] at hstep
    obtain ⟨-, rfl⟩ := hstep
    exact h.rows
  | deleting =>
    simp only [Queueing.step, hphase, Option.some.injEq, Prod.mk.injEq] at hstep
    obtain ⟨-, rfl⟩ := hstep
    cases executed with
    | false => exact h.rows
    | true => exact fun row hrow => h.rows row (List.mem_filter.mp hrow).1
  | inserting =>
    simp only [Queueing.step, hphase, Option.some.injEq, Prod.mk.injEq] at hstep
    obtain ⟨-, rfl⟩ := hstep
    cases executed with
    | false => exact h.rows
    | true =>
      intro row hrow
      rcases List.mem_append.mp hrow with hrow | hrow
      · exact h.rows row hrow
      · obtain rfl := List.mem_singleton.mp hrow
        have hfree := htidy hphase rfl
        exact ⟨fun A hA hcall hA' => absurd hcall (hfree A hA hA'),
          fun A hA hA' hA'' => absurd (A.calling_of_originating hA') (hfree A hA hA''),
          .inl rfl, Nat.zero_le _⟩
  | done =>
    simp only [Queueing.step, hphase] at hstep
    cases hstep

/-- **Tidy steps keep the invariant.** -/
lemma next_inv (h : Inv env s) (htidy : Tidy s action) (hnext : next env s action = some s') :
    Inv env s' := by
  cases action with
  | tick now =>
    obtain rfl := Option.some.inj hnext
    exact h.tick now
  | thread i o =>
    obtain ⟨A, hi, hthread⟩ := Option.bind_eq_some_iff.mp hnext
    rw [System.thread] at hthread
    split_ifs at hthread with hphase
    · obtain rfl := Option.some.inj hthread
      exact h.prepare hi hphase
    · obtain ⟨⟨A', changes⟩, hstep, rfl⟩ := Option.map_eq_some_iff.mp hthread
      obtain ⟨hmoves, hready, haccount⟩ := Attempt.step_moves (h.ready A (List.mem_of_getElem? hi))
        hstep
      refine h.moves hi hmoves hready haccount fun hclaiming horiginating => ?_
      exact htidy A hi hclaiming (Attempt.claimed_of_step hclaiming horiginating hstep)
  | channel i state executed now =>
    obtain ⟨A, hi, hchannel⟩ := Option.bind_eq_some_iff.mp hnext
    obtain ⟨⟨A', changes⟩, hstep, rfl⟩ := Option.map_eq_some_iff.mp hchannel
    obtain ⟨hmoves, hready, haccount⟩ :=
      Attempt.changeState_moves (h.ready A (List.mem_of_getElem? hi)) hstep
    have hphase := (Attempt.changeState_frame hstep).1
    refine h.moves hi hmoves hready haccount fun hclaiming horiginating => ?_
    rw [hphase, hclaiming] at horiginating
    cases horiginating
  | event account action cancelled =>
    obtain rfl := Option.some.inj hnext
    exact h.event account action cancelled
  | queueing j executed found now =>
    obtain ⟨Q, hj, hqueueing⟩ := Option.bind_eq_some_iff.mp hnext
    obtain ⟨⟨Q', changes⟩, hstep, rfl⟩ := Option.map_eq_some_iff.mp hqueueing
    exact h.queueing hstep (htidy Q hj)
  | load name =>
    obtain rfl := Option.some.inj hnext
    exact ⟨(getProfile_matches h.configs name).1, h.ready, h.alone, h.rows⟩
  | unload name =>
    obtain rfl := Option.some.inj hnext
    exact ⟨destroyProfile_matches h.configs name, h.ready, h.alone, h.rows⟩

/-- **One voicemail callback at a time.** -/
theorem one_callback_at_a_time {actions : List Action}
    (htidy : Always (next env) Tidy .init actions)
    (hrun : run (next env) .init actions = some s) : OneAtATime env s :=
  (run_invariant_of_always (fun _ _ _ h htidy hnext => next_inv h htidy hnext) (inv_init env) htidy
    hrun).oneAtATime

end

/-! ## Two polls before a claim -/

/-- The row is selected twice before it is claimed. -/
def twoPolls : List Action :=
  newMessage alice ++
    [.tick 1, .tick 1, .thread 0 noAnswer, .thread 1 noAnswer, .thread 0 noAnswer,
      .thread 1 noAnswer, .thread 0 noAnswer, .thread 1 noAnswer, .thread 0 noAnswer,
      .thread 1 noAnswer]

/-- One attempt after the other, until there is none left. -/
def threeCalls : List Action :=
  newMessage alice ++ [.tick 1] ++ List.replicate 6 (.thread 0 noAnswer) ++
    [.tick 31] ++ List.replicate 6 (.thread 1 noAnswer) ++
    [.tick 31] ++ List.replicate 6 (.thread 2 noAnswer)

theorem one_callback_at_a_time_threeCalls :
    ∃ s, run (next threeAttempts) .init threeCalls = some s ∧ OneAtATime threeAttempts s :=
  have h : run (next threeAttempts) .init threeCalls = some _ := rfl
  ⟨_, h, one_callback_at_a_time (by decide +kernel) h⟩

/-- Two threads dial for the same row. -/
theorem two_polls_call_twice : ¬ ∀ (env : Env) (actions : List Action) (s : System),
    run (next env) .init actions = some s → OneAtATime env s := by
  intro h
  obtain ⟨hone, -⟩ := h threeAttempts twoPolls _ rfl
  exact absurd (hone 0 1 _ _ rfl rfl rfl rfl rfl) (by simp)

end FreeswitchContrib.VoicemailOriginate
