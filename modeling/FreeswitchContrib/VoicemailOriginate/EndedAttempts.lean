import FreeswitchContrib.Library.Exclusion
import FreeswitchContrib.VoicemailOriginate.Originate

/-!
# What an attempt leaves in the queue

The row of an attempt is moved by the thread, for some causes, and by the state handler, for an
answered call.  An attempt of its own, with what the database and the core answer to it, is followed
to its end.

* `Settled` — the row is gone, or waits for the next attempt.
* `GivesBack` — the answers for which it comes to that.
* **`row_given_back_iff`** — an attempt that is over has settled its row exactly then.
-/

namespace FreeswitchContrib.VoicemailOriginate

open Exclusion Interleaving

/-! ## The statement -/

/-- There is nobody to call, or nowhere to transfer the call to, or the profile is disabled. -/
def UserProfile.Undialable (profile : UserProfile) : Prop :=
  profile.profileEnabled = false ∨ zstr profile.dialString = true ∨ zstr profile.transfer = true

/-- The rows of the account wait for the next attempt, if they are still there.  With a database
that answers, those of a user who can never be called are gone. -/
def Settled (profile : Option UserProfile) (account : Account) (o : Outcome) (rows : List Row) :
    Prop :=
  (∀ row ∈ rows, row.account = account → row.originateState = .waitForNextAttempt) ∧
    ∀ p, profile = some p → p.Undialable → o.ended = true → ∀ row ∈ rows, row.account ≠ account

/-- The answers to a claim, to the call and to the last statement that give the row back. -/
def Outcome.GivesBack (o : Outcome) : Prop :=
  o.claimed = false ∨
    o.ended = true ∧
      (o.originated = true ∨ o.cause = .originatorCancel ∨ o.cause = .noAnswer)

/-- The attempt gives its row back: without a user, a user profile that is enabled or an attempt that
is left at once, and with them if the user can be called and the answers are such.  For a user who
cannot be called only a database that does not answer is an excuse. -/
def GivesBack (profile : Option UserProfile) (attemptNumber : ℕ) (o : Outcome) : Prop :=
  ∀ p, profile = some p → p.profileEnabled = true → attemptNumber < p.attempts →
    (p.Undialable → o.ended = false) ∧ (¬ p.Undialable → o.GivesBack)

/-- The thread has ended, and so has its channel if there is one. -/
def Attempt.Over (A : Attempt) : Prop :=
  A.phase = .finished ∧ ∀ state ∈ A.channel, state.isOver = true

/-- The attempt is over. -/
def System.Ended (s : System) (i : ℕ) : Prop := ∀ A ∈ s.attempts[i]?, A.Over

instance (A : Attempt) : Decidable A.Over := inferInstanceAs (Decidable (_ ∧ _))

instance (s : System) (i : ℕ) : Decidable (s.Ended i) :=
  inferInstanceAs (Decidable (∀ A ∈ s.attempts[i]?, A.Over))

/-- Only this attempt goes on, with these answers.  The states of its channel are those that come
after the state handler was installed. -/
def Following (i : ℕ) (o : Outcome) (s : System) : Action → Prop
  | .thread j o' => j = i ∧ o' = o
  | .channel j _ executed _ =>
    j = i ∧ executed = o.ended ∧
      ∀ A : Attempt, s.attempts[i]? = some A → A.phase.isLate = true
  | _ => False

instance (i : ℕ) (o : Outcome) (s : System) :
    (action : Action) → Decidable (Following i o s action)
  | .thread j o' => inferInstanceAs (Decidable (j = i ∧ o' = o))
  | .channel j _ executed _ => inferInstanceAs (Decidable (j = i ∧ executed = o.ended ∧
      ∀ A ∈ s.attempts[i]?, A.phase.isLate = true))
  | .tick _ | .event _ _ _ | .queueing _ _ _ _ | .load _ | .unload _ => .isFalse fun h => h

/-- An attempt for a row that was selected. -/
structure Selected (s : System) (i : ℕ) (row : Row) : Prop where
  attempt : s.attempts[i]? = some (.ofRow row)
  mem : row ∈ s.rows
  waiting : ∀ r ∈ s.rows, r.account = row.account → r.originateState = .waitForNextAttempt

/-! ## The rows of an account -/

section

variable {account : Account} {state state' : OriginateState} {rows : List Row} {o : Outcome}
  {profile : Option UserProfile} {p : UserProfile} {n : ℕ}

/-- The account has rows, and they are in this state. -/
def InState (account : Account) (state : OriginateState) (rows : List Row) : Prop :=
  (∃ row ∈ rows, row.account = account) ∧
    ∀ row ∈ rows, row.account = account → row.originateState = state

/-- An UPDATE of the rows of an account. -/
lemma InState.update (h : InState account state rows) {f : Row → Row}
    (haccount : ∀ row, (f row).account = row.account)
    (hstate : ∀ row, row.originateState = state → (f row).originateState = state') :
    InState account state' (updateRows account f rows) := by
  obtain ⟨⟨row, hrow, hrow'⟩, hall⟩ := h
  refine ⟨⟨f row, List.mem_map.mpr ⟨row, hrow, if_pos hrow'⟩, (haccount row).trans hrow'⟩, ?_⟩
  intro row' hmem hsame
  obtain ⟨row, hrow, rfl⟩ := List.mem_map.mp hmem
  by_cases hrow' : row.account = account
  · rw [if_pos hrow']
    exact hstate row (hall row hrow hrow')
  · rw [if_neg hrow'] at hsame
    exact absurd hsame hrow'

lemma InState.claim (h : InState account state rows) :
    InState account .callInProgress (Change.exec rows (.claim account)) :=
  h.update (fun _ => rfl) (fun _ _ => rfl)

lemma InState.requeue (h : InState account state rows) (nextAttempt : ℤ) :
    InState account .waitForNextAttempt (Change.exec rows (.requeue account nextAttempt)) :=
  h.update (fun _ => rfl) (fun _ _ => rfl)

lemma InState.call (h : InState account state rows) :
    InState account state (Change.exec rows (.call account)) :=
  h.update (fun _ => rfl) (fun _ h => h)

/-- After a DELETE. -/
lemma settled_delete (rows : List Row) :
    Settled profile account o (Change.exec rows (.delete account)) := by
  have hgone : ∀ row ∈ Change.exec rows (.delete account), row.account ≠ account := by
    intro row hrow
    simpa using (List.mem_filter.mp hrow).2
  exact ⟨fun row hrow hsame => absurd hsame (hgone row hrow), fun _ _ _ _ => hgone⟩

/-- Waiting rows are settled, unless their user can never be called. -/
lemma InState.settled_iff (h : InState account .waitForNextAttempt rows) :
    Settled profile account o rows ↔
      ∀ p, profile = some p → p.Undialable → o.ended = false := by
  constructor
  · rintro ⟨-, hgone⟩ p hp hundialable
    obtain ⟨row, hrow, hsame⟩ := h.1
    cases hended : o.ended with
    | false => rfl
    | true => exact absurd hsame (hgone p hp hundialable hended row hrow)
  · intro hnever
    refine ⟨h.2, fun p hp hundialable hended => ?_⟩
    exact absurd (hended.symm.trans (hnever p hp hundialable)) (by simp)

lemma InState.not_settled (h : InState account .callInProgress rows) :
    ¬ Settled profile account o rows := by
  rintro ⟨hwaiting, -⟩
  obtain ⟨⟨row, hrow, hsame⟩, hall⟩ := h
  exact absurd ((hall row hrow hsame).symm.trans (hwaiting row hrow hsame)) (by simp)

/-! ## When the row is given back -/

lemma givesBack_of_removed (h : ∀ p, profile = some p →
    p.profileEnabled = false ∨ p.attempts ≤ n) : GivesBack profile n o := by
  intro p hp henabled hlimit
  rcases h p hp with h | h
  · exact absurd (henabled.symm.trans h) (by simp)
  · exact absurd hlimit (Int.not_lt.mpr h)

/-- The user can be called, and has an attempt left. -/
structure Dials (profile : Option UserProfile) (n : ℕ) (p : UserProfile) : Prop where
  eq : profile = some p
  enabled : p.profileEnabled = true
  limit : n < p.attempts
  dialable : ¬ p.Undialable

lemma Dials.givesBack_iff (h : Dials profile n p) : GivesBack profile n o ↔ o.GivesBack := by
  constructor
  · exact fun hback => (hback p h.eq h.enabled h.limit).2 h.dialable
  · intro hback q hq _ _
    obtain rfl : p = q := Option.some.inj (h.eq.symm.trans hq)
    exact ⟨fun hundialable => absurd hundialable h.dialable, fun _ => hback⟩

lemma Dials.settled_of_inState (h : Dials profile n p)
    (hrows : InState account .waitForNextAttempt rows) : Settled profile account o rows := by
  refine hrows.settled_iff.mpr fun q hq hundialable => ?_
  obtain rfl : p = q := Option.some.inj (h.eq.symm.trans hq)
  exact absurd hundialable h.dialable

/-- A call that gives the row back with its last statement. -/
lemma Dials.settled_iff_of_ended (h : Dials profile n p) (hclaimed : o.claimed = true)
    (hcause : o.originated = true ∨ o.cause = .originatorCancel ∨ o.cause = .noAnswer)
    {change : Change} (hrows : InState account .callInProgress rows)
    (hchange : Settled profile account o (change.exec rows)) :
    Settled profile account o ((statement o.ended change).foldl Change.exec rows) ↔
      GivesBack profile n o := by
  rw [h.givesBack_iff, Outcome.GivesBack]
  cases hended : o.ended with
  | true => exact iff_of_true hchange (.inr ⟨rfl, hcause⟩)
  | false => exact iff_of_false hrows.not_settled (by simp [hclaimed])

end

/-! ## Following an attempt -/

section

variable {env : Env} {profile : Option UserProfile} {o : Outcome} {A A' : Attempt}
  {rows : List Row} {changes : List Change} {released : ℕ → Bool}

/-- How far an attempt is, and what it has done to the rows of its account. -/
inductive Stage (profile : Option UserProfile) (o : Outcome) (A : Attempt) (rows : List Row) : Prop
  | starting (hphase : A.phase = .starting) (hhooked : A.hooked = false)
      (hrows : InState A.account .waitForNextAttempt rows)
  | deciding (hphase : A.phase = .deciding) (hhooked : A.hooked = false)
      (hprofile : profile = some A.profile) (hrows : InState A.account .waitForNextAttempt rows)
  | removing (hphase : A.phase = .removing) (hhooked : A.hooked = false)
      (hremoved : ∀ p, profile = some p → p.profileEnabled = false ∨ p.attempts ≤ A.attemptNumber)
      (hrows : InState A.account .waitForNextAttempt rows)
  | claiming (hphase : A.phase = .claiming) (hhooked : A.hooked = false) (p : UserProfile)
      (hdials : Dials profile A.attemptNumber p)
      (hrows : InState A.account .waitForNextAttempt rows)
  | calling (hphase : A.phase = .originating ∨ A.phase = .dialing) (hhooked : A.hooked = false)
      (p : UserProfile) (hdials : Dials profile A.attemptNumber p) (hclaimed : o.claimed = true)
      (hrows : InState A.account .callInProgress rows)
  | failed (hphase : A.phase = .dropping ∨ A.phase = .requeueing) (hhooked : A.hooked = false)
      (p : UserProfile) (hdials : Dials profile A.attemptNumber p) (hclaimed : o.claimed = true)
      (hcause : o.originated = true ∨ o.cause = .originatorCancel ∨ o.cause = .noAnswer)
      (hrows : InState A.account .callInProgress rows)
  | answered (hphase : A.phase = .answered)
      (hchannel : ∀ state, A.channel = some state → state.isOver = false)
      (hsession : A.channel ≠ none)
      (p : UserProfile) (hdials : Dials profile A.attemptNumber p) (hclaimed : o.claimed = true)
      (horiginated : o.originated = true) (hrows : InState A.account .callInProgress rows)
  | hooked (hphase : A.phase.isLate = true) (hhooked : A.hooked = true)
      (hchannel : ∀ state, A.channel = some state → state.isOver = false)
      (hsession : A.channel ≠ none)
      (p : UserProfile) (hdials : Dials profile A.attemptNumber p) (hclaimed : o.claimed = true)
      (horiginated : o.originated = true) (hrows : InState A.account .callInProgress rows)
  | done (hphase : A.phase.isLate = true) (hhooked : A.hooked = false)
      (hiff : Settled profile A.account o rows ↔ GivesBack profile A.attemptNumber o)

lemma Stage.settled_iff (h : Stage profile o A rows) (hover : A.Over) :
    Settled profile A.account o rows ↔ GivesBack profile A.attemptNumber o := by
  obtain ⟨hfinished, hchannel⟩ := hover
  cases h with
  | done _ _ hiff => exact hiff
  | hooked _ _ hlive hsession =>
    obtain ⟨state, hstate⟩ := Option.ne_none_iff_exists'.mp hsession
    exact absurd ((hlive state hstate).symm.trans (hchannel state hstate)) (by simp)
  | starting hphase | deciding hphase | removing hphase | claiming hphase | answered hphase =>
    exact absurd (hphase.symm.trans hfinished) (by simp)
  | calling hphase | failed hphase =>
    rcases hphase with hphase | hphase <;> exact absurd (hphase.symm.trans hfinished) (by simp)

/-- A step behind the call leaves the channel and the queue alone. -/
lemma Attempt.step_late (hphase : A.phase.isLate = true)
    (h : A.step released o = some (A', changes)) :
    changes = [] ∧ A'.phase.isLate = true ∧ A'.hooked = A.hooked ∧ A'.channel = A.channel ∧
      A'.account = A.account ∧ A'.attemptNumber = A.attemptNumber := by
  cases hwhere : A.phase with
  | confirming =>
    simp only [step, hwhere] at h
    split_ifs at h
    all_goals
      simp only [Option.some.injEq, Prod.mk.injEq] at h
      obtain ⟨rfl, rfl⟩ := h
      exact ⟨rfl, rfl, rfl, rfl, rfl, rfl⟩
  | comparing buf =>
    simp only [step, hwhere] at h
    split_ifs at h
    all_goals
      simp only [Option.some.injEq, Prod.mk.injEq] at h
      obtain ⟨rfl, rfl⟩ := h
      exact ⟨rfl, rfl, rfl, rfl, rfl, rfl⟩
  | playing | collecting | transferring | reporting =>
    simp only [step, hwhere, Option.some.injEq, Prod.mk.injEq] at h
    obtain ⟨rfl, rfl⟩ := h
    exact ⟨rfl, rfl, rfl, rfl, rfl, rfl⟩
  | finished =>
    simp only [step, hwhere] at h
    cases h
  | starting | deciding | removing | claiming | originating | dialing | dropping | requeueing
  | answered => simp [hwhere, Phase.isLate] at hphase

/-- The last of the attempt's statements before the call. -/
lemma Stage.removed (hhooked : A.hooked = false)
    (hremoved : ∀ p, profile = some p → p.profileEnabled = false ∨ p.attempts ≤ A.attemptNumber)
    (hrows : InState A.account .waitForNextAttempt rows) :
    Stage profile o (A.goto .finished)
      ((statement o.ended (.delete A.account)).foldl Change.exec rows) := by
  refine .done rfl hhooked (iff_of_true ?_ (givesBack_of_removed hremoved))
  cases hended : o.ended with
  | true => exact settled_delete rows
  | false => exact hrows.settled_iff.mpr fun _ _ _ => hended

/-- What a thread has decided with its user profile. -/
lemma Stage.decided {strings : List Str} (hhooked : A.hooked = false)
    (hprofile : profile = some A.profile) (hrows : InState A.account .waitForNextAttempt rows) :
    Stage profile o ((A.access released strings).goto
      (Attempt.decision A.profile A.attemptNumber)) rows := by
  have hsame : ∀ {p}, profile = some p → A.profile = p :=
    fun hp => Option.some.inj (hprofile.symm.trans hp)
  rw [Attempt.decision]
  split_ifs with hdisabled hlimit hdialable
  · refine .removing rfl hhooked (fun p hp => ?_) hrows
    exact .inl (hsame hp ▸ hdisabled)
  · refine .removing rfl hhooked (fun p hp => ?_) hrows
    exact .inr (hsame hp ▸ hlimit)
  · refine .claiming rfl hhooked A.profile ⟨hprofile, by simpa using hdisabled,
      Int.not_le.mp hlimit, ?_⟩ hrows
    simp only [Bool.and_eq_true, Bool.not_eq_true'] at hdialable
    simp [UserProfile.Undialable, hdisabled, hdialable]
  · -- There is nobody to call, and the row is left as it is.
    have hundialable : A.profile.Undialable := by
      simp only [Bool.and_eq_true, Bool.not_eq_true', not_and, Bool.not_eq_false] at hdialable
      cases hdial : zstr A.profile.dialString with
      | true => exact .inr (.inl hdial)
      | false => exact .inr (.inr (hdialable hdial))
    refine .done rfl hhooked (hrows.settled_iff.trans ⟨?_, ?_⟩)
    · intro hended p hp _ _
      have := hsame hp
      subst this
      exact ⟨hended A.profile hp, fun h => absurd hundialable h⟩
    · intro hback p hp hundialable
      have := hsame hp
      subst this
      exact (hback A.profile hp (by simpa using hdisabled) (Int.not_le.mp hlimit)).1 hundialable

/-- What a call has come to. -/
lemma Stage.called {strings : List Str} (hhooked : A.hooked = false) {p : UserProfile}
    (hdials : Dials profile A.attemptNumber p) (hclaimed : o.claimed = true)
    (hfailed : o.originated = false) (hrows : InState A.account .callInProgress rows) :
    Stage profile o (((A.access released strings).setCause o.cause).goto
      (Attempt.afterFailure A.profile A.attemptNumber o.cause)) rows := by
  have hstuck : o.cause ≠ .originatorCancel → o.cause ≠ .noAnswer →
      Stage profile o (((A.access released strings).setCause o.cause).goto .reporting) rows := by
    intro hcancel hnoAnswer
    refine .done rfl hhooked (iff_of_false hrows.not_settled ?_)
    show ¬ GivesBack profile A.attemptNumber o
    rw [hdials.givesBack_iff]
    simp [Outcome.GivesBack, hclaimed, hfailed, hcancel, hnoAnswer]
  cases hcause : o.cause with
  | originatorCancel =>
    exact .failed (.inl rfl) hhooked p hdials hclaimed (.inr (.inl hcause)) hrows
  | noAnswer =>
    rw [Attempt.afterFailure]
    split_ifs
    · exact .failed (.inl rfl) hhooked p hdials hclaimed (.inr (.inr hcause)) hrows
    · exact .failed (.inr rfl) hhooked p hdials hclaimed (.inr (.inr hcause)) hrows
  | none | success | normalClearing | other code =>
    rw [hcause] at hstuck
    exact hstuck (by simp) (by simp)

/-- **A thread goes on.** -/
lemma Stage.step (h : Stage profile o A rows) (hstep : A.step released o = some (A', changes)) :
    Stage profile o A' (changes.foldl Change.exec rows) := by
  cases h with
  | starting hphase =>
    simp only [Attempt.step, hphase] at hstep
    cases hstep
  | deciding hphase hhooked hprofile hrows =>
    simp only [Attempt.step, hphase, Option.some.injEq, Prod.mk.injEq] at hstep
    obtain ⟨rfl, rfl⟩ := hstep
    exact .decided hhooked hprofile hrows
  | removing hphase hhooked hremoved hrows =>
    simp only [Attempt.step, hphase, Option.some.injEq, Prod.mk.injEq] at hstep
    obtain ⟨rfl, rfl⟩ := hstep
    exact .removed hhooked hremoved hrows
  | claiming hphase hhooked p hdials hrows =>
    simp only [Attempt.step, hphase, Option.some.injEq, Prod.mk.injEq] at hstep
    obtain ⟨rfl, rfl⟩ := hstep
    cases hclaimed : o.claimed with
    | true => exact .calling (.inl rfl) hhooked p hdials hclaimed hrows.claim
    | false =>
      exact .done rfl hhooked (iff_of_true (hdials.settled_of_inState hrows)
        (hdials.givesBack_iff.mpr (.inl hclaimed)))
  | calling hphase hhooked p hdials hclaimed hrows =>
    rcases hphase with hphase | hphase
    · simp only [Attempt.step, hphase, Option.some.injEq, Prod.mk.injEq] at hstep
      obtain ⟨rfl, rfl⟩ := hstep
      exact .calling (.inr rfl) hhooked p hdials hclaimed hrows.call
    · simp only [Attempt.step, hphase] at hstep
      split_ifs at hstep with horiginated
      · simp only [Option.some.injEq, Prod.mk.injEq] at hstep
        obtain ⟨rfl, rfl⟩ := hstep
        refine .answered rfl ?_ (by simp) p hdials hclaimed horiginated hrows
        intro state hstate
        obtain rfl := Option.some.inj hstate
        rfl
      · simp only [Option.some.injEq, Prod.mk.injEq] at hstep
        obtain ⟨rfl, rfl⟩ := hstep
        exact .called hhooked hdials hclaimed (by simpa using horiginated) hrows
  | failed hphase hhooked p hdials hclaimed hcause hrows =>
    rcases hphase with hphase | hphase
    · simp only [Attempt.step, hphase, Option.some.injEq, Prod.mk.injEq] at hstep
      obtain ⟨rfl, rfl⟩ := hstep
      exact .done rfl hhooked
        (hdials.settled_iff_of_ended hclaimed hcause hrows (settled_delete rows))
    · simp only [Attempt.step, hphase, Option.some.injEq, Prod.mk.injEq] at hstep
      obtain ⟨rfl, rfl⟩ := hstep
      exact .done rfl hhooked (hdials.settled_iff_of_ended hclaimed hcause hrows
        (hdials.settled_of_inState (hrows.requeue _)))
  | answered hphase hchannel hsession p hdials hclaimed horiginated hrows =>
    simp only [Attempt.step, hphase, Option.some.injEq, Prod.mk.injEq] at hstep
    obtain ⟨rfl, rfl⟩ := hstep
    exact .hooked rfl rfl hchannel hsession p hdials hclaimed horiginated hrows
  | hooked hphase hhooked hchannel hsession p hdials hclaimed horiginated hrows =>
    obtain ⟨rfl, hphase', hhooked', hchannel', haccount, hnumber⟩ :=
      Attempt.step_late hphase hstep
    exact .hooked hphase' (hhooked'.trans hhooked) (hchannel' ▸ hchannel) (hchannel' ▸ hsession) p
      (hnumber ▸ hdials) hclaimed horiginated (haccount ▸ hrows)
  | done hphase hhooked hiff =>
    obtain ⟨rfl, hphase', hhooked', -, haccount, hnumber⟩ := Attempt.step_late hphase hstep
    refine .done hphase' (hhooked'.trans hhooked) ?_
    rw [haccount, hnumber]
    exact hiff

/-- **The channel goes on.** -/
lemma Stage.changeState {state : ChannelState} {now : ℤ} (h : Stage profile o A rows)
    (hlate : A.phase.isLate = true)
    (hstep : A.changeState released state o.ended now = some (A', changes)) :
    Stage profile o A' (changes.foldl Change.exec rows) := by
  obtain ⟨old, hold, hbecome, hchanged⟩ := Attempt.changeState_changed hstep
  cases h with
  | hooked hphase hhooked hchannel hsession p hdials hclaimed horiginated hrows =>
    cases hchanged with
    | unhooked hunhooked => exact absurd (hhooked.symm.trans hunhooked) (by simp)
    | removed _ _ =>
      exact .done hphase rfl
        (hdials.settled_iff_of_ended hclaimed (.inl horiginated) hrows (settled_delete rows))
    | requeued _ _ _ =>
      exact .done hphase rfl (hdials.settled_iff_of_ended hclaimed (.inl horiginated) hrows
        (hdials.settled_of_inState (hrows.requeue _)))
    | kept _ _ hstate =>
      have hlive : state.isOver = false :=
        (ChannelState.canBecome_of_not_isOver (hchannel old hold) hbecome).resolve_left hstate
      refine .hooked hphase ?_ ?_ (by simp) p hdials hclaimed horiginated hrows
      · cases state <;> first | rfl | cases hlive
      · intro state' hstate'
        obtain rfl := Option.some.inj hstate'
        exact hlive
  | done hphase hhooked hiff =>
    cases hchanged with
    | unhooked _ => exact .done hphase hhooked hiff
    | removed h _ | requeued h _ _ | kept h _ _ => exact absurd (hhooked.symm.trans h) (by simp)
  | starting hphase | deciding hphase | removing hphase | claiming hphase | answered hphase =>
    simp [hphase, Phase.isLate] at hlate
  | calling hphase | failed hphase =>
    rcases hphase with hphase | hphase <;> simp [hphase, Phase.isLate] at hlate

/-- The user profile is set up. -/
lemma Stage.prepare (h : Stage profile o A rows) (hphase : A.phase = .starting) :
    Stage profile o (A.prepare profile) rows := by
  cases h with
  | starting _ hhooked hrows =>
    cases profile with
    | none => exact .removing rfl hhooked (fun p hp => absurd hp (by simp)) hrows
    | some p => exact .deciding rfl hhooked rfl hrows
  | deciding h | removing h | claiming h | answered h =>
    exact absurd (hphase.symm.trans h) (by simp)
  | calling h | failed h => rcases h with h | h <;> exact absurd (hphase.symm.trans h) (by simp)
  | hooked h | done h => simp [hphase, Phase.isLate] at h

end

/-! ## Runs -/

section

variable {env : Env} {s s' : System} {i : ℕ} {row : Row} {o : Outcome} {action : Action}
  {actions : List Action} {profile : Option UserProfile} {account : Account} {n : ℕ}

/-- Where the run of an attempt is. -/
structure Follows (env : Env) (profile : Option UserProfile) (account : Account) (n i : ℕ)
    (o : Outcome) (s : System) (A : Attempt) : Prop where
  attempt : s.attempts[i]? = some A
  account_eq : A.account = account
  number_eq : A.attemptNumber = n
  profile_eq : A.phase = .starting → (setUserProfile env s.configs account).2 = profile
  stage : Stage profile o A s.rows

/-- The attempt has gone on. -/
lemma Follows.set {A A' : Attempt} (h : Follows env profile account n i o s A)
    (hframe : A'.phase ≠ .starting ∧ A'.account = A.account ∧
      A'.attemptNumber = A.attemptNumber)
    {rows : List Row} {configs : Configs} (hstage : Stage profile o A' rows) :
    Follows env profile account n i o
      { s with rows := rows, attempts := s.attempts.set i A', configs := configs } A' where
  attempt := by
    obtain ⟨hlt, -⟩ := List.getElem?_eq_some_iff.mp h.attempt
    exact List.getElem?_set_self hlt
  account_eq := hframe.2.1.trans h.account_eq
  number_eq := hframe.2.2.trans h.number_eq
  profile_eq hstarting := absurd hstarting hframe.1
  stage := hstage

/-- A step of the run. -/
lemma follows_next (h : ∃ A, Follows env profile account n i o s A)
    (hfollowing : Following i o s action) (hnext : next env s action = some s') :
    ∃ A, Follows env profile account n i o s' A := by
  obtain ⟨A, hA⟩ := h
  cases action with
  | thread j o' =>
    obtain ⟨rfl, rfl⟩ := hfollowing
    obtain ⟨B, hB, hthread⟩ := Option.bind_eq_some_iff.mp hnext
    obtain rfl : A = B := Option.some.inj (hA.attempt.symm.trans hB)
    rw [System.thread] at hthread
    split_ifs at hthread with hphase
    · obtain rfl := Option.some.inj hthread
      have hprofile := hA.profile_eq hphase
      rw [← hA.account_eq] at hprofile
      rw [hprofile]
      refine ⟨_, hA.set ?_ (hA.stage.prepare hphase)⟩
      cases profile with
      | none => exact ⟨by simp [Attempt.prepare, Attempt.goto], rfl, rfl⟩
      | some p => exact ⟨by simp [Attempt.prepare], rfl, rfl⟩
    · obtain ⟨⟨A', changes⟩, hstep, rfl⟩ := Option.map_eq_some_iff.mp hthread
      exact ⟨A', hA.set (Attempt.step_frame hstep) (hA.stage.step hstep)⟩
  | channel j state executed now =>
    obtain ⟨rfl, rfl, hlate⟩ := hfollowing
    obtain ⟨B, hB, hchannel⟩ := Option.bind_eq_some_iff.mp hnext
    obtain rfl : A = B := Option.some.inj (hA.attempt.symm.trans hB)
    obtain ⟨⟨A', changes⟩, hstep, rfl⟩ := Option.map_eq_some_iff.mp hchannel
    obtain ⟨hphase, hframe⟩ := Attempt.changeState_frame hstep
    have hlate := hlate A hA.attempt
    refine ⟨A', hA.set ⟨?_, hframe⟩ (hA.stage.changeState hlate hstep)⟩
    intro hstarting
    rw [← hphase, hstarting] at hlate
    cases hlate
  | tick _ | event _ _ _ | queueing _ _ _ _ | load _ | unload _ => exact hfollowing.elim

/-- **An attempt that is over has settled its row exactly for these answers.** -/
theorem row_given_back_iff (hselected : Selected s i row)
    (hfollowing : Always (next env) (Following i o) s actions)
    (hrun : run (next env) s actions = some s')
    (hended : s'.Ended i) :
    Settled (setUserProfile env s.configs row.account).2 row.account o s'.rows ↔
      GivesBack (setUserProfile env s.configs row.account).2 row.attemptCount o := by
  have hstart : ∃ A, Follows env (setUserProfile env s.configs row.account).2 row.account
      row.attemptCount i o s A :=
    ⟨.ofRow row, hselected.attempt, rfl, rfl, fun _ => rfl,
      .starting rfl rfl ⟨⟨row, hselected.mem, rfl⟩, hselected.waiting⟩⟩
  obtain ⟨A, hA⟩ := run_invariant_of_always (fun _ _ _ => follows_next) hstart hfollowing hrun
  have hiff := hA.stage.settled_iff (hended A hA.attempt)
  rw [hA.account_eq, hA.number_eq] at hiff
  exact hiff

end

/-! ## A busy user -/

/-- A row, and the thread that was started for it. -/
def oneAttempt (row : Row) : System := { System.init with rows := [row], attempts := [.ofRow row] }

lemma selected_oneAttempt (row : Row) (hwaiting : row.originateState = .waitForNextAttempt) :
    Selected (oneAttempt row) 0 row where
  attempt := rfl
  mem := List.mem_singleton_self row
  waiting r hr _ := by
    obtain rfl := List.mem_singleton.mp hr
    exact hwaiting

def firstRow : Row where
  account := alice
  created := 0
  nextAttempt := 1

/-- The call is transferred, and hung up when the thread has ended. -/
def answeredRun : List Action :=
  List.replicate 9 (.thread 0 answeredCall) ++
    [.channel 0 .routing true 2, .channel 0 .hangup true 3]

theorem row_given_back_iff_answered : ∃ s', run (next threeAttempts) (oneAttempt firstRow)
    answeredRun = some s' ∧
      (Settled (setUserProfile threeAttempts .init alice).2 alice answeredCall s'.rows ↔
        GivesBack (setUserProfile threeAttempts .init alice).2 0 answeredCall) :=
  have h : run (next threeAttempts) (oneAttempt firstRow) answeredRun = some _ := rfl
  ⟨_, h, row_given_back_iff (selected_oneAttempt firstRow rfl) (by decide +kernel) h
    (by decide +kernel)⟩

/-- `SWITCH_CAUSE_USER_BUSY` -/
def busy : Outcome := { noAnswer with cause := .other 17 }

/-- The row of a busy user stays in progress. -/
theorem busy_row_stuck : ¬ ∀ (env : Env) (s s' : System) (i : ℕ) (row : Row) (o : Outcome)
    (actions : List Action), Selected s i row → Always (next env) (Following i o) s actions →
      run (next env) s actions = some s' → s'.Ended i →
        Settled (setUserProfile env s.configs row.account).2 row.account o s'.rows := by
  intro h
  obtain ⟨hwaiting, -⟩ := h threeAttempts (oneAttempt firstRow) _ 0 firstRow busy
    (List.replicate 6 (.thread 0 busy)) (selected_oneAttempt firstRow rfl) (by decide +kernel) rfl
    (by decide +kernel)
  exact absurd (hwaiting _ (List.mem_singleton_self _) rfl) (by decide)

end FreeswitchContrib.VoicemailOriginate
