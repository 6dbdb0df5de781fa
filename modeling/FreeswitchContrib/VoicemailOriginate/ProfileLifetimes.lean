import FreeswitchContrib.Library.Exclusion
import FreeswitchContrib.VoicemailOriginate.EndedAttempts

/-!
# The lifetime of a user profile

A thread allocates its user profile, goes on to read it, and hands it to the state handler of the
answered call, which frees it; where no call is answered nobody does.  The strings that it has
borrowed go with the configuration profile.

* `Outlives` — the user profile is freed once, when its users are through with it, and no string of
  it is read from a pool that was destroyed.
* `Orderly` — what a thread, a state handler and an unload would have to wait for.
* **`profile_outlives_its_users`** — orderly steps keep to it.
-/

namespace FreeswitchContrib.VoicemailOriginate

open Exclusion Interleaving

/-! ## The statement -/

/-- The user profile was freed at most once, exactly once when the attempt is over, and neither it
nor one of its strings was used too late. -/
structure Attempt.Outlives (A : Attempt) : Prop where
  faults : A.faults = []
  atMostOnce : A.numFreed ≤ 1
  freed : A.allocated = true → A.Over → A.numFreed = 1

/-- The strings that a confirmed call reads. -/
def UserProfile.confirmStrings (profile : UserProfile) : List Str :=
  if profile.enableConfirm then [profile.confirmPlayFile, profile.confirmDigits] else []

/-- The strings of its user profile that a thread may still read. -/
def Attempt.remaining (A : Attempt) : List Str :=
  let called := A.profile.dialString.toList ++ [A.profile.callerName] ++ A.profile.confirmStrings
  match A.phase with
  | .deciding => A.profile.transfer.toList ++ called
  | .claiming | .originating | .dialing => called
  | .answered | .confirming => A.profile.confirmStrings
  | .playing => [A.profile.confirmPlayFile, A.profile.confirmDigits]
  | .collecting | .comparing _ => [A.profile.confirmDigits]
  | _ => []

/-- The state handler frees the user profile at this state. -/
def Attempt.Frees (A : Attempt) (state : ChannelState) : Prop := A.Done ∨ state = .hangup

/-- A thread with a user profile gets its call answered and installs its state handler before the
channel ends; the state handler frees the user profile when the thread has ended; and a
configuration profile is not unloaded while a thread has strings of it to read. -/
def Orderly (s : System) : Action → Prop
  | .thread i o => ∀ A ∈ s.attempts[i]?,
      (A.phase = .deciding → Attempt.dials A.profile A.attemptNumber = true) ∧
      (A.phase = .claiming → o.claimed = true) ∧
      (A.phase = .dialing → o.originated = true) ∧
      (A.phase = .answered → ∀ state ∈ A.channel, state.isOver = false)
  | .channel i state _ _ => ∀ A ∈ s.attempts[i]?,
      A.hooked = true → A.Frees state → A.phase = .finished
  | .unload name => ∀ loaded ∈ s.configs.profileHash name,
      ∀ A ∈ s.attempts, ∀ str ∈ A.remaining, str.pool ≠ .config loaded.id
  | _ => True

instance (A : Attempt) : Decidable A.Done := inferInstanceAs (Decidable (_ ∨ _))

instance (A : Attempt) (state : ChannelState) : Decidable (A.Frees state) :=
  inferInstanceAs (Decidable (_ ∨ _))

instance (s : System) : (action : Action) → Decidable (Orderly s action)
  | .thread i o => inferInstanceAs (Decidable (∀ A ∈ s.attempts[i]?,
      (A.phase = .deciding → Attempt.dials A.profile A.attemptNumber = true) ∧
      (A.phase = .claiming → o.claimed = true) ∧
      (A.phase = .dialing → o.originated = true) ∧
      (A.phase = .answered → ∀ state ∈ A.channel, state.isOver = false)))
  | .channel i state _ _ => inferInstanceAs (Decidable (∀ A ∈ s.attempts[i]?,
      A.hooked = true → A.Frees state → A.phase = .finished))
  | .unload name => inferInstanceAs (Decidable (∀ loaded ∈ s.configs.profileHash name,
      ∀ A ∈ s.attempts, ∀ str ∈ A.remaining, str.pool ≠ .config loaded.id))
  | .tick _ | .event _ _ _ | .queueing _ _ _ _ | .load _ => .isTrue trivial

/-! ## The strings of a user profile -/

section

variable {env : Env} {configs configs' : Configs} {profile : UserProfile} {account : Account}

/-- The configuration profiles in `profile_hash` are there, each once. -/
structure Configs.Valid (configs : Configs) : Prop where
  alive : ∀ name loaded, configs.profileHash name = some loaded →
    loaded.id < configs.numLoaded ∧ configs.released loaded.id = false
  unique : ∀ name name' loaded loaded', configs.profileHash name = some loaded →
    configs.profileHash name' = some loaded' → loaded.id = loaded'.id → name = name'
  released : ∀ id, configs.released id = true → id < configs.numLoaded

lemma valid_init : Configs.init.Valid where
  alive name loaded h := absurd h (by simp [Configs.init])
  unique name name' loaded loaded' h := absurd h (by simp [Configs.init])
  released id h := absurd h (by simp [Configs.init])

variable (env) in
/-- A profile that is asked for is there. -/
lemma getProfile_valid (h : configs.Valid) (name : Text) :
    (getProfile env configs name).1.Valid ∧
      (getProfile env configs name).1.released = configs.released ∧
        ∀ loaded, (getProfile env configs name).2 = some loaded →
          configs.released loaded.id = false := by
  rw [getProfile]
  cases hhash : configs.profileHash name with
  | some loaded =>
    refine ⟨h, rfl, fun loaded' hloaded => ?_⟩
    obtain rfl : loaded = loaded' := Option.some.inj hloaded
    exact (h.alive name loaded hhash).2
  | none =>
    show (loadProfile env configs name).1.Valid ∧ (loadProfile env configs name).1.released = _ ∧
      ∀ loaded, (loadProfile env configs name).2 = some loaded → _
    rw [loadProfile]
    cases hfile : env.file name with
    | none => exact ⟨h, rfl, fun loaded hloaded => absurd hloaded (by simp)⟩
    | some contents =>
      have hfresh : configs.released configs.numLoaded = false := by
        cases hreleased : configs.released configs.numLoaded with
        | false => rfl
        | true => exact absurd (h.released _ hreleased) (Nat.lt_irrefl _)
      have hold : ∀ name' loaded, Function.update configs.profileHash name
          (some ⟨configs.numLoaded, contents⟩) name' = some loaded →
          (name' = name ∧ loaded.id = configs.numLoaded) ∨
            (name' ≠ name ∧ configs.profileHash name' = some loaded) := by
        intro name' loaded hloaded
        by_cases hname : name' = name
        · rw [hname, Function.update_self] at hloaded
          exact .inl ⟨hname, by rw [← Option.some.inj hloaded]⟩
        · rw [Function.update_of_ne hname] at hloaded
          exact .inr ⟨hname, hloaded⟩
      refine ⟨⟨?_, ?_, ?_⟩, rfl, ?_⟩
      · intro name' loaded hloaded
        rcases hold name' loaded hloaded with ⟨-, hid⟩ | ⟨-, hloaded⟩
        · rw [hid]
          exact ⟨Nat.lt_succ_self _, hfresh⟩
        · exact ⟨Nat.lt_succ_of_lt (h.alive name' loaded hloaded).1,
            (h.alive name' loaded hloaded).2⟩
      · intro name₁ name₂ loaded₁ loaded₂ h₁ h₂ hid
        rcases hold name₁ loaded₁ h₁ with ⟨hname₁, hid₁⟩ | ⟨-, hold₁⟩
        · rcases hold name₂ loaded₂ h₂ with ⟨hname₂, -⟩ | ⟨-, hold₂⟩
          · exact hname₁.trans hname₂.symm
          · exact absurd (h.alive name₂ loaded₂ hold₂).1 (by omega)
        · rcases hold name₂ loaded₂ h₂ with ⟨-, hid₂⟩ | ⟨-, hold₂⟩
          · exact absurd (h.alive name₁ loaded₁ hold₁).1 (by omega)
          · exact h.unique name₁ name₂ loaded₁ loaded₂ hold₁ hold₂ hid
      · exact fun id hid => Nat.lt_succ_of_lt (h.released id hid)
      · intro loaded hloaded
        obtain rfl := Option.some.inj hloaded
        exact hfresh

lemma destroyProfile_valid (h : configs.Valid) (name : Text) :
    (destroyProfile configs name).Valid := by
  rw [destroyProfile]
  cases hhash : configs.profileHash name with
  | none => exact h
  | some loaded =>
    have hold : ∀ name' loaded', Function.update configs.profileHash name none name' = some loaded' →
        name' ≠ name ∧ configs.profileHash name' = some loaded' := by
      intro name' loaded' hloaded
      by_cases hname : name' = name
      · rw [hname, Function.update_self] at hloaded
        cases hloaded
      · rw [Function.update_of_ne hname] at hloaded
        exact ⟨hname, hloaded⟩
    refine ⟨?_, ?_, ?_⟩
    · intro name' loaded' hloaded
      obtain ⟨hne, hloaded⟩ := hold name' loaded' hloaded
      obtain ⟨hlt, halive⟩ := h.alive name' loaded' hloaded
      refine ⟨hlt, ?_⟩
      show Function.update configs.released loaded.id true loaded'.id = false
      rw [Function.update_of_ne, halive]
      exact fun hid => hne (h.unique name' name loaded' loaded hloaded hhash hid)
    · intro name₁ name₂ loaded₁ loaded₂ h₁ h₂
      exact h.unique name₁ name₂ loaded₁ loaded₂ (hold name₁ loaded₁ h₁).2 (hold name₂ loaded₂ h₂).2
    · intro id hid
      by_cases heq : id = loaded.id
      · exact heq ▸ (h.alive name loaded hhash).1
      · change Function.update configs.released loaded.id true id = true at hid
        rw [Function.update_of_ne heq] at hid
        exact h.released id hid

/-- None of the strings that a thread reads is in a pool that was destroyed. -/
structure UserProfile.Readable (released : ℕ → Bool) (profile : UserProfile) : Prop where
  transfer : ∀ str ∈ profile.transfer, str.releasedIn released = none
  dialString : ∀ str ∈ profile.dialString, str.releasedIn released = none
  callerName : profile.callerName.releasedIn released = none
  confirmPlayFile : profile.confirmPlayFile.releasedIn released = none
  confirmDigits : profile.confirmDigits.releasedIn released = none

variable {released : ℕ → Bool}

lemma readable_defaults : UserProfile.defaults.Readable released where
  transfer str hstr := absurd hstr (by simp [UserProfile.defaults])
  dialString str hstr := absurd hstr (by simp [UserProfile.defaults])
  callerName := rfl
  confirmPlayFile := rfl
  confirmDigits := rfl

lemma readable_borrow {loaded : Loaded} (h : profile.Readable released)
    (halive : released loaded.id = false) : (profile.borrow loaded).Readable released := by
  have hstr : ∀ text, (⟨text, .config loaded.id⟩ : Str).releasedIn released = none := by
    intro text
    simp [Str.releasedIn, halive]
  have hget : ∀ (text : Option Text) (default : Str), default.releasedIn released = none →
      ((text.map fun s => ⟨s, .config loaded.id⟩).getD default).releasedIn released = none := by
    intro text default hdefault
    cases text with
    | none => exact hdefault
    | some text => exact hstr text
  have hor : ∀ (text : Option Text) (default : Option Str),
      (∀ str ∈ default, str.releasedIn released = none) →
      ∀ str ∈ (text.map fun s => (⟨s, .config loaded.id⟩ : Str)).orElse fun _ => default,
        str.releasedIn released = none := by
    intro text default hdefault str hmem
    cases text with
    | none => exact hdefault str hmem
    | some text =>
      obtain rfl := Option.some.inj hmem
      exact hstr text
  exact ⟨hor _ _ h.transfer, hor _ _ h.dialString, hget _ _ (hget _ _ h.callerName),
    hget _ _ h.confirmPlayFile, hget _ _ h.confirmDigits⟩

lemma readable_override (h : profile.Readable released) (param : Param) :
    (profile.override param).Readable released := by
  have hown : ∀ str ∈ (some ⟨param.val, .profile⟩ : Option Str),
      str.releasedIn released = none := by
    intro str hstr
    obtain rfl := Option.some.inj hstr
    rfl
  unfold UserProfile.override
  cases Setting.ofVar param.var with
  | none => exact h
  | some setting =>
    cases setting with
    | callerName => exact { h with callerName := rfl }
    | dialString => exact { h with dialString := hown }
    | transfer => exact { h with transfer := hown }
    | confirmDigits => exact { h with confirmDigits := rfl }
    | confirmPlayFile => exact { h with confirmPlayFile := rfl }
    | enabled | enableConfirm | timeout | wait | firstWait | callerNumber | userVariables | attempts
    | confirmWait => exact { h with }

/-- Nothing is unloaded, what is loaded is there, and the user profile can be read. -/
def SetUp (released : ℕ → Bool) (state : Configs × UserProfile) : Prop :=
  state.1.Valid ∧ state.1.released = released ∧ state.2.Readable released

lemma setUp_applyProfile {state : Configs × UserProfile} (h : SetUp released state)
    (param : Param) : SetUp released (applyProfile env state param) := by
  obtain ⟨hvalid, hreleased, hreadable⟩ := h
  rw [applyProfile]
  split_ifs
  · obtain ⟨hvalid', hreleased', halive⟩ := getProfile_valid env hvalid param.val
    generalize getProfile env state.1 param.val = found at hvalid' hreleased' halive ⊢
    obtain ⟨configs, loaded⟩ := found
    cases loaded with
    | none => exact ⟨hvalid', hreleased'.trans hreleased, hreadable⟩
    | some loaded =>
      exact ⟨hvalid', hreleased'.trans hreleased,
        readable_borrow hreadable (hreleased ▸ halive loaded rfl)⟩
  · exact ⟨hvalid, hreleased, hreadable⟩

variable (env) in
lemma setUp_foldl (params : List Param) {state : Configs × UserProfile}
    (h : SetUp released state) : SetUp released (params.foldl (applyProfile env) state) := by
  induction params generalizing state with
  | nil => exact h
  | cons param params ih => exact ih (setUp_applyProfile h param)

lemma readable_foldl (params : List Param) (h : profile.Readable released) :
    (params.foldl UserProfile.override profile).Readable released := by
  induction params generalizing profile with
  | nil => exact h
  | cons param params ih => exact ih (readable_override h param)

variable (env) in
/-- A user profile can be read when it is set up. -/
lemma setUserProfile_readable (h : configs.Valid) (account : Account) :
    (setUserProfile env configs account).1.Valid ∧
      (setUserProfile env configs account).1.released = configs.released ∧
        ∀ profile ∈ (setUserProfile env configs account).2, profile.Readable configs.released := by
  rw [setUserProfile]
  cases env.users account with
  | none => exact ⟨h, rfl, fun profile hprofile => absurd hprofile (by simp)⟩
  | some params =>
    obtain ⟨hvalid, hreleased, hreadable⟩ := setUp_foldl env (params.filter (!·.isEmpty))
      (⟨h, rfl, readable_defaults⟩ : SetUp configs.released (configs, .defaults))
    refine ⟨hvalid, hreleased, fun profile hprofile => ?_⟩
    obtain rfl := Option.some.inj hprofile
    exact readable_foldl _ hreadable

end

/-! ## An attempt and its user profile -/

section

variable {released released' : ℕ → Bool} {o : Outcome} {A A' : Attempt} {strings : List Str}
  {changes : List Change}

/-- A thread has a user profile and no channel with a state handler. -/
def Phase.isEarly : Phase → Bool
  | .deciding | .claiming | .originating | .dialing | .answered => true
  | _ => false

/-- Who has the user profile. -/
inductive Attempt.Lifetime (A : Attempt) : Prop
  | unallocated (hallocated : A.allocated = false) (hfreed : A.numFreed = 0)
      (hhooked : A.hooked = false)
      (hphase : A.phase = .starting ∨ A.phase = .removing ∨ A.phase = .finished)
  | thread (hfreed : A.numFreed = 0) (hhooked : A.hooked = false) (hphase : A.phase.isEarly = true)
      (hchannel : A.phase = .answered → A.channel ≠ none)
  | shared (hfreed : A.numFreed = 0) (hhooked : A.hooked = true) (hphase : A.phase.isLate = true)
      (state : ChannelState) (hchannel : A.channel = some state) (hlive : state.isOver = false)
  | freed (hfreed : A.numFreed = 1) (hhooked : A.hooked = false) (hphase : A.phase = .finished)

/-- The user profile and its strings are there as long as they are read. -/
structure Attempt.Safe (released : ℕ → Bool) (A : Attempt) : Prop where
  faults : A.faults = []
  strings : ∀ str ∈ A.remaining, str.releasedIn released = none
  lifetime : A.Lifetime

lemma Attempt.Safe.outlives (h : A.Safe released) : A.Outlives where
  faults := h.faults
  atMostOnce := by
    cases h.lifetime with
    | unallocated _ hfreed | thread hfreed | shared hfreed => exact hfreed ▸ Nat.zero_le 1
    | freed hfreed => exact hfreed.le
  freed hallocated hover := by
    cases h.lifetime with
    | unallocated hnot => exact absurd (hallocated.symm.trans hnot) (by simp)
    | thread _ _ hphase => simp [hover.1, Phase.isEarly] at hphase
    | shared _ _ _ state hchannel hlive =>
      exact absurd (hlive.symm.trans (hover.2 state hchannel)) (by simp)
    | freed hfreed => exact hfreed

/-- Reading what is there is no fault. -/
lemma Attempt.access_eq_self (hfreed : A.numFreed = 0)
    (hstrings : ∀ str ∈ strings, str.releasedIn released = none) :
    A.access released strings = A := by
  have hnone : strings.filterMap (·.releasedIn released) = [] :=
    List.filterMap_eq_nil_iff.mpr hstrings
  rw [access, if_pos hfreed, hnone, List.map_nil, List.append_nil, List.append_nil]

/-- What can be read of a user profile that is set up. -/
lemma Attempt.Safe.prepare (h : A.Safe released) (hphase : A.phase = .starting)
    {profile : Option UserProfile} (hreadable : ∀ p ∈ profile, p.Readable released) :
    (A.prepare profile).Safe released := by
  have hfree : A.allocated = false ∧ A.numFreed = 0 ∧ A.hooked = false := by
    cases h.lifetime with
    | unallocated hallocated hfreed hhooked => exact ⟨hallocated, hfreed, hhooked⟩
    | thread _ _ h | shared _ _ h => simp [hphase, Phase.isEarly, Phase.isLate] at h
    | freed _ _ h => exact absurd (hphase.symm.trans h) (by simp)
  obtain ⟨hallocated, hfreed, hhooked⟩ := hfree
  cases profile with
  | none =>
    exact ⟨h.faults, fun _ hstr => absurd hstr List.not_mem_nil,
      .unallocated hallocated hfreed hhooked (.inr (.inl rfl))⟩
  | some profile =>
    have hprofile := hreadable profile rfl
    refine ⟨h.faults, ?_, .thread hfreed hhooked rfl (by simp [Attempt.prepare])⟩
    intro str hstr
    change str ∈ profile.transfer.toList ++ (profile.dialString.toList ++ [profile.callerName] ++
      profile.confirmStrings) at hstr
    simp only [UserProfile.confirmStrings, List.mem_append, Option.mem_toList,
      List.mem_singleton] at hstr
    rcases hstr with hstr | (hstr | rfl) | hstr
    · exact hprofile.transfer str hstr
    · exact hprofile.dialString str hstr
    · exact hprofile.callerName
    · split_ifs at hstr
      · simp only [List.mem_cons, List.not_mem_nil, or_false] at hstr
        rcases hstr with rfl | rfl
        · exact hprofile.confirmPlayFile
        · exact hprofile.confirmDigits
      · cases hstr

/-- Before the state handler is installed the thread has the user profile for itself. -/
lemma Attempt.Safe.thread (h : A.Safe released) (hphase : A.phase.isEarly = true) :
    A.numFreed = 0 ∧ A.hooked = false ∧ (A.phase = .answered → A.channel ≠ none) := by
  cases h.lifetime with
  | thread hfreed hhooked _ hchannel => exact ⟨hfreed, hhooked, hchannel⟩
  | unallocated _ _ _ h => rcases h with h | h | h <;> simp [h, Phase.isEarly] at hphase
  | shared _ _ h =>
    cases hwhere : A.phase <;> simp [hwhere, Phase.isEarly, Phase.isLate] at hphase h
  | freed _ _ h => simp [h, Phase.isEarly] at hphase

/-- Behind it the channel is there as long as the thread goes on. -/
lemma Attempt.Safe.shared (h : A.Safe released) (hphase : A.phase.isLate = true)
    (hphase' : A.phase ≠ .finished) :
    A.numFreed = 0 ∧ A.hooked = true ∧
      ∃ state, A.channel = some state ∧ state.isOver = false := by
  cases h.lifetime with
  | shared hfreed hhooked _ state hchannel hlive =>
    exact ⟨hfreed, hhooked, state, hchannel, hlive⟩
  | unallocated _ _ _ h =>
    rcases h with h | h | h
    · simp [h, Phase.isLate] at hphase
    · simp [h, Phase.isLate] at hphase
    · exact absurd h hphase'
  | thread _ _ h =>
    cases hwhere : A.phase <;> simp [hwhere, Phase.isEarly, Phase.isLate] at hphase h
  | freed _ _ h => exact absurd h hphase'

lemma decision_of_dials {profile : UserProfile} {attemptNumber : ℕ}
    (h : Attempt.dials profile attemptNumber = true) :
    Attempt.decision profile attemptNumber = .claiming := by
  simp only [Attempt.dials, Bool.and_eq_true, Bool.not_eq_true', decide_eq_false_iff_not] at h
  obtain ⟨⟨henabled, hlimit⟩, hdial, htransfer⟩ := h
  simp [Attempt.decision, henabled, hlimit, hdial, htransfer]

/-- A step behind the call, with strings that the thread may read, and with fewer after it. -/
lemma Attempt.Safe.late (h : A.Safe released) (hphase : A.phase.isLate = true)
    (hphase' : A.phase ≠ .finished) (hfaults : A'.faults = A.faults)
    (hfreed : A'.numFreed = A.numFreed) (hhooked : A'.hooked = A.hooked)
    (hchannel : A'.channel = A.channel) (hlate : A'.phase.isLate = true)
    (hstrings : ∀ str ∈ A'.remaining, str ∈ A.remaining) : A'.Safe released := by
  obtain ⟨hfree, hhook, state, hstate, hlive⟩ := h.shared hphase hphase'
  exact ⟨hfaults.trans h.faults, fun str hstr => h.strings str (hstrings str hstr),
    .shared (hfreed.trans hfree) (hhooked.trans hhook) hlate state (hchannel.trans hstate) hlive⟩

/-- **A thread goes on in order.** -/
lemma Attempt.Safe.step (h : A.Safe released)
    (hdials : A.phase = .deciding → dials A.profile A.attemptNumber = true)
    (hclaimed : A.phase = .claiming → o.claimed = true)
    (horiginated : A.phase = .dialing → o.originated = true)
    (hlive : A.phase = .answered → ∀ state ∈ A.channel, state.isOver = false)
    (hstep : A.step released o = some (A', changes)) : A'.Safe released := by
  have hstrings := h.strings
  cases hphase : A.phase with
  | starting | finished =>
    simp only [Attempt.step, hphase] at hstep
    cases hstep
  | deciding =>
    obtain ⟨hfreed, hhooked, -⟩ := h.thread (by rw [hphase]; rfl)
    simp only [Attempt.step, hphase, Option.some.injEq, Prod.mk.injEq] at hstep
    obtain ⟨rfl, -⟩ := hstep
    rw [remaining, hphase] at hstrings
    rw [access_eq_self hfreed, decision_of_dials (hdials hphase)]
    · exact ⟨h.faults, fun str hstr => hstrings str (List.mem_append_right _ hstr),
        .thread hfreed hhooked rfl (by simp [goto])⟩
    · intro str hstr
      refine hstrings str ?_
      split_ifs at hstr
      · cases hstr
      · exact List.mem_append_left _ hstr
      · rcases List.mem_append.mp hstr with hstr | hstr
        · exact List.mem_append_left _ hstr
        · exact List.mem_append_right _ (List.mem_append_left _ (List.mem_append_left _ hstr))
  | removing =>
    simp only [Attempt.step, hphase, Option.some.injEq, Prod.mk.injEq] at hstep
    obtain ⟨rfl, -⟩ := hstep
    cases h.lifetime with
    | unallocated hallocated hfreed hhooked _ =>
      exact ⟨h.faults, fun _ hstr => absurd hstr List.not_mem_nil,
        .unallocated hallocated hfreed hhooked (.inr (.inr rfl))⟩
    | thread _ _ h | shared _ _ h => simp [hphase, Phase.isEarly, Phase.isLate] at h
    | freed _ _ h => exact absurd (hphase.symm.trans h) (by simp)
  | claiming =>
    obtain ⟨hfreed, hhooked, -⟩ := h.thread (by rw [hphase]; rfl)
    simp only [Attempt.step, hphase, hclaimed hphase, Option.some.injEq, Prod.mk.injEq] at hstep
    obtain ⟨rfl, -⟩ := hstep
    rw [remaining, hphase] at hstrings
    exact ⟨h.faults, hstrings, .thread hfreed hhooked rfl (by simp [goto])⟩
  | originating =>
    obtain ⟨hfreed, hhooked, -⟩ := h.thread (by rw [hphase]; rfl)
    simp only [Attempt.step, hphase, Option.some.injEq, Prod.mk.injEq] at hstep
    obtain ⟨rfl, -⟩ := hstep
    rw [remaining, hphase] at hstrings
    rw [access_eq_self hfreed fun str hstr => hstrings str (List.mem_append_left _ hstr)]
    exact ⟨h.faults, hstrings, .thread hfreed hhooked rfl (by simp [goto])⟩
  | dialing =>
    obtain ⟨hfreed, hhooked, -⟩ := h.thread (by rw [hphase]; rfl)
    simp only [Attempt.step, hphase, horiginated hphase, if_true, Option.some.injEq,
      Prod.mk.injEq] at hstep
    obtain ⟨rfl, -⟩ := hstep
    rw [remaining, hphase] at hstrings
    rw [access_eq_self hfreed fun str hstr => hstrings str (List.mem_append_left _ hstr)]
    exact ⟨h.faults, fun str hstr => hstrings str (List.mem_append_right _ hstr),
      .thread hfreed hhooked rfl (by simp)⟩
  | dropping | requeueing =>
    cases h.lifetime with
    | unallocated _ _ _ h => rcases h with h | h | h <;> exact absurd (hphase.symm.trans h) (by simp)
    | thread _ _ h | shared _ _ h => simp [hphase, Phase.isEarly, Phase.isLate] at h
    | freed _ _ h => exact absurd (hphase.symm.trans h) (by simp)
  | answered =>
    obtain ⟨hfreed, -, hchannel⟩ := h.thread (by rw [hphase]; rfl)
    obtain ⟨state, hstate⟩ := Option.ne_none_iff_exists'.mp (hchannel hphase)
    simp only [Attempt.step, hphase, Option.some.injEq, Prod.mk.injEq] at hstep
    obtain ⟨rfl, -⟩ := hstep
    rw [remaining, hphase] at hstrings
    exact ⟨h.faults, hstrings, .shared hfreed rfl rfl state hstate (hlive hphase state hstate)⟩
  | confirming =>
    obtain ⟨hfreed, -⟩ := h.shared (by rw [hphase]; rfl) (by simp [hphase])
    simp only [Attempt.step, hphase] at hstep
    rw [remaining, hphase] at hstrings
    split_ifs at hstep with hconfirm
    · simp only [Option.some.injEq, Prod.mk.injEq] at hstep
      obtain ⟨rfl, -⟩ := hstep
      have hremaining : A.remaining = [A.profile.confirmPlayFile, A.profile.confirmDigits] := by
        rw [remaining, hphase]
        exact if_pos hconfirm
      have hread : ∀ str ∈ [A.profile.confirmDigits, A.profile.confirmPlayFile],
          str.releasedIn released = none :=
        fun str hstr => h.strings str (hremaining ▸ List.mem_pair.mpr (List.mem_pair.mp hstr).symm)
      rw [access_eq_self hfreed hread]
      exact h.late (by rw [hphase]; rfl) (by simp [hphase]) rfl rfl rfl rfl rfl
        (fun str hstr => hremaining ▸ hstr)
    · simp only [Option.some.injEq, Prod.mk.injEq] at hstep
      obtain ⟨rfl, -⟩ := hstep
      rw [access_eq_self hfreed (by simp)]
      exact h.late (by rw [hphase]; rfl) (by simp [hphase]) rfl rfl rfl rfl rfl
        (fun _ hstr => absurd hstr List.not_mem_nil)
  | playing =>
    obtain ⟨hfreed, -⟩ := h.shared (by rw [hphase]; rfl) (by simp [hphase])
    simp only [Attempt.step, hphase, Option.some.injEq, Prod.mk.injEq] at hstep
    obtain ⟨rfl, -⟩ := hstep
    rw [remaining, hphase] at hstrings
    rw [access_eq_self hfreed]
    · exact h.late (by rw [hphase]; rfl) (by simp [hphase]) rfl rfl rfl rfl rfl
        (fun str hstr => by rw [remaining, hphase]; exact List.mem_cons_of_mem _ hstr)
    · intro str hstr
      refine hstrings str ?_
      split_ifs at hstr
      · exact List.mem_cons_of_mem _ hstr
      · exact hstr
  | collecting =>
    obtain ⟨hfreed, -⟩ := h.shared (by rw [hphase]; rfl) (by simp [hphase])
    simp only [Attempt.step, hphase, Option.some.injEq, Prod.mk.injEq] at hstep
    obtain ⟨rfl, -⟩ := hstep
    rw [access_eq_self hfreed (by simp)]
    exact h.late (by rw [hphase]; rfl) (by simp [hphase]) rfl rfl rfl rfl rfl
      (fun str hstr => by rw [remaining, hphase]; exact hstr)
  | comparing buf =>
    obtain ⟨hfreed, -⟩ := h.shared (by rw [hphase]; rfl) (by simp [hphase])
    rw [remaining, hphase] at hstrings
    simp only [Attempt.step, hphase, access_eq_self hfreed hstrings] at hstep
    split_ifs at hstep
    all_goals
      simp only [Option.some.injEq, Prod.mk.injEq] at hstep
      obtain ⟨rfl, -⟩ := hstep
      exact h.late (by rw [hphase]; rfl) (by simp [hphase]) rfl rfl rfl rfl rfl
        (fun _ hstr => absurd hstr List.not_mem_nil)
  | transferring =>
    simp only [Attempt.step, hphase, Option.some.injEq, Prod.mk.injEq] at hstep
    obtain ⟨rfl, -⟩ := hstep
    exact h.late (by rw [hphase]; rfl) (by simp [hphase]) rfl rfl rfl rfl rfl
      (fun _ hstr => absurd hstr List.not_mem_nil)
  | reporting =>
    obtain ⟨hfreed, -⟩ := h.shared (by rw [hphase]; rfl) (by simp [hphase])
    simp only [Attempt.step, hphase, Option.some.injEq, Prod.mk.injEq] at hstep
    obtain ⟨rfl, -⟩ := hstep
    rw [access_eq_self hfreed (by simp)]
    exact h.late (by rw [hphase]; rfl) (by simp [hphase]) rfl rfl rfl rfl rfl
      (fun _ hstr => absurd hstr List.not_mem_nil)

/-- **A state handler goes on in order.** -/
lemma Attempt.Safe.changeState {state : ChannelState} {executed : Bool} {now : ℤ}
    (h : A.Safe released) (hfrees : A.hooked = true → A.Frees state → A.phase = .finished)
    (hstep : A.changeState released state executed now = some (A', changes)) :
    A'.Safe released := by
  obtain ⟨old, hold, hbecome, hchanged⟩ := changeState_changed hstep
  have hshared : A.hooked = true → A.numFreed = 0 ∧ A.phase.isLate = true ∧ old.isOver = false := by
    intro hhooked
    cases h.lifetime with
    | unallocated _ _ hnot | thread _ hnot | freed _ hnot =>
      exact absurd (hhooked.symm.trans hnot) (by simp)
    | shared hfreed _ hphase state hchannel hlive =>
      obtain rfl : old = state := Option.some.inj (hold.symm.trans hchannel)
      exact ⟨hfreed, hphase, hlive⟩
  have hfreeing : ∀ {channel}, A.hooked = true → A.Frees state →
      Attempt.Safe released { A.free with channel := channel } := by
    intro channel hhooked hfree
    obtain ⟨hfreed, -, -⟩ := hshared hhooked
    have hfinished := hfrees hhooked hfree
    refine ⟨?_, h.strings, .freed (congrArg (· + 1) hfreed) rfl hfinished⟩
    show A.faults ++ (if A.numFreed = 0 then [] else [Fault.doubleFree]) = []
    rw [if_pos hfreed, List.append_nil]
    exact h.faults
  cases hchanged with
  | unhooked hhooked =>
    refine ⟨h.faults, h.strings, ?_⟩
    cases h.lifetime with
    | unallocated hallocated hfreed _ hphase => exact .unallocated hallocated hfreed hhooked hphase
    | thread hfreed _ hphase _ => exact .thread hfreed hhooked hphase (fun _ => by simp)
    | shared _ hnot => exact absurd (hhooked.symm.trans hnot) (by simp)
    | freed hfreed _ hphase => exact .freed hfreed hhooked hphase
  | removed hhooked hdone =>
    rw [access_eq_self (hshared hhooked).1 (by simp)]
    exact hfreeing hhooked (.inl hdone)
  | requeued hhooked _ hstate =>
    rw [access_eq_self (hshared hhooked).1 (by simp)]
    exact hfreeing hhooked (.inr hstate)
  | kept hhooked hdone hstate =>
    obtain ⟨hfreed, hphase, hlive⟩ := hshared hhooked
    rw [access_eq_self hfreed (by simp)]
    have hlive' := (ChannelState.canBecome_of_not_isOver hlive hbecome).resolve_left hstate
    refine ⟨h.faults, h.strings, .shared hfreed ?_ hphase state rfl hlive'⟩
    cases state <;> first | rfl | cases hlive'

/-- A configuration profile is unloaded of which the thread reads nothing any more. -/
lemma Attempt.Safe.unload (h : A.Safe released) {id : ℕ}
    (hstrings : ∀ str ∈ A.remaining, str.pool ≠ .config id) :
    A.Safe (Function.update released id true) := by
  refine ⟨h.faults, fun str hstr => ?_, h.lifetime⟩
  have hread := h.strings str hstr
  have hpool := hstrings str hstr
  rw [Str.releasedIn] at hread ⊢
  cases hwhere : str.pool with
  | config id' =>
    rw [hwhere] at hread hpool
    have hne : id' ≠ id := fun heq => hpool (congrArg Pool.config heq)
    simpa only [Function.update_of_ne hne] using hread
  | literal | profile | heap => rfl

end

/-! ## Runs -/

section

variable {env : Env} {s s' : System} {action : Action} {actions : List Action}

structure SafeSystem (s : System) : Prop where
  configs : s.configs.Valid
  attempts : ∀ A ∈ s.attempts, A.Safe s.configs.released

lemma safe_init : SafeSystem .init where
  configs := valid_init
  attempts A hA := absurd hA (by simp [System.init])

/-- One attempt goes on. -/
lemma SafeSystem.set (h : SafeSystem s) {i : ℕ} {A' : Attempt} {configs : Configs}
    {rows : List Row} (hconfigs : configs.Valid) (hreleased : configs.released = s.configs.released)
    (hA' : A'.Safe s.configs.released) :
    SafeSystem { s with rows := rows, attempts := s.attempts.set i A', configs := configs } := by
  refine ⟨hconfigs, fun A hA => ?_⟩
  show A.Safe configs.released
  rw [hreleased]
  rcases mem_set_cases hA with rfl | ⟨j, -, hj⟩
  · exact hA'
  · exact h.attempts A (List.mem_of_getElem? hj)

/-- Configuration profiles are loaded. -/
lemma SafeSystem.configs_of_released (h : SafeSystem s) {configs : Configs}
    {queueings : List Queueing} (hconfigs : configs.Valid)
    (hreleased : configs.released = s.configs.released) :
    SafeSystem { s with configs := configs, queueings := queueings } := by
  refine ⟨hconfigs, fun A hA => ?_⟩
  show A.Safe configs.released
  rw [hreleased]
  exact h.attempts A hA

/-- **Orderly steps keep the user profiles safe.** -/
lemma next_safe (h : SafeSystem s) (horderly : Orderly s action)
    (hnext : next env s action = some s') : SafeSystem s' := by
  cases action with
  | tick now =>
    obtain rfl := Option.some.inj hnext
    refine ⟨h.configs, fun A hA => ?_⟩
    rcases List.mem_append.mp hA with hA | hA
    · exact h.attempts A hA
    · obtain ⟨row, -, rfl⟩ := List.mem_map.mp hA
      exact ⟨rfl, fun _ hstr => absurd hstr List.not_mem_nil,
        .unallocated rfl rfl rfl (.inl rfl)⟩
  | thread i o =>
    obtain ⟨A, hi, hthread⟩ := Option.bind_eq_some_iff.mp hnext
    have hA := h.attempts A (List.mem_of_getElem? hi)
    rw [System.thread] at hthread
    split_ifs at hthread with hphase
    · obtain rfl := Option.some.inj hthread
      obtain ⟨hvalid, hreleased, hreadable⟩ :=
        setUserProfile_readable env h.configs A.account
      exact h.set hvalid hreleased (hA.prepare hphase hreadable)
    · obtain ⟨⟨A', changes⟩, hstep, rfl⟩ := Option.map_eq_some_iff.mp hthread
      obtain ⟨hdials, hclaimed, horiginated, hlive⟩ := horderly A hi
      exact h.set h.configs rfl (hA.step hdials hclaimed horiginated hlive hstep)
  | channel i state executed now =>
    obtain ⟨A, hi, hchannel⟩ := Option.bind_eq_some_iff.mp hnext
    obtain ⟨⟨A', changes⟩, hstep, rfl⟩ := Option.map_eq_some_iff.mp hchannel
    exact h.set h.configs rfl
      ((h.attempts A (List.mem_of_getElem? hi)).changeState (horderly A hi) hstep)
  | event account action cancelled =>
    obtain rfl := Option.some.inj hnext
    obtain ⟨hvalid, hreleased, -⟩ := setUserProfile_readable env h.configs account
    rw [System.event]
    generalize setUserProfile env s.configs account = result at hvalid hreleased ⊢
    obtain ⟨configs, profile⟩ := result
    cases profile with
    | none => exact h.configs_of_released hvalid hreleased
    | some profile =>
      dsimp only
      split_ifs
      · exact h.configs_of_released hvalid hreleased
      · exact h.configs_of_released hvalid hreleased
  | queueing j executed found now =>
    obtain ⟨Q, hj, hqueueing⟩ := Option.bind_eq_some_iff.mp hnext
    obtain ⟨result, -, rfl⟩ := Option.map_eq_some_iff.mp hqueueing
    exact ⟨h.configs, h.attempts⟩
  | load name =>
    obtain rfl := Option.some.inj hnext
    obtain ⟨hvalid, hreleased, -⟩ := getProfile_valid env h.configs name
    exact h.configs_of_released hvalid hreleased
  | unload name =>
    obtain rfl := Option.some.inj hnext
    refine ⟨destroyProfile_valid h.configs name, fun A hA => ?_⟩
    show A.Safe (destroyProfile s.configs name).released
    rw [destroyProfile]
    cases hhash : s.configs.profileHash name with
    | none => exact h.attempts A hA
    | some loaded => exact (h.attempts A hA).unload (horderly loaded hhash A hA)

/-- **A user profile outlives its users**, in every state of an orderly run. -/
theorem profile_outlives_its_users (horderly : Always (next env) Orderly .init actions)
    (hrun : run (next env) .init actions = some s) : ∀ A ∈ s.attempts, A.Outlives :=
  fun A hA => ((run_invariant_of_always (fun _ _ _ h horderly hnext => next_safe h horderly hnext)
    safe_init horderly hrun).attempts A hA).outlives

end

/-! ## A call that goes on too early -/

/-- The users have a configuration profile, with a confirmation. -/
def confirmedCalls : Env where
  users _ := some [⟨"vm-originate-profile".toList, "callback".toList⟩]
  file _ := some
    { attempts := 3, dialString := some "user/1000".toList, transfer := some "vmain".toList,
      enableConfirm := true, confirmDigits := some "1".toList }

/-- The call is confirmed, the configuration profile unloaded, and the call goes on. -/
def confirmedRun : List Action :=
  newMessage alice ++ [.tick 10] ++
    List.replicate 12 (.thread 0 { answeredCall with confirmStatus := .success, buf := ['1'] }) ++
    [.unload "callback".toList, .channel 0 .routing true 20]

theorem profile_outlives_its_users_confirmed : ∃ s,
    run (next confirmedCalls) .init confirmedRun = some s ∧ ∀ A ∈ s.attempts, A.Outlives :=
  have h : run (next confirmedCalls) .init confirmedRun = some _ := rfl
  ⟨_, h, profile_outlives_its_users (by decide +kernel) h⟩

/-- The call goes on before the thread has ended. -/
def earlyRun : List Action :=
  newMessage alice ++ [.tick 1] ++ List.replicate 6 (.thread 0 answeredCall) ++
    [.channel 0 .routing true 2, .thread 0 answeredCall]

/-- The thread reads a user profile that the state handler has freed. -/
theorem early_state_change_frees : ¬ ∀ (env : Env) (actions : List Action) (s : System),
    run (next env) .init actions = some s → ∀ A ∈ s.attempts, A.Outlives := by
  intro h
  have houtlives := h threeAttempts earlyRun _ rfl _ (List.mem_singleton_self _)
  exact absurd houtlives.faults (by decide)

end FreeswitchContrib.VoicemailOriginate
