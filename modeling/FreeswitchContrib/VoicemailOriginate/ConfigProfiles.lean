import FreeswitchContrib.Library.Exclusion
import FreeswitchContrib.Library.Interleaving
import FreeswitchContrib.VoicemailOriginate.UserProfiles

/-!
# Freeing a configuration profile

`get_profile`, `profile_rwunlock` and `destroy_profile` step by step, by any number of threads.  A
step is an access to `profile_hash` under the mutex, one operation of the lock of a profile, a test
or a change of its flags, or the destruction of its pool.  Profiles have numbers in the order in
which they were loaded.

* `FreedOnce` — a profile is not used after its pool was destroyed, and it is destroyed once, when
  nobody holds it any more.
* `Settles` — what a thread that frees, and one that leaves the freeing to others, would have to
  look at.
* **`profile_freed_once`** — with such steps it comes to that.
-/

namespace FreeswitchContrib.VoicemailOriginate

namespace ConfigProfiles

open Exclusion Interleaving

/-! ## The threads -/

/-- Where a thread is with a profile. -/
inductive Thread where
  | idle
  /-- it has the profile from `get_profile`, with a read lock -/
  | holding (profile : ℕ)
  /-- in `profile_rwunlock`, before the test of the flag -/
  | unlocked (profile : ℕ)
  /-- before the `trywrlock` -/
  | trying (profile : ℕ)
  /-- with the write lock, before it is given back -/
  | relocked (profile : ℕ)
  /-- before `free_profile` -/
  | freeing (profile : ℕ)
  /-- in `destroy_profile`, before the `wrlock` or `trywrlock` -/
  | removed (profile : ℕ) (block : Bool)
  /-- before `PFLAG_DESTROY` is set -/
  | busy (profile : ℕ)
  /-- with the write lock, before `free_profile` -/
  | destroying (profile : ℕ)
  deriving DecidableEq

namespace Thread

def profile : Thread → Option ℕ
  | idle => none
  | holding p | unlocked p | trying p | relocked p | freeing p | removed p _ | busy p
  | destroying p => some p

/-- The thread has a lock of the profile. -/
def locks (p : ℕ) : Thread → Bool
  | holding q | relocked q | destroying q => q = p
  | _ => false

/-- The thread has the write lock of the profile. -/
def writes (p : ℕ) : Thread → Bool
  | relocked q | destroying q => q = p
  | _ => false

/-- The thread is in `destroy_profile`. -/
def destroys : Thread → Bool
  | removed _ _ | busy _ | destroying _ => true
  | _ => false

/-- The thread is in `profile_rwunlock`, behind the unlock. -/
def unlocks : Thread → Bool
  | unlocked _ | trying _ | relocked _ | freeing _ => true
  | _ => false

end Thread

/-- The lock of a profile is held by the threads that are where they hold it. -/
structure State where
  profileHash : Text → Option ℕ
  numLoaded : ℕ
  /-- `PFLAG_DESTROY` -/
  flag : ℕ → Bool
  /-- how often the pool of a profile was destroyed -/
  destroyed : ℕ → ℕ
  /-- a profile was used after its pool was destroyed -/
  misused : Bool
  threads : List Thread

def State.init (numThreads : ℕ) : State :=
  ⟨fun _ => none, 0, fun _ => false, fun _ => 0, false, List.replicate numThreads .idle⟩

inductive Action where
  /-- `get_profile`, with whether the profile is in the configuration file -/
  | getProfile (t : ℕ) (name : Text) (inFile : Bool)
  | read (t : ℕ)
  /-- `destroy_profile` -/
  | destroyProfile (t : ℕ) (name : Text) (block : Bool)
  /-- the thread goes on: a holder with `profile_rwunlock` -/
  | step (t : ℕ)

namespace State

/-- A profile is read, locked, unlocked or freed. -/
def use (s : State) (p : ℕ) : State :=
  { s with misused := s.misused || decide (s.destroyed p ≠ 0) }

def goto (s : State) (t : ℕ) (thread : Thread) : State :=
  { s with threads := s.threads.set t thread }

/-- `free_profile` -/
def free (s : State) (p : ℕ) : State :=
  { s.use p with destroyed := Function.update s.destroyed p (s.destroyed p + 1) }

/-- Somebody has a lock of the profile. -/
def locked (s : State) (p : ℕ) : Bool := s.threads.any (·.locks p)

/-- `get_profile`, under the mutex. -/
def getProfile (s : State) (t : ℕ) (name : Text) (inFile : Bool) : Option State :=
  match s.profileHash name with
  | some p =>
    if s.threads.any (·.writes p) then none else some ((s.use p).goto t (.holding p))
  | none =>
    if inFile then
      some ({ s with
        profileHash := Function.update s.profileHash name (some s.numLoaded)
        numLoaded := s.numLoaded + 1 }.goto t (.holding s.numLoaded))
    else
      some s

/-- The part of `destroy_profile` under the mutex. -/
def destroyProfile (s : State) (t : ℕ) (name : Text) (block : Bool) : State :=
  match s.profileHash name with
  | some p =>
    { s with profileHash := Function.update s.profileHash name none }.goto t (.removed p block)
  | none => s

/-- A step of `profile_rwunlock` or `destroy_profile`. -/
def step (s : State) (t : ℕ) : Thread → Option State
  | .idle => none
  | .holding p => some ((s.use p).goto t (.unlocked p))
  | .unlocked p => some ((s.use p).goto t (if s.flag p then .trying p else .idle))
  | .trying p => some ((s.use p).goto t (if s.locked p then .idle else .relocked p))
  | .relocked p => some ((s.use p).goto t (.freeing p))
  | .freeing p => some ((s.free p).goto t .idle)
  | .removed p true => if s.locked p then none else some ((s.use p).goto t (.destroying p))
  | .removed p false => some ((s.use p).goto t (if s.locked p then .busy p else .destroying p))
  | .busy p => some ({ s.use p with flag := Function.update s.flag p true }.goto t .idle)
  | .destroying p => some ((s.free p).goto t .idle)

end State

/-- One step. -/
def next (s : State) : Action → Option State
  | .getProfile t name inFile =>
    if s.threads[t]? = some .idle then s.getProfile t name inFile else none
  | .read t =>
    s.threads[t]?.bind fun thread =>
      match thread with
      | .holding p => some (s.use p)
      | _ => none
  | .destroyProfile t name block =>
    if s.threads[t]? = some .idle then some (s.destroyProfile t name block) else none
  | .step t => s.threads[t]?.bind (s.step t)

/-! ## The statement -/

/-- No profile was used after it was destroyed, none was destroyed twice or while it was held, and
one that was removed is destroyed when nobody has to do with it any more. -/
structure FreedOnce (s : State) : Prop where
  used : s.misused = false
  once : ∀ p, s.destroyed p ≤ 1
  held : ∀ p, .holding p ∈ s.threads → s.destroyed p = 0
  freed : ∀ p < s.numLoaded, (∀ name, s.profileHash name ≠ some p) →
    (∀ thread ∈ s.threads, thread.profile ≠ some p) → s.destroyed p = 1

/-- No other thread is in `profile_rwunlock` of this profile behind its unlock. -/
def State.NobodyUnlocks (s : State) (t p : ℕ) : Prop :=
  ∀ u < s.threads.length, u ≠ t → ∀ other ∈ s.threads[u]?,
    other.profile = some p → other.unlocks = false

/-- A thread that frees a profile finds no other in `profile_rwunlock` behind its unlock, and one
that sets the flag finds one that has not tested it yet. -/
def State.Settles (s : State) (t : ℕ) : Thread → Prop
  | .freeing p | .destroying p => s.NobodyUnlocks t p
  | .busy p => .holding p ∈ s.threads ∨ .unlocked p ∈ s.threads
  | _ => True

def Settles (s : State) : Action → Prop
  | .step t => ∀ thread ∈ s.threads[t]?, s.Settles t thread
  | _ => True

instance (s : State) (t p : ℕ) : Decidable (s.NobodyUnlocks t p) :=
  inferInstanceAs (Decidable (∀ u < s.threads.length, u ≠ t → ∀ other ∈ s.threads[u]?,
    other.profile = some p → other.unlocks = false))

instance (s : State) (t : ℕ) : (thread : Thread) → Decidable (s.Settles t thread)
  | .freeing p | .destroying p => inferInstanceAs (Decidable (s.NobodyUnlocks t p))
  | .busy p => inferInstanceAs (Decidable (.holding p ∈ s.threads ∨ .unlocked p ∈ s.threads))
  | .idle | .holding _ | .unlocked _ | .trying _ | .relocked _ | .removed _ _ => .isTrue trivial

instance (s : State) : (action : Action) → Decidable (Settles s action)
  | .step t => inferInstanceAs (Decidable (∀ thread ∈ s.threads[t]?, s.Settles t thread))
  | .getProfile _ _ _ | .read _ | .destroyProfile _ _ _ => .isTrue trivial

/-! ## The stages of a profile -/

section

variable {s s' : State} {p q t u : ℕ} {thread thread' other : Thread} {name : Text}

/-- The thread with this number is there. -/
def State.At (s : State) (t : ℕ) (thread : Thread) : Prop := s.threads[t]? = some thread

/-- A profile is in the hash, removed from it by a thread that is not through with it, flagged for
its last holder, or destroyed. -/
inductive Stage (s : State) (p : ℕ) : Prop
  | kept (name : Text) (hname : s.profileHash name = some p)
      (hunique : ∀ name', s.profileHash name' = some p → name' = name)
      (hflag : s.flag p = false) (hdestroyed : s.destroyed p = 0)
      (hthreads : ∀ u other, s.At u other → other.profile = some p →
        other = .holding p ∨ other = .unlocked p)
  | removed (hname : ∀ name, s.profileHash name ≠ some p) (hflag : s.flag p = false)
      (hdestroyed : s.destroyed p = 0) (t : ℕ) (thread : Thread)
      (ht : s.At t thread) (hprofile : thread.profile = some p)
      (hdestroys : thread.destroys = true)
      (hothers : ∀ u other, u ≠ t → s.At u other → other.profile = some p →
        other = .holding p ∨ other = .unlocked p)
      (hlock : thread = .destroying p → ∀ u, ¬ s.At u (.holding p))
  | flagged (hname : ∀ name, s.profileHash name ≠ some p) (hflag : s.flag p = true)
      (hdestroyed : s.destroyed p = 0) (t : ℕ) (thread : Thread)
      (ht : s.At t thread) (hprofile : thread.profile = some p)
      (hothers : ∀ u other, s.At u other → other.profile = some p →
        other.destroys = false)
      (hlock : ∀ u other, s.At u other → other = .relocked p ∨ other = .freeing p →
        ∀ u, ¬ s.At u (.holding p))
  | gone (hname : ∀ name, s.profileHash name ≠ some p) (hdestroyed : s.destroyed p = 1)
      (hthreads : ∀ u other, s.At u other → other.profile ≠ some p)

/-- A profile that was not loaded yet. -/
structure Fresh (s : State) (p : ℕ) : Prop where
  name : ∀ name, s.profileHash name ≠ some p
  flag : s.flag p = false
  destroyed : s.destroyed p = 0
  threads : ∀ u other, s.At u other → other.profile ≠ some p

structure Inv (s : State) : Prop where
  used : s.misused = false
  stage : ∀ p < s.numLoaded, Stage s p
  fresh : ∀ p, s.numLoaded ≤ p → Fresh s p

lemma inv_init (numThreads : ℕ) : Inv (.init numThreads) where
  used := rfl
  stage p hp := absurd hp (Nat.not_lt_zero p)
  fresh p _ := by
    refine ⟨fun name => by simp [State.init], rfl, rfl, fun u other hu => ?_⟩
    obtain ⟨-, rfl⟩ := List.mem_replicate.mp (List.mem_of_getElem? hu)
    simp [Thread.profile]

lemma Stage.freedOnce (h : Stage s p) : s.destroyed p ≤ 1 ∧
    (.holding p ∈ s.threads → s.destroyed p = 0) ∧
      ((∀ name, s.profileHash name ≠ some p) →
        (∀ thread ∈ s.threads, thread.profile ≠ some p) → s.destroyed p = 1) := by
  cases h with
  | kept name hname _ _ hdestroyed _ =>
    exact ⟨hdestroyed.trans_le (Nat.zero_le 1), fun _ => hdestroyed,
      fun hnone => absurd hname (hnone name)⟩
  | removed _ _ hdestroyed t thread ht hprofile _ _ _
  | flagged _ _ hdestroyed t thread ht hprofile _ _ =>
    exact ⟨hdestroyed.trans_le (Nat.zero_le 1), fun _ => hdestroyed,
      fun _ hnone => absurd hprofile (hnone thread (List.mem_of_getElem? ht))⟩
  | gone _ hdestroyed hthreads =>
    refine ⟨hdestroyed.le, fun hholding => ?_, fun _ _ => hdestroyed⟩
    obtain ⟨u, hu⟩ := List.mem_iff_getElem?.mp hholding
    exact absurd rfl (hthreads u _ hu)

lemma Inv.freedOnce (h : Inv s) : FreedOnce s where
  used := h.used
  once p := by
    rcases Nat.lt_or_ge p s.numLoaded with hp | hp
    · exact (h.stage p hp).freedOnce.1
    · exact (h.fresh p hp).destroyed.trans_le (Nat.zero_le 1)
  held p hheld := by
    rcases Nat.lt_or_ge p s.numLoaded with hp | hp
    · exact (h.stage p hp).freedOnce.2.1 hheld
    · exact (h.fresh p hp).destroyed
  freed p hp := (h.stage p hp).freedOnce.2.2

/-- A profile that a thread has to do with is there. -/
lemma Inv.alive (h : Inv s) (ht : s.At t thread) (hprofile : thread.profile = some p) :
    p < s.numLoaded ∧ s.destroyed p = 0 := by
  have hp : p < s.numLoaded := by
    by_contra hp
    exact (h.fresh p (Nat.not_lt.mp hp)).threads t thread ht hprofile
  refine ⟨hp, ?_⟩
  cases h.stage p hp with
  | kept _ _ _ _ hdestroyed _ | removed _ _ hdestroyed | flagged _ _ hdestroyed => exact hdestroyed
  | gone _ _ hthreads => exact absurd hprofile (hthreads t thread ht)

lemma use_of_alive (h : s.destroyed p = 0) : s.use p = s := by
  rw [State.use, h, decide_eq_false (fun h => h rfl), Bool.or_false]

/-! ## A thread goes on -/

lemma lt_of_at (hu : s.At u other) : u < s.threads.length :=
  (List.getElem?_eq_some_iff.mp hu).1

/-- Where the threads are after one has gone on. -/
lemma at_set (ht : s.At t thread) (hthreads : s'.threads = s.threads.set t thread') :
    s'.At u other ↔ (u = t ∧ other = thread') ∨ (u ≠ t ∧ s.At u other) := by
  have hset : s'.At u other ↔ (s.threads.set t thread')[u]? = some other := by
    rw [State.At, hthreads]
  rw [hset]
  constructor
  · exact getElem?_set_eq_some
  · rintro (⟨rfl, rfl⟩ | ⟨hne, hother⟩)
    · exact List.getElem?_set_self (lt_of_at ht)
    · rw [List.getElem?_set_ne (Ne.symm hne)]
      exact hother

/-- A profile that the thread has nothing to do with. -/
lemma Stage.frame (h : Stage s q) (ht : s.At t thread)
    (hthreads : s'.threads = s.threads.set t thread') (hthread : thread.profile ≠ some q)
    (hthread' : thread'.profile ≠ some q)
    (hname : ∀ name, s'.profileHash name = some q ↔ s.profileHash name = some q)
    (hflag : s'.flag q = s.flag q) (hdestroyed : s'.destroyed q = s.destroyed q) : Stage s' q := by
  have hat : ∀ {u other}, other.profile = some q → (s'.At u other ↔ s.At u other) := by
    intro u other hother
    rw [at_set ht hthreads]
    constructor
    · rintro (⟨-, rfl⟩ | ⟨-, hu⟩)
      · exact absurd hother hthread'
      · exact hu
    · intro hu
      refine .inr ⟨?_, hu⟩
      rintro rfl
      obtain rfl : thread = other := Option.some.inj (ht.symm.trans hu)
      exact hthread hother
  cases h with
  | kept name hname' hunique hflag' hdestroyed' hothers =>
    exact .kept name ((hname name).mpr hname') (fun name' h => hunique name' ((hname name').mp h))
      (hflag.trans hflag') (hdestroyed.trans hdestroyed')
      (fun u other hu hother => hothers u other ((hat hother).mp hu) hother)
  | removed hname' hflag' hdestroyed' t' thread₀ ht' hprofile hdestroys hothers hlock =>
    exact .removed (fun name h => hname' name ((hname name).mp h)) (hflag.trans hflag')
      (hdestroyed.trans hdestroyed') t' thread₀ ((hat hprofile).mpr ht') hprofile hdestroys
      (fun u other hne hu hother => hothers u other hne ((hat hother).mp hu) hother)
      (fun heq u hu => hlock heq u ((hat rfl).mp hu))
  | flagged hname' hflag' hdestroyed' t' thread₀ ht' hprofile hothers hlock =>
    refine .flagged (fun name h => hname' name ((hname name).mp h)) (hflag.trans hflag')
      (hdestroyed.trans hdestroyed') t' thread₀ ((hat hprofile).mpr ht') hprofile
      (fun u other hu hother => hothers u other ((hat hother).mp hu) hother) ?_
    intro u other hu hother u' hu'
    refine hlock u other ((hat ?_).mp hu) hother u' ((hat rfl).mp hu')
    rcases hother with rfl | rfl <;> rfl
  | gone hname' hdestroyed' hothers =>
    exact .gone (fun name h => hname' name ((hname name).mp h)) (hdestroyed.trans hdestroyed')
      (fun u other hu hother => hothers u other ((hat hother).mp hu) hother)

lemma Fresh.frame (h : Fresh s q) (ht : s.At t thread)
    (hthreads : s'.threads = s.threads.set t thread') (hthread' : thread'.profile ≠ some q)
    (hname : ∀ name, s'.profileHash name ≠ some q) (hflag : s'.flag q = s.flag q)
    (hdestroyed : s'.destroyed q = s.destroyed q) : Fresh s' q where
  name := hname
  flag := hflag.trans h.flag
  destroyed := hdestroyed.trans h.destroyed
  threads u other hu := by
    rcases (at_set ht hthreads).mp hu with ⟨-, rfl⟩ | ⟨-, hu⟩
    · exact hthread'
    · exact h.threads u other hu

/-- What is known when a thread tries to free the profile in `profile_rwunlock`. -/
lemma Stage.flag_of_unlocks (h : Stage s p) (ht : s.At t thread)
    (hprofile : thread.profile = some p) (hunlocks : thread.unlocks = true)
    (hthread : thread ≠ .unlocked p) :
    (∀ name, s.profileHash name ≠ some p) ∧ s.flag p = true ∧ s.destroyed p = 0 ∧
      (∀ u other, s.At u other → other.profile = some p → other.destroys = false) ∧
        ∀ u other, s.At u other → other = .relocked p ∨ other = .freeing p →
          ∀ u, ¬ s.At u (.holding p) := by
  have hnot : ¬ (thread = .holding p ∨ thread = .unlocked p) := by
    rintro (rfl | rfl)
    · cases hunlocks
    · exact hthread rfl
  cases h with
  | kept _ _ _ _ _ hothers => exact absurd (hothers t thread ht hprofile) hnot
  | removed _ _ _ t' thread₀ ht' _ hdestroys hothers =>
    by_cases heq : t = t'
    · subst heq
      obtain rfl : thread = thread₀ := Option.some.inj (ht.symm.trans ht')
      cases thread <;> simp [Thread.destroys, Thread.unlocks] at hdestroys hunlocks
    · exact absurd (hothers t thread heq ht hprofile) hnot
  | flagged hname hflag hdestroyed _ _ _ _ hothers hlock =>
    exact ⟨hname, hflag, hdestroyed, hothers, hlock⟩
  | gone _ _ hothers => exact absurd hprofile (hothers t thread ht)

/-- What is known when a thread is in `destroy_profile`. -/
lemma Stage.removed_of_destroys (h : Stage s p) (ht : s.At t thread)
    (hprofile : thread.profile = some p) (hdestroys : thread.destroys = true) :
    (∀ name, s.profileHash name ≠ some p) ∧ s.flag p = false ∧ s.destroyed p = 0 ∧
      (∀ u other, u ≠ t → s.At u other → other.profile = some p →
        other = .holding p ∨ other = .unlocked p) ∧
        (thread = .destroying p → ∀ u, ¬ s.At u (.holding p)) := by
  have hnot : ¬ (thread = .holding p ∨ thread = .unlocked p) := by
    rintro (rfl | rfl) <;> cases hdestroys
  cases h with
  | kept _ _ _ _ _ hothers => exact absurd (hothers t thread ht hprofile) hnot
  | removed hname hflag hdestroyed t' thread₀ ht' _ _ hothers hlock =>
    by_cases heq : t = t'
    · subst heq
      obtain rfl : thread = thread₀ := Option.some.inj (ht.symm.trans ht')
      exact ⟨hname, hflag, hdestroyed, hothers, hlock⟩
    · exact absurd (hothers t thread heq ht hprofile) hnot
  | flagged _ _ _ _ _ _ _ hothers =>
    exact absurd (hdestroys.symm.trans (hothers t thread ht hprofile)) (by simp)
  | gone _ _ hothers => exact absurd hprofile (hothers t thread ht)

/-- Only this profile has to be looked at. -/
lemma Inv.set (h : Inv s) (ht : s.At t thread) (hthreads : s'.threads = s.threads.set t thread')
    (hp : p < s.numLoaded) (hprofile : ∀ q ∈ thread.profile, q = p)
    (hprofile' : ∀ q ∈ thread'.profile, q = p) (hused : s'.misused = s.misused)
    (hloaded : s'.numLoaded = s.numLoaded)
    (hname : ∀ q, q ≠ p → ∀ name, s'.profileHash name = some q ↔ s.profileHash name = some q)
    (hflag : ∀ q, q ≠ p → s'.flag q = s.flag q)
    (hdestroyed : ∀ q, q ≠ p → s'.destroyed q = s.destroyed q) (hstage : Stage s' p) :
    Inv s' where
  used := hused.trans h.used
  stage q hq := by
    by_cases heq : q = p
    · exact heq ▸ hstage
    · exact (h.stage q (hloaded ▸ hq)).frame ht hthreads (fun h => heq (hprofile q h))
        (fun h => heq (hprofile' q h)) (hname q heq) (hflag q heq) (hdestroyed q heq)
  fresh q hq := by
    have heq : q ≠ p := by omega
    have hfresh := h.fresh q (hloaded ▸ hq)
    exact hfresh.frame ht hthreads (fun h => heq (hprofile' q h))
      (fun name => (hname q heq name).not.mpr (hfresh.name name)) (hflag q heq) (hdestroyed q heq)

/-- A thread goes on with its profile and the lock of it. -/
lemma Inv.goto (h : Inv s) (ht : s.At t thread) (hprofile : thread.profile = some p)
    (hprofile' : ∀ q ∈ thread'.profile, q = p) (hstage : Stage (s.goto t thread') p) :
    Inv ((s.use p).goto t thread') := by
  obtain ⟨hp, hdestroyed⟩ := h.alive ht hprofile
  rw [use_of_alive hdestroyed]
  exact h.set ht rfl hp (fun q hq => Option.some.inj (hq.symm.trans hprofile)) hprofile' rfl rfl
    (fun _ _ _ => Iff.rfl) (fun _ _ => rfl) (fun _ _ => rfl) hstage

/-- The unlock of `profile_rwunlock`. -/
lemma Stage.unlock (h : Stage s p) (ht : s.At t (.holding p)) :
    Stage (s.goto t (.unlocked p)) p := by
  have hat : ∀ {u other}, (s.goto t (.unlocked p)).At u other →
      (u = t ∧ other = .unlocked p) ∨ (u ≠ t ∧ s.At u other) := (at_set ht rfl).mp
  have hself : (s.goto t (.unlocked p)).At t (.unlocked p) := (at_set ht rfl).mpr (.inl ⟨rfl, rfl⟩)
  cases h with
  | kept name hname hunique hflag hdestroyed hothers =>
    refine .kept name hname hunique hflag hdestroyed fun u other hu hother => ?_
    rcases hat hu with ⟨-, rfl⟩ | ⟨-, hu⟩
    · exact .inr rfl
    · exact hothers u other hu hother
  | removed hname hflag hdestroyed t' thread ht' hprofile hdestroys hothers hlock =>
    have hne : t' ≠ t := by
      rintro rfl
      obtain rfl := Option.some.inj (ht.symm.trans ht')
      cases hdestroys
    refine .removed hname hflag hdestroyed t' thread ((at_set ht rfl).mpr (.inr ⟨hne, ht'⟩))
      hprofile hdestroys ?_ (fun heq => absurd ht (hlock heq t))
    intro u other hne hu hother
    rcases hat hu with ⟨-, rfl⟩ | ⟨-, hu⟩
    · exact .inr rfl
    · exact hothers u other hne hu hother
  | flagged hname hflag hdestroyed t' thread ht' hprofile hothers hlock =>
    refine .flagged hname hflag hdestroyed t (.unlocked p) hself rfl ?_ ?_
    · intro u other hu hother
      rcases hat hu with ⟨-, rfl⟩ | ⟨-, hu⟩
      · rfl
      · exact hothers u other hu hother
    · intro u other hu hother
      rcases hat hu with ⟨-, rfl⟩ | ⟨-, hu⟩
      · rcases hother with h | h <;> cases h
      · exact absurd ht (hlock u other hu hother t)
  | gone _ _ hothers => exact absurd rfl (hothers t _ ht)

/-- The flag is not set, and `profile_rwunlock` is through. -/
lemma Stage.leave (h : Stage s p) (ht : s.At t (.unlocked p)) (hflag : s.flag p = false) :
    Stage (s.goto t .idle) p := by
  have hat : ∀ {u other}, (s.goto t .idle).At u other →
      (u = t ∧ other = .idle) ∨ (u ≠ t ∧ s.At u other) := (at_set ht rfl).mp
  cases h with
  | kept name hname hunique hflag hdestroyed hothers =>
    refine .kept name hname hunique hflag hdestroyed fun u other hu hother => ?_
    rcases hat hu with ⟨-, rfl⟩ | ⟨-, hu⟩
    · cases hother
    · exact hothers u other hu hother
  | removed hname hflag hdestroyed t' thread ht' hprofile hdestroys hothers hlock =>
    have hne : t' ≠ t := by
      rintro rfl
      obtain rfl := Option.some.inj (ht.symm.trans ht')
      cases hdestroys
    refine .removed hname hflag hdestroyed t' thread ((at_set ht rfl).mpr (.inr ⟨hne, ht'⟩))
      hprofile hdestroys ?_ ?_
    · intro u other hne hu hother
      rcases hat hu with ⟨-, rfl⟩ | ⟨-, hu⟩
      · cases hother
      · exact hothers u other hne hu hother
    · intro heq u hu
      rcases hat hu with ⟨-, h⟩ | ⟨-, hu⟩
      · cases h
      · exact hlock heq u hu
  | flagged _ hset => exact absurd (hset.symm.trans hflag) (by simp)
  | gone _ _ hothers => exact absurd rfl (hothers t _ ht)

/-- The flag is set, and the thread goes on with the lock. -/
lemma Stage.goOn (h : Stage s p) (ht : s.At t thread) (hprofile : thread.profile = some p)
    (hflag : s.flag p = true) (hprofile' : thread'.profile = some p)
    (hdestroys' : thread'.destroys = false) (hholding' : thread' ≠ .holding p)
    (hlock' : thread' = .relocked p ∨ thread' = .freeing p →
      ∀ u, u ≠ t → ¬ s.At u (.holding p)) :
    Stage (s.goto t thread') p := by
  have hat : ∀ {u other}, (s.goto t thread').At u other →
      (u = t ∧ other = thread') ∨ (u ≠ t ∧ s.At u other) := (at_set ht rfl).mp
  cases h with
  | kept _ _ _ hnot | removed _ hnot => exact absurd (hflag.symm.trans hnot) (by simp)
  | flagged hname _ hdestroyed _ _ _ _ hothers hlock =>
    refine .flagged hname hflag hdestroyed t thread' ((at_set ht rfl).mpr (.inl ⟨rfl, rfl⟩))
      hprofile' ?_ ?_
    · intro u other hu hother
      rcases hat hu with ⟨-, rfl⟩ | ⟨-, hu⟩
      · exact hdestroys'
      · exact hothers u other hu hother
    · intro u other hu hother u' hu'
      rcases hat hu' with ⟨-, h⟩ | ⟨hne, hold'⟩
      · exact hholding' h.symm
      · rcases hat hu with ⟨-, h⟩ | ⟨-, hold⟩
        · exact hlock' (h ▸ hother) u' hne hold'
        · exact hlock u other hold hother u' hold'
  | gone _ _ hothers => exact absurd hprofile (hothers t thread ht)

/-- Somebody else has a lock, and will free the profile. -/
lemma Stage.giveUp (h : Stage s p) (ht : s.At t (.trying p)) (hlocked : s.locked p = true) :
    Stage (s.goto t .idle) p := by
  obtain ⟨hname, hflag, hdestroyed, hothers, hlock⟩ :=
    h.flag_of_unlocks ht rfl rfl (by simp)
  obtain ⟨other, hmem, hlocks⟩ := List.any_eq_true.mp hlocked
  obtain ⟨u, hu⟩ := List.mem_iff_getElem?.mp hmem
  have hne : u ≠ t := by
    rintro rfl
    obtain rfl := Option.some.inj (ht.symm.trans hu)
    cases hlocks
  have hprofile : other.profile = some p := by
    cases other <;> simp_all [Thread.locks, Thread.profile]
  have hat : ∀ {u other}, (s.goto t .idle).At u other →
      (u = t ∧ other = .idle) ∨ (u ≠ t ∧ s.At u other) := (at_set ht rfl).mp
  refine .flagged hname hflag hdestroyed u other ((at_set ht rfl).mpr (.inr ⟨hne, hu⟩)) hprofile
    ?_ ?_
  · intro u other hu hother
    rcases hat hu with ⟨-, rfl⟩ | ⟨-, hu⟩
    · cases hother
    · exact hothers u other hu hother
  · intro u other hu hother u' hu'
    rcases hat hu' with ⟨-, h⟩ | ⟨-, hold'⟩
    · cases h
    · rcases hat hu with ⟨-, rfl⟩ | ⟨-, hold⟩
      · rcases hother with h | h <;> cases h
      · exact hlock u other hold hother u' hold'

/-- The thread that has removed the profile goes on with the lock. -/
lemma Stage.destroy (h : Stage s p) (ht : s.At t thread) (hprofile : thread.profile = some p)
    (hdestroys : thread.destroys = true) (hprofile' : thread'.profile = some p)
    (hdestroys' : thread'.destroys = true)
    (hlock' : thread' = .destroying p → ∀ u, ¬ s.At u (.holding p)) :
    Stage (s.goto t thread') p := by
  obtain ⟨hname, hflag, hdestroyed, hothers, -⟩ := h.removed_of_destroys ht hprofile hdestroys
  have hat : ∀ {u other}, (s.goto t thread').At u other →
      (u = t ∧ other = thread') ∨ (u ≠ t ∧ s.At u other) := (at_set ht rfl).mp
  refine .removed hname hflag hdestroyed t thread' ((at_set ht rfl).mpr (.inl ⟨rfl, rfl⟩))
    hprofile' hdestroys' ?_ ?_
  · intro u other hne hu hother
    rcases hat hu with ⟨h, -⟩ | ⟨-, hu⟩
    · exact absurd h hne
    · exact hothers u other hne hu hother
  · intro heq u hu
    rcases hat hu with ⟨-, h⟩ | ⟨-, hu⟩
    · rw [← h] at hdestroys'
      cases hdestroys'
    · exact hlock' heq u hu

/-- The flag is set for a holder that will look at it. -/
lemma Stage.setFlag (h : Stage s p) (ht : s.At t (.busy p))
    (hsome : .holding p ∈ s.threads ∨ .unlocked p ∈ s.threads) :
    Stage ({ s with flag := Function.update s.flag p true }.goto t .idle) p := by
  obtain ⟨hname, -, hdestroyed, hothers, -⟩ := h.removed_of_destroys ht rfl rfl
  have hat : ∀ {u other}, ({ s with flag := Function.update s.flag p true }.goto t .idle).At u other ↔
      (u = t ∧ other = .idle) ∨ (u ≠ t ∧ s.At u other) := at_set ht rfl
  have hholder : ∃ u other, u ≠ t ∧ s.At u other ∧ other.profile = some p := by
    rcases hsome with hmem | hmem
    all_goals
      obtain ⟨u, hu⟩ := List.mem_iff_getElem?.mp hmem
      refine ⟨u, _, ?_, hu, rfl⟩
      rintro rfl
      exact absurd (ht.symm.trans hu) (by simp)
  obtain ⟨u, other, hne, hu, hprofile⟩ := hholder
  refine .flagged hname (Function.update_self ..) hdestroyed u other (hat.mpr (.inr ⟨hne, hu⟩))
    hprofile ?_ ?_
  · intro u other hu hother
    rcases hat.mp hu with ⟨-, rfl⟩ | ⟨hne, hu⟩
    · rfl
    · rcases hothers u other hne hu hother with rfl | rfl <;> rfl
  · intro u other hu hother
    rcases hat.mp hu with ⟨-, rfl⟩ | ⟨hne, hu⟩
    · rcases hother with h | h <;> cases h
    · rcases hother with rfl | rfl
      · rcases hothers u _ hne hu rfl with h | h <;> cases h
      · rcases hothers u _ hne hu rfl with h | h <;> cases h

/-- A profile is freed that no other thread has to do with. -/
lemma Stage.free (ht : s.At t thread) (hname : ∀ name, s.profileHash name ≠ some p)
    (hdestroyed : s.destroyed p = 0)
    (hothers : ∀ u other, u ≠ t → s.At u other → other.profile ≠ some p) :
    Stage ((s.free p).goto t .idle) p := by
  refine .gone hname ?_ ?_
  · show Function.update s.destroyed p (s.destroyed p + 1) p = 1
    rw [Function.update_self, hdestroyed]
  · intro u other hu
    rcases (at_set ht (rfl : ((s.free p).goto t .idle).threads = _)).mp hu with ⟨-, rfl⟩ | ⟨hne, hu⟩
    · simp [Thread.profile]
    · exact hothers u other hne hu

/-- A profile is freed by the last thread that has to do with it. -/
lemma Inv.free (h : Inv s) (ht : s.At t thread) (hprofile : thread.profile = some p)
    (hname : ∀ name, s.profileHash name ≠ some p)
    (hothers : ∀ u other, u ≠ t → s.At u other → other.profile ≠ some p) :
    Inv ((s.free p).goto t .idle) := by
  obtain ⟨hp, hdestroyed⟩ := h.alive ht hprofile
  refine h.set ht rfl hp (fun q hq => Option.some.inj (hq.symm.trans hprofile))
    (fun q hq => absurd hq (by simp [Thread.profile])) ?_ rfl (fun _ _ _ => Iff.rfl)
    (fun _ _ => rfl) (fun q hq => Function.update_of_ne hq ..) (.free ht hname hdestroyed hothers)
  show (s.use p).misused = s.misused
  rw [use_of_alive hdestroyed]

/-- A thread that does not find the profile locked. -/
lemma not_holding (hlocked : s.locked p = false) (u : ℕ) : ¬ s.At u (.holding p) := by
  intro hu
  rw [State.locked, List.any_eq_false] at hlocked
  exact hlocked _ (List.mem_of_getElem? hu) (by simp [Thread.locks])

/-- The other threads at a profile that is freed. -/
lemma not_profile {other : Thread} (hholding : other ≠ .holding p)
    (hunlocks : other.unlocks = false) (hdestroys : other.destroys = false) :
    other.profile ≠ some p := by
  intro hprofile
  cases other with
  | holding q => exact hholding (congrArg Thread.holding (Option.some.inj hprofile))
  | idle => cases hprofile
  | unlocked q | trying q | relocked q | freeing q => cases hunlocks
  | removed q block | busy q | destroying q => cases hdestroys

/-- **A step of `profile_rwunlock` or `destroy_profile`.** -/
lemma Inv.step (h : Inv s) (ht : s.At t thread)
    (hsettles : s.Settles t thread) (hstep : s.step t thread = some s') : Inv s' := by
  cases thread with
  | idle => cases hstep
  | holding p =>
    obtain rfl := Option.some.inj hstep
    obtain ⟨hp, -⟩ := h.alive ht rfl
    exact h.goto ht rfl (fun q hq => (Option.some.inj hq).symm) ((h.stage p hp).unlock ht)
  | unlocked p =>
    obtain rfl := Option.some.inj hstep
    obtain ⟨hp, -⟩ := h.alive ht rfl
    cases hflag : s.flag p with
    | true =>
      exact h.goto ht rfl (fun q hq => (Option.some.inj hq).symm)
        ((h.stage p hp).goOn ht rfl hflag rfl rfl (by simp) (by simp))
    | false =>
      exact h.goto ht rfl (fun q hq => absurd hq (by simp [Thread.profile]))
        ((h.stage p hp).leave ht hflag)
  | trying p =>
    obtain rfl := Option.some.inj hstep
    obtain ⟨hp, -⟩ := h.alive ht rfl
    cases hlocked : s.locked p with
    | true =>
      exact h.goto ht rfl (fun q hq => absurd hq (by simp [Thread.profile]))
        ((h.stage p hp).giveUp ht hlocked)
    | false =>
      obtain ⟨-, hflag, -⟩ := (h.stage p hp).flag_of_unlocks ht rfl rfl (by simp)
      exact h.goto ht rfl (fun q hq => (Option.some.inj hq).symm)
        ((h.stage p hp).goOn ht rfl hflag rfl rfl (by simp) (fun _ u _ => not_holding hlocked u))
  | relocked p =>
    obtain rfl := Option.some.inj hstep
    obtain ⟨hp, -⟩ := h.alive ht rfl
    obtain ⟨-, hflag, -, -, hlock⟩ := (h.stage p hp).flag_of_unlocks ht rfl rfl (by simp)
    exact h.goto ht rfl (fun q hq => (Option.some.inj hq).symm)
      ((h.stage p hp).goOn ht rfl hflag rfl rfl (by simp)
        (fun _ u _ => hlock t _ ht (.inl rfl) u))
  | freeing p =>
    obtain rfl := Option.some.inj hstep
    obtain ⟨hp, -⟩ := h.alive ht rfl
    obtain ⟨hname, -, -, hothers, hlock⟩ :=
      (h.stage p hp).flag_of_unlocks ht rfl rfl (by simp)
    refine h.free ht rfl hname fun u other hne hu hprofile => ?_
    refine not_profile ?_ (hsettles u (lt_of_at hu) hne other hu hprofile)
      (hothers u other hu hprofile) hprofile
    rintro rfl
    exact hlock t _ ht (.inr rfl) u hu
  | removed p block =>
    obtain ⟨hp, -⟩ := h.alive ht rfl
    cases hlocked : s.locked p with
    | true =>
      cases block with
      | true => simp [State.step, hlocked] at hstep
      | false =>
        simp only [State.step, hlocked, Option.some.injEq] at hstep
        obtain rfl := hstep
        exact h.goto ht rfl (fun q hq => (Option.some.inj hq).symm)
          ((h.stage p hp).destroy ht rfl rfl rfl rfl (by simp))
    | false =>
      have hdestroying : s' = (s.use p).goto t (.destroying p) := by
        cases block <;> simpa [State.step, hlocked, eq_comm] using hstep
      subst hdestroying
      exact h.goto ht rfl (fun q hq => (Option.some.inj hq).symm)
        ((h.stage p hp).destroy ht rfl rfl rfl rfl (fun _ => not_holding hlocked))
  | busy p =>
    obtain rfl := Option.some.inj hstep
    obtain ⟨hp, hdestroyed⟩ := h.alive ht rfl
    rw [use_of_alive hdestroyed]
    exact h.set ht rfl hp (fun q hq => (Option.some.inj hq).symm)
      (fun q hq => absurd hq (by simp [Thread.profile])) rfl rfl (fun _ _ _ => Iff.rfl)
      (fun q hq => Function.update_of_ne hq ..) (fun _ _ => rfl)
      ((h.stage p hp).setFlag ht hsettles)
  | destroying p =>
    obtain rfl := Option.some.inj hstep
    obtain ⟨hp, -⟩ := h.alive ht rfl
    obtain ⟨hname, -, -, hothers, hlock⟩ := (h.stage p hp).removed_of_destroys ht rfl rfl
    refine h.free ht rfl hname fun u other hne hu hprofile => ?_
    rcases hothers u other hne hu hprofile with rfl | rfl
    · exact hlock rfl u hu
    · exact absurd (hsettles u (lt_of_at hu) hne _ hu rfl) (by simp [Thread.unlocks])

/-- What is in the hash is kept. -/
lemma Stage.of_hash (h : Stage s p) (hname : s.profileHash name = some p) :
    (∀ name', s.profileHash name' = some p → name' = name) ∧ s.flag p = false ∧
      s.destroyed p = 0 ∧ ∀ u other, s.At u other → other.profile = some p →
        other = .holding p ∨ other = .unlocked p := by
  cases h with
  | kept name' hname' hunique hflag hdestroyed hothers =>
    refine ⟨fun name'' h => ?_, hflag, hdestroyed, hothers⟩
    exact (hunique name'' h).trans (hunique name hname).symm
  | removed hnot | flagged hnot | gone hnot => exact absurd hname (hnot name)

lemma Inv.lt_of_hash (h : Inv s) (hname : s.profileHash name = some p) : p < s.numLoaded := by
  by_contra hp
  exact (h.fresh p (Nat.not_lt.mp hp)).name name hname

/-- `get_profile` finds the profile. -/
lemma Inv.get (h : Inv s) (ht : s.At t .idle) (hname : s.profileHash name = some p) :
    Inv ((s.use p).goto t (.holding p)) := by
  have hp := h.lt_of_hash hname
  obtain ⟨hunique, hflag, hdestroyed, hothers⟩ := (h.stage p hp).of_hash hname
  rw [use_of_alive hdestroyed]
  refine h.set ht rfl hp (fun q hq => absurd hq (by simp [Thread.profile]))
    (fun q hq => (Option.some.inj hq).symm) rfl rfl (fun _ _ _ => Iff.rfl) (fun _ _ => rfl)
    (fun _ _ => rfl) (.kept name hname hunique hflag hdestroyed fun u other hu hother => ?_)
  rcases (at_set ht (rfl : (s.goto t (.holding p)).threads = _)).mp hu with ⟨-, rfl⟩ | ⟨-, hu⟩
  · exact .inl rfl
  · exact hothers u other hu hother

/-- `get_profile` loads the profile. -/
lemma Inv.load (h : Inv s) (ht : s.At t .idle) (hname : s.profileHash name = none) :
    Inv ({ s with
      profileHash := Function.update s.profileHash name (some s.numLoaded)
      numLoaded := s.numLoaded + 1 }.goto t (.holding s.numLoaded)) := by
  have hfresh := h.fresh s.numLoaded le_rfl
  have hnames : ∀ q, q ≠ s.numLoaded → ∀ name',
      Function.update s.profileHash name (some s.numLoaded) name' = some q ↔
        s.profileHash name' = some q := by
    intro q hq name'
    by_cases heq : name' = name
    · rw [heq, Function.update_self, hname]
      simp [Ne.symm hq]
    · rw [Function.update_of_ne heq]
  refine ⟨h.used, fun q hq => ?_, fun q hq => ?_⟩
  · by_cases heq : q = s.numLoaded
    · subst heq
      refine .kept name (Function.update_self ..) ?_ hfresh.flag hfresh.destroyed ?_
      · intro name' hname'
        by_contra hne
        exact hfresh.name name' ((Function.update_of_ne hne ..).symm.trans hname')
      · intro u other hu hother
        rcases (at_set ht rfl).mp hu with ⟨-, rfl⟩ | ⟨-, hu⟩
        · exact .inl rfl
        · exact absurd hother (hfresh.threads u other hu)
    · refine (h.stage q (Nat.lt_of_le_of_ne (Nat.le_of_lt_succ hq) heq)).frame ht rfl
        (by simp [Thread.profile]) ?_ (hnames q heq) rfl rfl
      exact fun hq => heq (Option.some.inj hq).symm
  · have hlt : s.numLoaded < q := hq
    have hfresh := h.fresh q hlt.le
    refine hfresh.frame ht rfl ?_ ?_ rfl rfl
    · exact fun hq => absurd (Option.some.inj hq) hlt.ne
    · exact fun name' => (hnames q hlt.ne' name').not.mpr (hfresh.name name')

/-- `destroy_profile` removes the profile from the hash. -/
lemma Inv.remove (h : Inv s) (ht : s.At t .idle) (hname : s.profileHash name = some p)
    (block : Bool) :
    Inv ({ s with profileHash := Function.update s.profileHash name none }.goto t
      (.removed p block)) := by
  have hp := h.lt_of_hash hname
  obtain ⟨hunique, hflag, hdestroyed, hothers⟩ := (h.stage p hp).of_hash hname
  have hnames : ∀ q, q ≠ p → ∀ name', Function.update s.profileHash name none name' = some q ↔
      s.profileHash name' = some q := by
    intro q hq name'
    by_cases heq : name' = name
    · rw [heq, Function.update_self, hname]
      simp [Ne.symm hq]
    · rw [Function.update_of_ne heq]
  refine h.set ht rfl hp (fun q hq => absurd hq (by simp [Thread.profile]))
    (fun q hq => (Option.some.inj hq).symm) rfl rfl hnames (fun _ _ => rfl) (fun _ _ => rfl) ?_
  refine .removed ?_ hflag hdestroyed t (.removed p block) ((at_set ht rfl).mpr (.inl ⟨rfl, rfl⟩))
    rfl rfl ?_ (by simp)
  · intro name' hname'
    by_cases heq : name' = name
    · subst heq
      exact absurd ((Function.update_self ..).symm.trans hname') (by simp)
    · exact heq (hunique name' ((Function.update_of_ne heq ..).symm.trans hname'))
  · intro u other hne hu hother
    rcases (at_set ht rfl).mp hu with ⟨h, -⟩ | ⟨-, hu⟩
    · exact absurd h hne
    · exact hothers u other hu hother

/-- **Steps that settle keep the invariant.** -/
lemma next_inv {action : Action} (h : Inv s) (hsettles : Settles s action)
    (hnext : next s action = some s') : Inv s' := by
  cases action with
  | getProfile t name inFile =>
    rw [next] at hnext
    split_ifs at hnext with ht
    rw [State.getProfile] at hnext
    cases hname : s.profileHash name with
    | some p =>
      simp only [hname] at hnext
      split_ifs at hnext
      obtain rfl := Option.some.inj hnext
      exact h.get ht hname
    | none =>
      simp only [hname] at hnext
      split_ifs at hnext
      · obtain rfl := Option.some.inj hnext
        exact h.load ht hname
      · obtain rfl := Option.some.inj hnext
        exact h
  | read t =>
    obtain ⟨thread, ht, hread⟩ := Option.bind_eq_some_iff.mp hnext
    cases thread with
    | holding p =>
      obtain rfl := Option.some.inj hread
      rw [use_of_alive (h.alive ht rfl).2]
      exact h
    | _ => cases hread
  | destroyProfile t name block =>
    rw [next] at hnext
    split_ifs at hnext with ht
    obtain rfl := Option.some.inj hnext
    rw [State.destroyProfile]
    cases hname : s.profileHash name with
    | some p => exact h.remove ht hname block
    | none => exact h
  | step t =>
    obtain ⟨thread, ht, hstep⟩ := Option.bind_eq_some_iff.mp hnext
    exact h.step ht (hsettles thread ht) hstep

/-- **A configuration profile is freed once and never in use**, in every state of a run of such
steps by any number of threads. -/
theorem profile_freed_once {numThreads : ℕ} {actions : List Action}
    (hsettles : Always next Settles (.init numThreads) actions)
    (hrun : run next (.init numThreads) actions = some s) : FreedOnce s :=
  (run_invariant_of_always (fun _ _ _ h hsettles hnext => next_inv h hsettles hnext)
    (inv_init numThreads) hsettles hrun).freedOnce

end

/-! ## An unlock that comes too late -/

/-- Two threads have the profile while it is unloaded, and the second one frees it. -/
def unloadedInUse : List Action :=
  [.getProfile 0 ['a'] true, .getProfile 1 ['a'] true, .destroyProfile 2 ['a'] false, .step 2,
    .step 2, .read 0, .step 0, .step 0, .step 0, .step 1, .step 1, .step 1, .step 1, .step 1]

theorem profile_freed_once_unloadedInUse :
    ∃ s, run next (.init 3) unloadedInUse = some s ∧ FreedOnce s :=
  ⟨_, rfl, profile_freed_once (by decide : Always next Settles (.init 3) unloadedInUse) rfl⟩

/-- The profile is unloaded when its lock was given back and its flag not tested yet. -/
def unloadedBetween : List Action :=
  [.getProfile 0 ['a'] true, .step 0, .destroyProfile 1 ['a'] false, .step 1, .step 1, .step 0]

/-- `profile_rwunlock` tests the flag of a profile that was freed. -/
theorem flag_tested_after_free : ¬ ∀ (numThreads : ℕ) (actions : List Action) (s : State),
    run next (.init numThreads) actions = some s → FreedOnce s := by
  intro h
  have hfreed := h 2 unloadedBetween _ rfl
  exact absurd hfreed.used (by decide)

end ConfigProfiles

end FreeswitchContrib.VoicemailOriginate
