import Mathlib.Data.Finset.Basic
import Mathlib.Logic.Function.Basic
import FreeswitchContrib.Library.Interleaving

/-!
# Hot reload

Lookups and reloads of `mod_simple_lcr.c` from any number of threads.  A step is a call of a lock or
an access to `globals.lcr` between two of them; `lcr_rdlock` reads the pointer and takes the read
lock of the database under `update_lock`, `lcr_replace` swaps the pointer under `update_lock`, and
`lcr_destroy` takes the write lock of what was swapped out.

`Inv` is the invariant: a database is the current one, or it belongs to one reloading thread, or it
was destroyed; and a reader has either the read lock, or `update_lock` and the current database.
-/

namespace FreeswitchContrib.SimpleLcr.HotReload

open Interleaving

/-- Where a thread is, with its `lcr`, `new_lcr` or `old_lcr`. -/
inductive Phase where
  | idle
  /-- `lcr_rdlock` has `update_lock` -/
  | rdlockEntered
  /-- and has read `globals.lcr` -/
  | rdlockRead (lcr : ℕ)
  /-- and has the read lock -/
  | rdlockLocked (lcr : ℕ)
  /-- `lcr_rdlock` has returned, `lcr_unlock` was not called -/
  | looking (lcr : ℕ)
  /-- `load_config` has filled the new database -/
  | loaded (newLcr : ℕ)
  /-- `lcr_replace` has `update_lock` -/
  | replaceEntered (newLcr : ℕ)
  /-- and has swapped the pointers -/
  | replaceSwapped (oldLcr : ℕ)
  /-- `lcr_destroy` waits for the write lock -/
  | destroyEntered (lcr : ℕ)
  /-- `lcr_destroy` has the write lock -/
  | destroyLocked (lcr : ℕ)
  deriving DecidableEq

/-- The globals and the databases, which have numbers in the order of their creation. -/
structure State (τ : Type) where
  lcr : ℕ
  updateLock : Option τ
  /-- the read and write locks of the databases -/
  readers : ℕ → Finset τ
  writer : ℕ → Option τ
  numCreated : ℕ
  /-- how often a database was destroyed -/
  destroyed : ℕ → ℕ
  phase : τ → Phase

inductive Action (τ : Type) where
  /-- a lookup calls `lcr_rdlock` -/
  | lookup (t : τ)
  /-- `load_config` creates a database -/
  | loadConfig (t : τ)
  /-- and fails -/
  | loadFailed (t : τ)
  /-- the next step of a lookup or reload -/
  | advance (t : τ)

/-- A database was loaded, and no thread does anything. -/
def State.init (τ : Type) : State τ where
  lcr := 0
  updateLock := none
  readers := fun _ => ∅
  writer := fun _ => none
  numCreated := 1
  destroyed := fun _ => 0
  phase := fun _ => .idle

variable {τ : Type} [DecidableEq τ]

def State.goto (s : State τ) (t : τ) (phase : Phase) : State τ :=
  { s with phase := Function.update s.phase t phase }

def advance (s : State τ) (t : τ) : Option (State τ) :=
  match s.phase t with
  | .idle => none
  | .rdlockEntered => some (s.goto t (.rdlockRead s.lcr))
  | .rdlockRead lcr =>
    if s.writer lcr = none then
      some ({ s with readers := Function.update s.readers lcr (insert t (s.readers lcr)) }.goto t
        (.rdlockLocked lcr))
    else
      none
  | .rdlockLocked lcr => some ({ s with updateLock := none }.goto t (.looking lcr))
  | .looking lcr =>
    some ({ s with readers := Function.update s.readers lcr ((s.readers lcr).erase t) }.goto t .idle)
  | .loaded newLcr =>
    if s.updateLock = none then
      some ({ s with updateLock := some t }.goto t (.replaceEntered newLcr))
    else
      none
  | .replaceEntered newLcr => some ({ s with lcr := newLcr }.goto t (.replaceSwapped s.lcr))
  | .replaceSwapped oldLcr => some ({ s with updateLock := none }.goto t (.destroyEntered oldLcr))
  | .destroyEntered lcr =>
    if s.readers lcr = ∅ ∧ s.writer lcr = none then
      some ({ s with writer := Function.update s.writer lcr (some t) }.goto t (.destroyLocked lcr))
    else
      none
  | .destroyLocked lcr =>
    some ({ s with destroyed := Function.update s.destroyed lcr (s.destroyed lcr + 1) }.goto t .idle)

def next (s : State τ) : Action τ → Option (State τ)
  | .lookup t =>
    if s.phase t = .idle ∧ s.updateLock = none then
      some ({ s with updateLock := some t }.goto t .rdlockEntered)
    else
      none
  | .loadConfig t =>
    if s.phase t = .idle then
      some ({ s with numCreated := s.numCreated + 1 }.goto t (.loaded s.numCreated))
    else
      none
  | .loadFailed t =>
    match s.phase t with
    | .loaded newLcr => some (s.goto t (.destroyEntered newLcr))
    | _ => none
  | .advance t => advance s t

/-! ## What is kept -/

/-- A reader got this database from `globals.lcr`, and has not unlocked it. -/
def Phase.Obtained (lcr : ℕ) : Phase → Prop
  | .rdlockRead d | .rdlockLocked d | .looking d => d = lcr
  | _ => False

/-- Only this thread can reach the database. -/
def Phase.Owns (lcr : ℕ) : Phase → Prop
  | .loaded d | .replaceEntered d | .replaceSwapped d | .destroyEntered d | .destroyLocked d =>
    d = lcr
  | _ => False

/-- **Hot reload is safe** in this state. -/
structure Safe (s : State τ) : Prop where
  noReader : ∀ t lcr, (s.phase t).Obtained lcr →
    s.destroyed lcr = 0 ∧ ∀ t', s.phase t' ≠ .destroyLocked lcr
  once : ∀ lcr, s.destroyed lcr ≤ 1
  notCurrent : s.destroyed s.lcr = 0 ∧ ∀ t, s.phase t ≠ .destroyLocked s.lcr

/-- What a thread in this phase can rely on. -/
def ThreadOk (s : State τ) (t : τ) : Phase → Prop
  | .idle => True
  | .rdlockEntered => s.updateLock = some t
  | .rdlockRead lcr => s.updateLock = some t ∧ lcr = s.lcr
  | .rdlockLocked lcr => s.updateLock = some t ∧ t ∈ s.readers lcr
  | .looking lcr => t ∈ s.readers lcr
  | .loaded _ => True
  | .replaceEntered _ => s.updateLock = some t
  | .replaceSwapped _ => s.updateLock = some t
  | .destroyEntered _ => True
  | .destroyLocked lcr => s.readers lcr = ∅

structure Inv (s : State τ) : Prop where
  thread : ∀ t, ThreadOk s t (s.phase t)
  owner : ∀ t lcr, (s.phase t).Owns lcr →
    lcr ≠ s.lcr ∧ s.destroyed lcr = 0 ∧ lcr < s.numCreated
  unique : ∀ t t' lcr, (s.phase t).Owns lcr → (s.phase t').Owns lcr → t = t'
  dead : ∀ lcr, s.destroyed lcr ≠ 0 →
    s.readers lcr = ∅ ∧ lcr ≠ s.lcr ∧ s.destroyed lcr = 1 ∧ lcr < s.numCreated
  created : s.lcr < s.numCreated

omit [DecidableEq τ] in
lemma Inv.init : Inv (State.init τ) := by
  constructor <;> simp [State.init, ThreadOk, Phase.Owns]

variable {s s₁ s' : State τ} {t : τ} {a : Action τ} {lcr : ℕ} {p : Phase}

omit [DecidableEq τ] in
lemma ThreadOk.frame (h : ThreadOk s t p)
    (hlock : s.updateLock = some t → s₁.updateLock = some t ∧ s₁.lcr = s.lcr)
    (hreader : ∀ d, t ∈ s.readers d → t ∈ s₁.readers d)
    (hempty : ∀ d, p = .destroyLocked d → s.readers d = ∅ → s₁.readers d = ∅) :
    ThreadOk s₁ t p := by
  cases p with
  | idle | loaded | destroyEntered => trivial
  | rdlockEntered | replaceEntered | replaceSwapped => exact (hlock h).1
  | rdlockRead d => exact ⟨(hlock h.1).1, h.2.trans (hlock h.1).2.symm⟩
  | rdlockLocked d => exact ⟨(hlock h.1).1, hreader d h.2⟩
  | looking d => exact hreader d h
  | destroyLocked d => exact hempty d rfl h

omit [DecidableEq τ] in
lemma Inv.not_lcr (h : Inv s) (hphase : s.phase t = .destroyLocked lcr) : lcr ≠ s.lcr :=
  (h.owner t lcr (by rw [hphase]; rfl)).1

omit [DecidableEq τ] in
lemma Inv.lcr_alive (h : Inv s) : s.destroyed s.lcr = 0 ∧ ∀ t, s.phase t ≠ .destroyLocked s.lcr :=
  ⟨by_contra fun hdead => (h.dead s.lcr hdead).2.1 rfl, fun _ hphase => h.not_lcr hphase rfl⟩

omit [DecidableEq τ] in
/-- A database whose lock a reader has is alive. -/
lemma Inv.reader_alive (h : Inv s) (hread : t ∈ s.readers lcr) :
    s.destroyed lcr = 0 ∧ ∀ t', s.phase t' ≠ .destroyLocked lcr := by
  refine ⟨by_contra fun hdead => ?_, fun t' hphase => ?_⟩
  · simp [(h.dead lcr hdead).1] at hread
  · have hempty := h.thread t'
    rw [hphase, ThreadOk] at hempty
    simp [hempty] at hread

omit [DecidableEq τ] in
lemma Inv.safe (h : Inv s) : Safe s where
  noReader t lcr hobtained := by
    have hok := h.thread t
    cases hphase : s.phase t <;> rw [hphase] at hobtained hok
    case rdlockRead d =>
      obtain rfl : d = lcr := hobtained
      obtain ⟨-, rfl⟩ := hok
      exact h.lcr_alive
    case rdlockLocked d =>
      obtain rfl : d = lcr := hobtained
      exact h.reader_alive hok.2
    case looking d =>
      obtain rfl : d = lcr := hobtained
      exact h.reader_alive hok
    all_goals exact hobtained.elim
  once lcr := by
    by_contra hmany
    have := (h.dead lcr (by omega)).2.2.1
    omega
  notCurrent := h.lcr_alive

omit [DecidableEq τ] in
lemma Inv.alone (h : Inv s) (hphase : s.phase t = p) (hp : p.Owns lcr) {t' : τ} (hne : t' ≠ t) :
    ¬ (s.phase t').Owns lcr := by
  intro hown
  exact hne (h.unique t' t lcr hown (hphase ▸ hp))

lemma goto_phase (s : State τ) (t t' : τ) (p : Phase) :
    (s.goto t p).phase t' = if t' = t then p else s.phase t' :=
  Function.update_apply s.phase t p t'

lemma threadOk_goto (hphase : s₁.phase = s.phase) (hok : ThreadOk s₁ t p)
    (hothers : ∀ t', t' ≠ t → ThreadOk s₁ t' (s.phase t')) (t' : τ) :
    ThreadOk (s₁.goto t p) t' ((s₁.goto t p).phase t') := by
  have hok' : ThreadOk s₁ t' ((s₁.goto t p).phase t') := by
    rw [goto_phase, hphase]
    split_ifs with heq
    · exact heq ▸ hok
    · exact hothers t' heq
  exact hok'.frame (fun hlock => ⟨hlock, rfl⟩) (fun _ => id) (fun _ _ => id)

/-- The other threads do not own what the thread owns at its new place. -/
lemma Inv.unique_goto (h : Inv s) (hphase : s₁.phase = s.phase)
    (hnew : ∀ d, p.Owns d → ∀ t', t' ≠ t → ¬ (s.phase t').Owns d) (t' t'' : τ) (d : ℕ)
    (hown : ((s₁.goto t p).phase t').Owns d) (hown' : ((s₁.goto t p).phase t'').Owns d) :
    t' = t'' := by
  rw [goto_phase, hphase] at hown hown'
  split_ifs at hown hown' with heq heq' heq'
  · exact heq.trans heq'.symm
  · exact absurd hown' (hnew d hown t'' heq')
  · exact absurd hown (hnew d hown' t' heq)
  · exact h.unique t' t'' d hown hown'

/-- A step that neither swaps nor creates nor destroys, of a thread that does not get a database. -/
lemma Inv.goto (h : Inv s) (hphase : s₁.phase = s.phase) (hlcr : s₁.lcr = s.lcr)
    (hcreated : s₁.numCreated = s.numCreated) (hdestroyed : s₁.destroyed = s.destroyed)
    (hdead : ∀ d, s.destroyed d ≠ 0 → s.readers d = ∅ → s₁.readers d = ∅)
    (hok : ThreadOk s₁ t p) (hothers : ∀ t', t' ≠ t → ThreadOk s₁ t' (s.phase t'))
    (howns : ∀ d, p.Owns d → (s.phase t).Owns d) : Inv (s₁.goto t p) := by
  have hkeeps : ∀ t' d, ((s₁.goto t p).phase t').Owns d → (s.phase t').Owns d := by
    intro t' d hown
    rw [goto_phase, hphase] at hown
    split_ifs at hown with heq
    · exact heq ▸ howns d hown
    · exact hown
  constructor
  · exact threadOk_goto hphase hok hothers
  · intro t' d hown
    have := h.owner t' d (hkeeps t' d hown)
    simpa [State.goto, hlcr, hcreated, hdestroyed] using this
  · intro t' t'' d hown hown'
    exact h.unique t' t'' d (hkeeps t' d hown) (hkeeps t'' d hown')
  · intro d hd
    simp only [State.goto, hdestroyed] at hd
    obtain ⟨hempty, hne, hone, hlt⟩ := h.dead d hd
    exact ⟨hdead d hd hempty, hlcr ▸ hne, hdestroyed ▸ hone, hcreated ▸ hlt⟩
  · simpa [State.goto, hlcr, hcreated] using h.created

omit [DecidableEq τ] in
/-- Who has `update_lock` excludes the others. -/
lemma Inv.lock_excludes {t' : τ} (hlock : s.updateLock = some t) (hne : t' ≠ t)
    (hother : s.updateLock = some t') : False :=
  hne (Option.some.inj (hother.symm.trans hlock))

/-- The old database goes to the thread that swaps in its own. -/
lemma Inv.swap (h : Inv s) (hphase : s.phase t = .replaceEntered lcr)
    (hlock : s.updateLock = some t) :
    Inv ({ s with lcr := lcr }.goto t (.replaceSwapped s.lcr)) := by
  obtain ⟨hne, halive, hlt⟩ := h.owner t lcr (by rw [hphase]; rfl)
  constructor
  · exact threadOk_goto rfl hlock fun t' hne => (h.thread t').frame
      (fun hother => (Inv.lock_excludes hlock hne hother).elim) (fun _ => id) fun _ _ => id
  · intro t' d hown
    rw [goto_phase] at hown
    split_ifs at hown with heq
    · obtain rfl : s.lcr = d := hown
      exact ⟨hne.symm, h.lcr_alive.1, h.created⟩
    · have hother := h.owner t' d hown
      refine ⟨fun hd => ?_, hother.2⟩
      subst hd
      exact h.alone hphase rfl heq hown
  · refine h.unique_goto rfl fun d hd t' _ hown => ?_
    exact (h.owner t' d hown).1 hd.symm
  · intro d hd
    obtain ⟨hempty, -, hone, hlt'⟩ := h.dead d hd
    refine ⟨hempty, fun heq => ?_, hone, hlt'⟩
    subst heq
    exact hd halive
  · exact hlt

/-- A new database belongs to the thread that created it. -/
lemma Inv.create (h : Inv s) :
    Inv ({ s with numCreated := s.numCreated + 1 }.goto t (.loaded s.numCreated)) := by
  have hfresh : s.destroyed s.numCreated = 0 := by
    by_contra hdead
    have := (h.dead _ hdead).2.2.2
    omega
  constructor
  · exact threadOk_goto rfl trivial fun t' _ => (h.thread t').frame
      (fun hother => ⟨hother, rfl⟩) (fun _ => id) fun _ _ => id
  · intro t' d hown
    rw [goto_phase] at hown
    split_ifs at hown with heq
    · obtain rfl : s.numCreated = d := hown
      exact ⟨h.created.ne', hfresh, Nat.lt_succ_self _⟩
    · obtain ⟨hne, halive, hlt⟩ := h.owner t' d hown
      exact ⟨hne, halive, Nat.lt_succ_of_lt hlt⟩
  · refine h.unique_goto rfl fun d hd t' _ hown => ?_
    obtain rfl : s.numCreated = d := hd
    exact absurd (h.owner t' _ hown).2.2 (lt_irrefl _)
  · intro d hd
    obtain ⟨hempty, hne, hone, hlt⟩ := h.dead d hd
    exact ⟨hempty, hne, hone, Nat.lt_succ_of_lt hlt⟩
  · exact Nat.lt_succ_of_lt h.created

/-- The thread that has the write lock gives its database up. -/
lemma Inv.destroy (h : Inv s) (hphase : s.phase t = .destroyLocked lcr) :
    Inv ({ s with destroyed := Function.update s.destroyed lcr (s.destroyed lcr + 1) }.goto t
      .idle) := by
  obtain ⟨hne, halive, hlt⟩ := h.owner t lcr (by rw [hphase]; rfl)
  have hempty := h.thread t
  rw [hphase, ThreadOk] at hempty
  constructor
  · exact threadOk_goto rfl trivial fun t' _ => (h.thread t').frame
      (fun hother => ⟨hother, rfl⟩) (fun _ => id) fun _ _ => id
  · intro t' d hown
    rw [goto_phase] at hown
    split_ifs at hown with heq
    · exact hown.elim
    · have hd : d ≠ lcr := by
        rintro rfl
        exact h.alone hphase rfl heq hown
      simpa [State.goto, Function.update_of_ne hd] using h.owner t' d hown
  · exact h.unique_goto rfl fun d hd => hd.elim
  · intro d hd
    by_cases heq : d = lcr
    · subst heq
      exact ⟨hempty, hne, by simp [State.goto, halive], hlt⟩
    · simp only [State.goto, Function.update_of_ne heq] at hd ⊢
      exact h.dead d hd
  · exact h.created

/-! ### The readers of a database -/

section

variable {readers : ℕ → Finset τ} {d : ℕ} {t' : τ}

lemma mem_update_insert (hread : t' ∈ readers d) :
    t' ∈ Function.update readers lcr (insert t (readers lcr)) d := by
  by_cases heq : d = lcr
  · subst heq
    simp [hread]
  · rwa [Function.update_of_ne heq]

lemma mem_update_erase (hne : t' ≠ t) (hread : t' ∈ readers d) :
    t' ∈ Function.update readers lcr ((readers lcr).erase t) d := by
  by_cases heq : d = lcr
  · subst heq
    simp [hread, hne]
  · rwa [Function.update_of_ne heq]

lemma update_erase_eq_empty (hempty : readers d = ∅) :
    Function.update readers lcr ((readers lcr).erase t) d = ∅ := by
  by_cases heq : d = lcr
  · subst heq
    simp [hempty]
  · rwa [Function.update_of_ne heq]

end

lemma Inv.advance (h : Inv s) (hnext : advance s t = some s') : Inv s' := by
  have hok := h.thread t
  rw [HotReload.advance] at hnext
  cases hphase : s.phase t with
  | idle => simp [hphase] at hnext
  | rdlockEntered =>
    rw [hphase] at hok
    simp only [hphase, Option.some.injEq] at hnext
    obtain rfl := hnext
    exact h.goto rfl rfl rfl rfl (fun _ _ => id) ⟨hok, rfl⟩ (fun t' _ => h.thread t') nofun
  | rdlockRead lcr =>
    rw [hphase] at hok
    simp only [hphase, Option.ite_none_right_eq_some, Option.some.injEq] at hnext
    obtain ⟨-, rfl⟩ := hnext
    obtain ⟨hlock, rfl⟩ := hok
    -- no other database than the current one gets a reader
    have hreaders : ∀ d, d ≠ s.lcr →
        Function.update s.readers s.lcr (insert t (s.readers s.lcr)) d = s.readers d :=
      fun d hd => Function.update_of_ne hd _ _
    refine h.goto rfl rfl rfl rfl (fun d hd hempty => ?_) ⟨hlock, by simp⟩
      (fun t' _ => (h.thread t').frame (fun hother => ⟨hother, rfl⟩)
        (fun _ => mem_update_insert) fun d hd hempty => ?_) nofun
    · exact (hreaders d (h.dead d hd).2.1).trans hempty
    · exact (hreaders d (h.not_lcr hd)).trans hempty
  | rdlockLocked lcr =>
    rw [hphase] at hok
    simp only [hphase, Option.some.injEq] at hnext
    obtain rfl := hnext
    exact h.goto rfl rfl rfl rfl (fun _ _ => id) hok.2 (fun t' hne => (h.thread t').frame
      (fun hother => (Inv.lock_excludes hok.1 hne hother).elim) (fun _ => id) fun _ _ => id) nofun
  | looking lcr =>
    simp only [hphase, Option.some.injEq] at hnext
    obtain rfl := hnext
    exact h.goto rfl rfl rfl rfl (fun _ _ => update_erase_eq_empty) trivial
      (fun t' hne => (h.thread t').frame (fun hother => ⟨hother, rfl⟩)
        (fun _ => mem_update_erase hne) fun _ _ => update_erase_eq_empty) nofun
  | loaded lcr =>
    simp only [hphase, Option.ite_none_right_eq_some, Option.some.injEq] at hnext
    obtain ⟨hfree, rfl⟩ := hnext
    refine h.goto rfl rfl rfl rfl (fun _ _ => id) rfl (fun t' hne => (h.thread t').frame
      (fun hother => by simp [hfree] at hother) (fun _ => id) fun _ _ => id) fun d hd => ?_
    rw [hphase]
    exact hd
  | replaceEntered newLcr =>
    rw [hphase] at hok
    simp only [hphase, Option.some.injEq] at hnext
    obtain rfl := hnext
    exact h.swap hphase hok
  | replaceSwapped lcr =>
    rw [hphase] at hok
    simp only [hphase, Option.some.injEq] at hnext
    obtain rfl := hnext
    refine h.goto rfl rfl rfl rfl (fun _ _ => id) trivial (fun t' hne => (h.thread t').frame
      (fun hother => (Inv.lock_excludes hok hne hother).elim) (fun _ => id) fun _ _ => id)
      fun d hd => ?_
    rw [hphase]
    exact hd
  | destroyEntered lcr =>
    simp only [hphase, Option.ite_none_right_eq_some, Option.some.injEq] at hnext
    obtain ⟨⟨hempty, -⟩, rfl⟩ := hnext
    refine h.goto rfl rfl rfl rfl (fun _ _ => id) hempty (fun t' hne => (h.thread t').frame
      (fun hother => ⟨hother, rfl⟩) (fun _ => id) fun _ _ => id) fun d hd => ?_
    rw [hphase]
    exact hd
  | destroyLocked lcr =>
    simp only [hphase, Option.some.injEq] at hnext
    obtain rfl := hnext
    exact h.destroy hphase

lemma Inv.next (h : Inv s) (hnext : next s a = some s') : Inv s' := by
  cases a with
  | lookup t =>
    simp only [HotReload.next, Option.ite_none_right_eq_some, Option.some.injEq] at hnext
    obtain ⟨⟨-, hfree⟩, rfl⟩ := hnext
    exact h.goto rfl rfl rfl rfl (fun _ _ => id) rfl (fun t' hne => (h.thread t').frame
      (fun hother => by simp [hfree] at hother) (fun _ => id) fun _ _ => id) nofun
  | loadConfig t =>
    simp only [HotReload.next, Option.ite_none_right_eq_some, Option.some.injEq] at hnext
    obtain ⟨-, rfl⟩ := hnext
    exact h.create
  | loadFailed t =>
    simp only [HotReload.next] at hnext
    split at hnext
    case h_1 newLcr hphase =>
      obtain rfl := Option.some.inj hnext
      refine h.goto rfl rfl rfl rfl (fun _ _ => id) trivial (fun t' _ => h.thread t') fun d hd => ?_
      rw [hphase]
      exact hd
    case h_2 => cases hnext
  | advance t => exact h.advance hnext

/-- **Hot reload is safe.**  However any number of lookups and reloads interleave, no database is
destroyed while a reader that obtained it has not unlocked it, none is destroyed twice, and the
current one is never destroyed. -/
theorem run_safe {as : List (Action τ)} (h : run next (State.init τ) as = some s) : Safe s :=
  (run_invariant (fun _ _ _ hI hnext => hI.next hnext) Inv.init h).safe

/-- A reload that swaps while a lookup holds the old database, and waits for it. -/
def reloadDuringLookup : List (Action Bool) :=
  [.loadConfig true, .lookup false, .advance false, .advance false, .advance false, .advance true,
    .advance true, .advance true, .advance false, .advance true, .advance true]

theorem run_safe_reloadDuringLookup :
    ∃ s, run next (State.init Bool) reloadDuringLookup = some s ∧ s.lcr = 1 ∧ Safe s :=
  ⟨_, rfl, rfl, run_safe (show run next _ reloadDuringLookup = some _ from rfl)⟩

end FreeswitchContrib.SimpleLcr.HotReload
