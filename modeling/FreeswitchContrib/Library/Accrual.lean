import Mathlib.Algebra.Order.Field.Basic
import Mathlib.Tactic.Ring
import Mathlib.Tactic.Linarith

/-!
# Accrual with pauses

A charge that accrues at a constant rate, can be paused and resumed, and is settled from time to
time.  `Accrual` is the book-keeping: the moment of the last settlement, a credit taken off the next
one, and the moment a running pause began.  `Stopwatch` is what the book-keeping is about: how long
the charge was paused in all.

`Conserves.settled_add_owed` is the point: what was settled and what is still owed is the rate times
the time that was not paused.
-/

namespace Accrual

variable {K : Type} [Field K]

/-- How long something was paused: the completed pauses and the one that is running. -/
structure Stopwatch (K : Type) where
  pausedAt : Option K
  idle : K

/-- The total time paused up to `t`. -/
def Stopwatch.pausedTime (w : Stopwatch K) (t : K) : K :=
  w.idle + (w.pausedAt.map fun p => t - p).getD 0

/-- A pause of what is paused already changes nothing. -/
def Stopwatch.pause (t : K) (w : Stopwatch K) : Stopwatch K :=
  { w with pausedAt := some (w.pausedAt.getD t) }

def Stopwatch.resume (t : K) (w : Stopwatch K) : Stopwatch K :=
  { pausedAt := none, idle := w.pausedTime t }

/-- The book-keeping of a charge: settled up to `since`, with `credit` to take off. -/
structure Account (K : Type) where
  since : K
  credit : K
  pausedAt : Option K

/-- What is owed at `t`: the rate since the last settlement, up to the running pause if there is
one, less the credit. -/
def Account.owed (rate : K) (a : Account K) (t : K) : K :=
  rate * (a.pausedAt.getD t - a.since) - a.credit

def Account.pause (t : K) (a : Account K) : Account K :=
  { a with pausedAt := some (a.pausedAt.getD t) }

/-- The end of a pause is a credit for the time it took. -/
def Account.resume (rate t : K) (a : Account K) : Account K :=
  { a with
    pausedAt := none
    credit := a.credit + (a.pausedAt.map fun p => rate * (t - p)).getD 0 }

/-- A settlement at `t`. -/
def Account.settle (t : K) (a : Account K) : Account K :=
  { a with since := t, credit := 0 }

/-- A new starting point, with the credit and the running pause left as they are. -/
def Account.rebase (t : K) (a : Account K) : Account K :=
  { a with since := t }

/-- What the account would give back at `t` for time before `t`. -/
def Account.backlog (rate : K) (a : Account K) (t : K) : K :=
  a.credit + (a.pausedAt.map fun p => rate * (t - p)).getD 0

/-! ## What is owed after each operation -/

variable {rate t u : K} {a : Account K}

@[simp] lemma Account.owed_pause : (a.pause t).owed rate t = a.owed rate t := by
  simp [Account.owed, Account.pause]

@[simp] lemma Account.owed_resume : (a.resume rate t).owed rate t = a.owed rate t := by
  rcases h : a.pausedAt with _ | p
  · simp [Account.owed, Account.resume, h]
  · simp only [Account.owed, Account.resume, h, Option.map_some, Option.getD_some, Option.getD_none]
    ring

lemma Account.owed_settle (hrun : a.pausedAt = none) : (a.settle t).owed rate t = 0 := by
  simp [Account.owed, Account.settle, hrun]

/-- A new starting point forgets what was owed, but not the backlog. -/
lemma Account.owed_rebase : (a.rebase t).owed rate t = -a.backlog rate t := by
  rcases h : a.pausedAt with _ | p
  · simp [Account.owed, Account.rebase, Account.backlog, h]
  · simp only [Account.owed, Account.rebase, Account.backlog, h, Option.map_some, Option.getD_some]
    ring

/-- While the charge is paused nothing accrues. -/
lemma Account.owed_of_paused {p : K} (h : a.pausedAt = some p) :
    a.owed rate t = a.owed rate u := by
  simp [Account.owed, h]

section Ordered

variable [LinearOrder K] [IsStrictOrderedRing K]

/-- What is owed never shrinks by waiting. -/
lemma Account.owed_mono (hrate : 0 ≤ rate) (htu : t ≤ u) : a.owed rate t ≤ a.owed rate u := by
  rcases h : a.pausedAt with _ | p
  · have hgap : rate * (t - a.since) ≤ rate * (u - a.since) :=
      mul_le_mul_of_nonneg_left (sub_le_sub_right htu _) hrate
    simpa [Account.owed, h] using hgap
  · exact le_of_eq (Account.owed_of_paused h)

end Ordered

/-! ## Conservation -/

/-- The account agrees with the stopwatch, and the sum settled so far is the rate times the time up
to the last settlement, less the completed pauses, plus the credit still to give. -/
structure Conserves (rate start settled : K) (a : Account K) (w : Stopwatch K) : Prop where
  pausedAt : a.pausedAt = w.pausedAt
  sum : settled = rate * (a.since - start - w.idle) + a.credit

variable {start settled : K} {w : Stopwatch K}

namespace Conserves

lemma pause (h : Conserves rate start settled a w) :
    Conserves rate start settled (a.pause t) (w.pause t) :=
  ⟨by simp [Account.pause, Stopwatch.pause, h.pausedAt],
    by simpa [Account.pause, Stopwatch.pause] using h.sum⟩

lemma resume (h : Conserves rate start settled a w) :
    Conserves rate start settled (a.resume rate t) (w.resume t) := by
  refine ⟨rfl, ?_⟩
  rcases hp : w.pausedAt with _ | p
  · simpa [Account.resume, Stopwatch.resume, Stopwatch.pausedTime, h.pausedAt, hp] using h.sum
  · simp only [Account.resume, Stopwatch.resume, Stopwatch.pausedTime, h.pausedAt, hp,
      Option.map_some, Option.getD_some, h.sum]
    ring

/-- A settlement of exactly what is owed. -/
lemma settle (h : Conserves rate start settled a w) (hrun : a.pausedAt = none) :
    Conserves rate start (settled + a.owed rate t) (a.settle t) w := by
  refine ⟨h.pausedAt, ?_⟩
  simp only [Account.settle, Account.owed, hrun, Option.getD_none, h.sum]
  ring

/-- **What was settled and what is owed is the rate times the time not paused.** -/
theorem settled_add_owed (h : Conserves rate start settled a w) (t : K) :
    settled + a.owed rate t = rate * (t - start - w.pausedTime t) := by
  rcases hp : w.pausedAt with _ | p
  · simp only [Account.owed, Stopwatch.pausedTime, h.pausedAt, hp, Option.map_none,
      Option.getD_none, h.sum]
    ring
  · simp only [Account.owed, Stopwatch.pausedTime, h.pausedAt, hp, Option.map_some,
      Option.getD_some, h.sum]
    ring

end Conserves

end Accrual
