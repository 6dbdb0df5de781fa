import Mathlib.Data.List.Infix

/-!
# Digits and the queue of an IVR

`IvrQueue.GotDtmf` takes the commands off its queue that a digit ends.  Its loop looks at the first
command; it is left at a command that the digit does not end, but not at a `SetVariable`.

* `loop_of_stuck`: the loop is never left at a `SetVariable` that it does not take off.
* `handlesDigit_iff`: the digit is handled if and only if it reaches no such command.
-/

namespace FreeswitchContrib.EventSocket.IvrQueue

abbrev Text := List Char

/-! ## Commands -/

/-- The commands by their types; a string is `none` where it is null. -/
inductive Cmd where
  | setVariable (name value : Option Text)
  | playbackCmd (dtmfAbort : Option Text)
  | privateWaitDtmf
  | other
  deriving DecidableEq

def playbackTerminators : Text := "playback_terminators".toList

/-- The characters that end the command, or the one that follows it. -/
def Cmd.terminators? : Cmd → Option Text
  | setVariable name value => if name = some playbackTerminators then value else none
  | playbackCmd dtmfAbort => dtmfAbort
  | privateWaitDtmf => none
  | other => none

/-! ## `GotDtmf` -/

/-- A turn of the loop: it goes on, it is left, or a `NullReferenceException` is thrown. -/
inductive Turn where
  | again (isValid : Bool) (items : List Cmd)
  | leave (isValid : Bool) (items : List Cmd)
  | throw (items : List Cmd)

/-- A playback behind a `SetVariable` is taken off, too. -/
def dequeuePlayback : List Cmd → List Cmd
  | .playbackCmd _ :: items => items
  | items => items

def turn (digit : Char) (isValid : Bool) : List Cmd → Turn
  | [] => .leave isValid []
  | .setVariable name value :: items =>
    if name = some playbackTerminators then
      match value with
      | none => .throw (.setVariable name value :: items)
      | some digits =>
        if digit ∈ digits then .again isValid (dequeuePlayback items)
        else .again false (.setVariable name value :: items)
    else .again isValid (.setVariable name value :: items)
  | .playbackCmd dtmfAbort :: items =>
    match dtmfAbort with
    | none => .throw (.playbackCmd dtmfAbort :: items)
    | some digits =>
      if digit ∈ digits then .again isValid items
      else .leave false (.playbackCmd dtmfAbort :: items)
  | items => .leave isValid items

/-- What is returned, or `none` if an exception was thrown, and the queue. -/
structure Outcome where
  returned : Option Bool
  items : List Cmd
  deriving DecidableEq

/-- `none` while the loop is not left. -/
def loop (digit : Char) : ℕ → Bool → List Cmd → Option Outcome
  | 0, _, _ => none
  | fuel + 1, isValid, items =>
    match turn digit isValid items with
    | .again isValid items => loop digit fuel isValid items
    | .leave isValid items => some ⟨some isValid, items⟩
    | .throw items => some ⟨none, items⟩

/-- The command that waits for a digit is taken off, too. -/
def dequeueWait : Outcome → Outcome
  | ⟨some isValid, .privateWaitDtmf :: items⟩ => ⟨some isValid, items⟩
  | outcome => outcome

def gotDtmf (fuel : ℕ) (digit : Char) (items : List Cmd) : Option Outcome :=
  (loop digit fuel true items).map dequeueWait

/-! ## What is expected -/

/-- The commands that are left are the end of the queue, and the digit is refused only by the
terminators of the first of them. -/
structure Outcome.Proper (outcome : Outcome) (digit : Char) (items : List Cmd) : Prop where
  suffix : outcome.items <:+ items
  refused : outcome.returned = some false → ∃ cmd rest terminators,
    outcome.items = cmd :: rest ∧ cmd.terminators? = some terminators ∧ digit ∉ terminators

def HandlesDigit (digit : Char) (items : List Cmd) : Prop :=
  ∃ fuel outcome, gotDtmf fuel digit items = some outcome ∧ outcome.Proper digit items

/-! ## Commands that the digit reaches -/

def Cmd.accepts (digit : Char) (cmd : Cmd) : Bool := cmd.terminators?.any (digit ∈ ·)

/-- What is left of the queue behind a command that is taken off. -/
def Cmd.behind : Cmd → List Cmd → List Cmd
  | setVariable _ _, items => dequeuePlayback items
  | _, items => items

lemma dequeuePlayback_suffix (items : List Cmd) : dequeuePlayback items <:+ items := by
  unfold dequeuePlayback
  split
  · exact List.suffix_cons _ _
  · exact List.suffix_rfl

lemma Cmd.behind_suffix (cmd : Cmd) (items : List Cmd) : cmd.behind items <:+ items := by
  cases cmd with
  | setVariable name value => exact dequeuePlayback_suffix items
  | playbackCmd dtmfAbort => exact List.suffix_rfl
  | privateWaitDtmf => exact List.suffix_rfl
  | other => exact List.suffix_rfl

/-- Every command is reached behind commands that accept the digit. -/
def reached (digit : Char) : List Cmd → List Cmd
  | [] => []
  | cmd :: items => cmd :: if cmd.accepts digit then reached digit (cmd.behind items) else []
termination_by items => items.length
decreasing_by exact Nat.lt_succ_of_le (cmd.behind_suffix items).length_le

/-- A `SetVariable` of another variable, or with a value that does not have the digit. -/
def Cmd.Stuck (digit : Char) : Cmd → Prop
  | setVariable name value =>
    name ≠ some playbackTerminators ∨ ∃ digits, value = some digits ∧ digit ∉ digits
  | _ => False

variable {digit : Char} {isValid : Bool} {cmd : Cmd} {items rest : List Cmd} {outcome : Outcome}
  {fuel : ℕ}

/-! ## Turns -/

lemma turn_of_stuck (h : cmd.Stuck digit) (isValid : Bool) (rest : List Cmd) :
    ∃ isValid', turn digit isValid (cmd :: rest) = .again isValid' (cmd :: rest) := by
  cases cmd with
  | setVariable name value =>
    by_cases hname : name = some playbackTerminators
    · obtain ⟨digits, rfl, hdigit⟩ := h.resolve_left (not_not.mpr hname)
      exact ⟨false, by simp only [turn, if_pos hname, if_neg hdigit]⟩
    · exact ⟨isValid, by simp only [turn, if_neg hname]⟩
  | playbackCmd dtmfAbort => exact h.elim
  | privateWaitDtmf => exact h.elim
  | other => exact h.elim

lemma turn_of_accepts (h : cmd.accepts digit = true) (isValid : Bool) (rest : List Cmd) :
    turn digit isValid (cmd :: rest) = .again isValid (cmd.behind rest) := by
  obtain ⟨digits, hdigits, hdigit⟩ := (Option.any_eq_true _ _).mp h
  have hmem : digit ∈ digits := by simpa using hdigit
  cases cmd with
  | setVariable name value =>
    rw [Cmd.terminators?] at hdigits
    split_ifs at hdigits with hname
    subst hdigits
    simp only [turn, if_pos hname, if_pos hmem]
    rfl
  | playbackCmd dtmfAbort =>
    obtain rfl : dtmfAbort = some digits := hdigits
    simp only [turn, if_pos hmem]
    rfl
  | privateWaitDtmf => cases hdigits
  | other => cases hdigits

/-- At another command the loop ends, and refuses the digit only by its terminators. -/
lemma turn_of_not_accepts (hstuck : ¬ cmd.Stuck digit) (h : cmd.accepts digit = false)
    (rest : List Cmd) :
    ∃ outcome, loop digit 1 true (cmd :: rest) = some outcome ∧ outcome.items = cmd :: rest ∧
      (outcome.returned = some false →
        ∃ terminators, cmd.terminators? = some terminators ∧ digit ∉ terminators) := by
  rw [loop]
  cases cmd with
  | setVariable name value =>
    obtain ⟨hname, hvalue⟩ := not_or.mp hstuck
    rw [not_not] at hname
    cases value with
    | none => exact ⟨⟨none, _⟩, by simp only [turn, if_pos hname], rfl, fun h => by cases h⟩
    | some digits =>
      have hmem : digit ∈ digits := by
        by_contra hdigit
        exact hvalue ⟨digits, rfl, hdigit⟩
      simp [Cmd.accepts, Cmd.terminators?, hname, hmem] at h
  | playbackCmd dtmfAbort =>
    cases dtmfAbort with
    | none => exact ⟨⟨none, _⟩, rfl, rfl, fun h => by cases h⟩
    | some digits =>
      have hmem : digit ∉ digits := by simpa [Cmd.accepts, Cmd.terminators?] using h
      exact ⟨⟨some false, _⟩, by simp only [turn, if_neg hmem], rfl, fun _ => ⟨digits, rfl, hmem⟩⟩
  | privateWaitDtmf => exact ⟨⟨some true, _⟩, rfl, rfl, fun h => by cases h⟩
  | other => exact ⟨⟨some true, _⟩, rfl, rfl, fun h => by cases h⟩

/-! ## The loop -/

/-- **The loop is never left at a stuck command.** -/
theorem loop_of_stuck (h : cmd.Stuck digit) (rest : List Cmd) (fuel : ℕ) (isValid : Bool) :
    loop digit fuel isValid (cmd :: rest) = none := by
  induction fuel generalizing isValid with
  | zero => rfl
  | succ fuel ih =>
    obtain ⟨isValid', hturn⟩ := turn_of_stuck h isValid rest
    rw [loop, hturn]
    exact ih isValid'

lemma loop_of_accepts (h : cmd.accepts digit = true) (fuel : ℕ) (isValid : Bool)
    (rest : List Cmd) :
    loop digit (fuel + 1) isValid (cmd :: rest) = loop digit fuel isValid (cmd.behind rest) := by
  rw [loop, turn_of_accepts h]

lemma Outcome.Proper.trans (h : outcome.Proper digit rest) (hrest : rest <:+ items) :
    outcome.Proper digit items :=
  ⟨h.suffix.trans hrest, h.refused⟩

/-- **The loop ends if no command is stuck that the digit reaches**, and then properly. -/
theorem loop_ends (items : List Cmd) (h : ∀ cmd ∈ reached digit items, ¬ cmd.Stuck digit) :
    ∃ fuel outcome, loop digit fuel true items = some outcome ∧ outcome.Proper digit items := by
  cases items with
  | nil => exact ⟨1, ⟨some true, []⟩, rfl, List.suffix_rfl, fun h => by cases h⟩
  | cons cmd items =>
    rw [reached, List.forall_mem_cons] at h
    by_cases haccepts : cmd.accepts digit
    · rw [if_pos haccepts] at h
      have hshorter := Nat.lt_succ_of_le (cmd.behind_suffix items).length_le
      obtain ⟨fuel, outcome, hloop, hproper⟩ := loop_ends (cmd.behind items) h.2
      exact ⟨fuel + 1, outcome, (loop_of_accepts haccepts fuel true items).trans hloop,
        hproper.trans ((cmd.behind_suffix items).trans (List.suffix_cons cmd items))⟩
    · obtain ⟨outcome, hloop, hitems, hrefused⟩ :=
        turn_of_not_accepts h.1 (by simpa using haccepts) items
      refine ⟨1, outcome, hloop, hitems ▸ List.suffix_rfl, fun hfalse => ?_⟩
      obtain ⟨terminators, hterminators, hdigit⟩ := hrefused hfalse
      exact ⟨cmd, items, terminators, hitems, hterminators, hdigit⟩
termination_by items.length

/-- A loop that ends has reached no stuck command. -/
theorem not_stuck_of_loop (items : List Cmd) (fuel : ℕ)
    (h : loop digit fuel true items = some outcome) :
    ∀ cmd ∈ reached digit items, ¬ cmd.Stuck digit := by
  induction fuel generalizing items with
  | zero => cases h
  | succ fuel ih =>
    cases items with
    | nil =>
      rw [reached]
      exact fun _ hmem => absurd hmem List.not_mem_nil
    | cons cmd items =>
      rw [reached, List.forall_mem_cons]
      refine ⟨fun hstuck => ?_, ?_⟩
      · rw [loop_of_stuck hstuck] at h
        cases h
      · by_cases haccepts : cmd.accepts digit
        · rw [if_pos haccepts]
          exact ih _ ((loop_of_accepts haccepts fuel true items).symm.trans h)
        · rw [if_neg haccepts]
          exact fun _ hmem => absurd hmem List.not_mem_nil

/-! ## Digits -/

/-- A digit that is refused leaves the queue as the loop has left it. -/
lemma dequeueWait_proper (h : outcome.Proper digit items) :
    (dequeueWait outcome).Proper digit items := by
  unfold dequeueWait
  split
  · next isValid rest =>
    refine ⟨(List.suffix_cons _ _).trans h.suffix, fun hfalse => ?_⟩
    obtain ⟨cmd, rest', terminators, hitems, hterminators, -⟩ := h.refused hfalse
    obtain rfl := (List.cons.inj hitems).1
    cases hterminators
  · exact h

/-- **When a digit is handled.** -/
theorem handlesDigit_iff (digit : Char) (items : List Cmd) :
    HandlesDigit digit items ↔ ∀ cmd ∈ reached digit items, ¬ cmd.Stuck digit := by
  constructor
  · rintro ⟨fuel, outcome, hdtmf, -⟩
    obtain ⟨outcome', hloop, -⟩ := Option.map_eq_some_iff.mp hdtmf
    exact not_stuck_of_loop items fuel hloop
  · intro h
    obtain ⟨fuel, outcome, hloop, hproper⟩ := loop_ends items h
    exact ⟨fuel, dequeueWait outcome, by rw [gotDtmf, hloop, Option.map_some],
      dequeueWait_proper hproper⟩

/-- A variable of another name is set before the prompt is played. -/
theorem not_handlesDigit : ¬ ∀ (digit : Char) (items : List Cmd), HandlesDigit digit items := by
  intro h
  have hreached := (handlesDigit_iff '1' _).mp
    (h '1' [.setVariable (some "language".toList) (some "en".toList), .playbackCmd (some ['1'])])
  refine hreached (.setVariable (some "language".toList) (some "en".toList)) ?_ (.inl (by decide))
  rw [reached]
  exact List.mem_cons_self

end FreeswitchContrib.EventSocket.IvrQueue
