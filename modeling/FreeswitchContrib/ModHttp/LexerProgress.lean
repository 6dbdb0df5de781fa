import FreeswitchContrib.ModHttp.Lexer

/-!
# The lexer gets on

Every state function is run at a character of its own, the last of them at the NUL behind the
buffer.  No state accepts the NUL but the one of an error, so that a token leaves the lexer inside
the buffer.

* `stepAt` — one turn of the loop of `get_next_token`.
* **`getNextToken_gets_on`** — the loop ends, behind where it began, and where its tokens end.
-/

namespace FreeswitchContrib.ModHttp

variable {buf : List Char} {state : LexState} {pos fuel : ℕ} {t : Token} {sm sm' : StateMachine}

/-- What a state function makes of the character that is next. -/
def stepAt (buf : List Char) (state : LexState) (pos : ℕ) : Option Reaction :=
  (charAt buf pos).map state.read

lemma exists_charAt (hpos : pos ≤ buf.length) : ∃ c, charAt buf pos = some c := by
  rcases Nat.lt_or_eq_of_le hpos with hlt | rfl
  · exact ⟨buf[pos], by rw [charAt, if_neg (Nat.ne_of_lt hlt), List.getElem?_eq_getElem hlt]⟩
  · exact ⟨'\x00', charAt_length buf⟩

lemma exists_stepAt (hpos : pos ≤ buf.length) (state : LexState) :
    ∃ reaction, stepAt buf state pos = some reaction := by
  obtain ⟨c, hc⟩ := exists_charAt hpos
  exact ⟨state.read c, by rw [stepAt, hc, Option.map_some]⟩

/-- The only token that a NUL ends is the one of an error. -/
lemma read_nul (h : state.read '\x00' = .inr t) : t = .syntaxError := by
  have hnul : ∀ state' : LexState,
      match state'.read '\x00' with
      | .inl _ => True
      | .inr t' => t' = .syntaxError := by
    intro state'
    cases state' with
    | error => rfl
    | _ => exact trivial
  have hstate := hnul state
  rw [h] at hstate
  exact hstate

lemma stepAt_accepts (h : stepAt buf state pos = some (.inr t)) (ht : t ≠ .syntaxError) :
    pos ≠ buf.length := by
  rintro rfl
  rw [stepAt, charAt_length, Option.map_some] at h
  exact ht (read_nul (Option.some.inj h))

/-! ## One turn of the loop -/

lemma getNextTokenLoop_of_accepts (h : stepAt buf state pos = some (.inr t)) (fuel : ℕ) :
    getNextTokenLoop buf (fuel + 1) ⟨state, pos, false⟩ = .ok (t, ⟨.start, pos + 1, false⟩) := by
  obtain ⟨c, hc, hread⟩ := Option.map_eq_some_iff.mp h
  simp only [getNextTokenLoop, Bool.false_eq_true, if_false, hc, hread]

lemma getNextTokenLoop_of_moves {state' : LexState} (h : stepAt buf state pos = some (.inl state'))
    (fuel : ℕ) :
    getNextTokenLoop buf (fuel + 1) ⟨state, pos, false⟩ =
      if pos + 1 ≥ buf.length then .ok (.syntaxError, ⟨state', pos + 1, true⟩)
      else getNextTokenLoop buf fuel ⟨state', pos + 1, false⟩ := by
  obtain ⟨c, hc, hread⟩ := Option.map_eq_some_iff.mp h
  simp only [getNextTokenLoop, Bool.false_eq_true, if_false, hc, hread]

/-! ## The whole loop -/

/-- The loop that began at `pos` has left the lexer behind it, inside the buffer or behind its NUL,
and with a token inside the buffer. -/
structure GotOn (buf : List Char) (pos : ℕ) (t : Token) (sm : StateMachine) : Prop where
  advances : pos < sm.pos
  bounded : sm.pos ≤ buf.length + 1
  inside : t ≠ .syntaxError → sm.pos ≤ buf.length

lemma GotOn.from_next (h : GotOn buf (pos + 1) t sm) : GotOn buf pos t sm :=
  ⟨Nat.lt_of_succ_lt h.advances, h.bounded, h.inside⟩

/-- One state function a character, and one for the NUL. -/
lemma getNextTokenLoop_gets_on (state : LexState) (fuel : ℕ) (hpos : pos ≤ buf.length)
    (hfuel : buf.length < pos + fuel) :
    ∃ t sm, getNextTokenLoop buf fuel ⟨state, pos, false⟩ = .ok (t, sm) ∧ GotOn buf pos t sm := by
  induction fuel generalizing pos state with
  | zero => omega
  | succ fuel ih =>
    obtain ⟨state' | token, hstep⟩ := exists_stepAt hpos state
    · rw [getNextTokenLoop_of_moves hstep]
      by_cases hend : pos + 1 ≥ buf.length
      · rw [if_pos hend]
        exact ⟨_, _, rfl, Nat.lt_succ_self pos, Nat.succ_le_succ hpos, fun h => absurd rfl h⟩
      · rw [if_neg hend]
        obtain ⟨t, sm, hloop, hgot⟩ := ih state' (Nat.le_of_not_le hend) (by omega)
        exact ⟨t, sm, hloop, hgot.from_next⟩
    · rw [getNextTokenLoop_of_accepts hstep]
      refine ⟨_, _, rfl, Nat.lt_succ_self pos, Nat.succ_le_succ hpos, fun h => ?_⟩
      have hlt : pos < buf.length := Nat.lt_of_le_of_ne hpos (stepAt_accepts hstep h)
      exact hlt

/-- More turns than are needed change nothing. -/
lemma getNextTokenLoop_mono (h : getNextTokenLoop buf fuel sm = .ok (t, sm')) (more : ℕ) :
    getNextTokenLoop buf (fuel + more) sm = .ok (t, sm') := by
  induction fuel generalizing sm with
  | zero => cases h
  | succ fuel ih =>
    rw [Nat.add_right_comm]
    unfold getNextTokenLoop at h ⊢
    by_cases hstop : sm.stop = true
    · rw [if_pos hstop] at h ⊢
      exact h
    · rw [if_neg hstop] at h ⊢
      cases hc : charAt buf sm.pos with
      | none =>
        rw [hc] at h
        cases h
      | some c =>
        rw [hc] at h
        cases hread : sm.state.read c with
        | inr token =>
          simp only [hread] at h ⊢
          exact h
        | inl state =>
          simp only [hread] at h ⊢
          by_cases hend : sm.pos + 1 ≥ buf.length
          · rw [if_pos hend] at h ⊢
            exact h
          · rw [if_neg hend] at h ⊢
            exact ih h

/-- **The lexer gets on.**  From every state and position that is not behind the buffer, at most one
state function is run for each character that is left and one for the NUL; `get_next_token` returns
what they come to. -/
theorem getNextToken_gets_on (buf : List Char) (state : LexState) (pos : ℕ)
    (hpos : pos ≤ buf.length) :
    ∃ t sm, getNextTokenLoop buf (buf.length - pos + 1) ⟨state, pos, false⟩ = .ok (t, sm) ∧
      getNextToken buf ⟨state, pos, false⟩ = .ok (t, sm) ∧ GotOn buf pos t sm := by
  obtain ⟨t, sm, hloop, hgot⟩ :=
    getNextTokenLoop_gets_on state (buf.length - pos + 1) hpos (by omega)
  have hmore : buf.length - pos + 1 + pos = buf.length + 1 := by omega
  refine ⟨t, sm, hloop, ?_, hgot⟩
  rw [getNextToken, ← hmore]
  exact getNextTokenLoop_mono hloop pos

/-- At the end of a buffer there is the NUL, and behind it nothing. -/
theorem getNextToken_gets_on_at_end :
    ∃ t sm, getNextTokenLoop "HTTP".toList 1 ⟨.vhpD, 4, false⟩ = .ok (t, sm) ∧
      getNextToken "HTTP".toList ⟨.vhpD, 4, false⟩ = .ok (t, sm) ∧ GotOn "HTTP".toList 4 t sm :=
  getNextToken_gets_on "HTTP".toList .vhpD 4 (by decide)

end FreeswitchContrib.ModHttp
