import FreeswitchContrib.Library.Scanner

/-!
# The lexer of mod_http

`http_req.c` reads a server's answer with a hand-written lexer: one function a state, each of which
moves to another state or accepts a token together with the character it has just read (no state
gives a character back).  `getNextToken` runs them over the buffer until a token is accepted or the
buffer ends.

A character is a `Char` here; the bytes from 0x80 on are characters that no class of the C locale
contains.
-/

namespace FreeswitchContrib.ModHttp

open Scanner

/-- `token_t`. -/
inductive Token where
  | version
  | statusCode
  | phrase
  | header
  | newline
  | syntaxError
deriving DecidableEq

/-- The state functions of the lexer. -/
inductive LexState where
  | start
  | shp
  | n
  | vhpA
  | vhpB
  | vhpC
  | vhpD
  | vhpE
  | vhpF
  | vhpG
  | vhpH
  | hpA
  | hpB
  | p
  | error
deriving DecidableEq

/-! ## The character classes of the C locale -/

def isdigit (c : Char) : Bool := decide (48 ≤ c.toNat) && decide (c.toNat ≤ 57)

def isblank (c : Char) : Bool := decide (c = ' ') || decide (c = '\t')

def isprint (c : Char) : Bool := decide (32 ≤ c.toNat) && decide (c.toNat ≤ 126)

def iscntrl (c : Char) : Bool := decide (c.toNat < 32) || decide (c.toNat = 127)

def toupper (c : Char) : Char := c.toUpper

/-- The end of a line, in either of its characters. -/
def isNewline (c : Char) : Bool := decide (c = '\r') || decide (c = '\n')

/-! ## The states -/

/-- What a state does with a character: move to a state, or accept a token. -/
abbrev Reaction := LexState ⊕ Token

def stateStart (c : Char) : Reaction :=
  if toupper c = 'H' then .inl .vhpA
  else if isdigit c then .inl .shp
  else if isNewline c then .inl .n
  else if isprint c then .inl .hpA
  else .inl .error

def stateShp (c : Char) : Reaction :=
  if isdigit c then .inl .shp
  else if isblank c then .inr .statusCode
  else if c = ':' then .inl .hpB
  else if isNewline c then .inl .p
  else if isprint c then .inl .hpA
  else .inl .error

def stateN (c : Char) : Reaction :=
  if isNewline c then .inr .newline
  else if c = ':' then .inl .hpB
  else if isprint c then .inl .hpA
  else .inl .error

/-- What the states of a version token do with a character that does not fit. -/
def vhpOtherwise (c : Char) : Reaction :=
  if isprint c then .inl .hpA
  else if isNewline c then .inl .p
  else .inl .error

def stateVhpA (c : Char) : Reaction :=
  if toupper c = 'T' then .inl .vhpB else vhpOtherwise c

def stateVhpB (c : Char) : Reaction :=
  if toupper c = 'T' then .inl .vhpC else vhpOtherwise c

def stateVhpC (c : Char) : Reaction :=
  if toupper c = 'P' then .inl .vhpD else vhpOtherwise c

def stateVhpD (c : Char) : Reaction :=
  if toupper c = '/' then .inl .vhpE else vhpOtherwise c

def stateVhpE (c : Char) : Reaction :=
  if isdigit c then .inl .vhpF else vhpOtherwise c

def stateVhpF (c : Char) : Reaction :=
  if isdigit c then .inl .vhpF
  else if c = '.' then .inl .vhpG
  else vhpOtherwise c

def stateVhpG (c : Char) : Reaction :=
  if isdigit c then .inl .vhpH else vhpOtherwise c

/-- The last state of a version token stays where it is at the end of a line. -/
def stateVhpH (c : Char) : Reaction :=
  if isdigit c then .inl .vhpH
  else if isblank c then .inr .version
  else if isprint c then .inl .hpA
  else .inl .vhpH

def stateHpA (c : Char) : Reaction :=
  if c = ':' then .inl .hpB
  else if isNewline c then .inl .p
  else if isprint c then .inl .hpA
  else .inl .error

def stateHpB (c : Char) : Reaction :=
  if isblank c then .inr .header
  else if isNewline c then .inl .p
  else if c = ':' then .inl .hpB
  else if isprint c then .inl .hpA
  else .inl .error

def stateP (c : Char) : Reaction :=
  if isNewline c then .inr .phrase
  else if c = ':' then .inl .hpB
  else if isprint c then .inl .hpA
  else .inl .error

def stateError (_ : Char) : Reaction := .inr .syntaxError

def LexState.read : LexState → Char → Reaction
  | .start => stateStart
  | .shp => stateShp
  | .n => stateN
  | .vhpA => stateVhpA
  | .vhpB => stateVhpB
  | .vhpC => stateVhpC
  | .vhpD => stateVhpD
  | .vhpE => stateVhpE
  | .vhpF => stateVhpF
  | .vhpG => stateVhpG
  | .vhpH => stateVhpH
  | .hpA => stateHpA
  | .hpB => stateHpB
  | .p => stateP
  | .error => stateError

/-! ## The token loop -/

/-- `state_machine_t`, without the buffer and the token it returns. -/
structure StateMachine where
  state : LexState
  pos : ℕ
  stop : Bool
deriving DecidableEq

/-- `INIT_STATE_MACHINE`. -/
def StateMachine.init : StateMachine :=
  ⟨.start, 0, false⟩

/-- The two ways not to succeed: the return value `ERROR`; and a fault, which is a read outside the
buffer, a negative size, or a loop that does not end. -/
inductive Failure where
  | error
  | fault
deriving DecidableEq

/-- The character at an index of the buffer, whose last one is the NUL at `buf_len`. -/
def charAt (buf : List Char) (i : ℕ) : Option Char :=
  if i = buf.length then some '\x00' else buf[i]?

/-- The loop of `get_next_token`, for at most `fuel` characters. -/
def getNextTokenLoop (buf : List Char) : ℕ → StateMachine → Except Failure (Token × StateMachine)
  | 0, _ => .error .fault
  | fuel + 1, sm =>
    if sm.stop then .ok (.syntaxError, sm)
    else
      match charAt buf sm.pos with
      | none => .error .fault
      | some c =>
        match sm.state.read c with
        | .inr token => .ok (token, { sm with state := .start, pos := sm.pos + 1 })
        | .inl state =>
          let sm := { sm with state := state, pos := sm.pos + 1 }
          if sm.pos ≥ buf.length then .ok (.syntaxError, { sm with stop := true })
          else getNextTokenLoop buf fuel sm

/-- `get_next_token`: the loop ends within the buffer, so its length is fuel enough. -/
def getNextToken (buf : List Char) (sm : StateMachine) : Except Failure (Token × StateMachine) :=
  getNextTokenLoop buf (buf.length + 1) sm

/-- The first token of a list, from the start. -/
abbrev lexStart (xs : List Char) : Option (Token × List Char) :=
  lex LexState.read .start xs

lemma charAt_append (pre : List Char) (c : Char) (xs : List Char) :
    charAt (pre ++ c :: xs) pre.length = some c := by
  simp [charAt]

lemma charAt_length (buf : List Char) : charAt buf buf.length = some '\x00' := by
  simp [charAt]

/-- The loop finds the token of what lies ahead. -/
lemma getNextTokenLoop_of_lex {t : Token} {rest : List Char} :
    ∀ {xs : List Char} (pre : List Char) {state : LexState} {fuel : ℕ},
    lex LexState.read state xs = some (t, rest) → xs.length ≤ fuel →
    getNextTokenLoop (pre ++ xs) fuel ⟨state, pre.length, false⟩
      = .ok (t, ⟨.start, (pre ++ xs).length - rest.length, false⟩)
  | [], _, _, _, h, _ => by simp at h
  | c :: xs, pre, state, 0, _, hfuel => by simp at hfuel
  | c :: xs, pre, state, fuel + 1, h, hfuel => by
    simp only [getNextTokenLoop, Bool.false_eq_true, if_false, charAt_append]
    rcases hc : state.read c with state' | token
    · rw [lex_cons_of_inl hc] at h
      have hmore : ¬pre.length + 1 ≥ (pre ++ c :: xs).length := by
        have hlt := lex_length_lt h
        simp only [List.length_append, List.length_cons]
        omega
      have hnext := getNextTokenLoop_of_lex (pre ++ [c]) h
        (by simpa using Nat.le_of_succ_le_succ hfuel)
      simp only [if_neg hmore]
      simpa using hnext
    · rw [lex_cons_of_inr hc] at h
      obtain ⟨rfl, rfl⟩ : token = t ∧ xs = rest := by simpa using h
      have hpos : pre.length + 1 = (pre ++ c :: xs).length - xs.length := by
        simp only [List.length_append, List.length_cons]
        omega
      simp [hpos]

/-- Without a token ahead the loop stops at the end of the buffer. -/
lemma getNextTokenLoop_of_scan {state' : LexState} :
    ∀ {xs : List Char} (pre : List Char) {state : LexState} {fuel : ℕ},
    scan LexState.read state xs = some state' → xs ≠ [] → xs.length ≤ fuel →
    getNextTokenLoop (pre ++ xs) fuel ⟨state, pre.length, false⟩
      = .ok (.syntaxError, ⟨state', (pre ++ xs).length, true⟩)
  | [], _, _, _, _, hne, _ => absurd rfl hne
  | c :: xs, pre, state, 0, _, _, hfuel => by simp at hfuel
  | c :: xs, pre, state, fuel + 1, h, _, hfuel => by
    simp only [getNextTokenLoop, Bool.false_eq_true, if_false, charAt_append]
    rcases hc : state.read c with state₁ | token
    · rw [scan_cons_of_inl hc] at h
      rcases hxs : xs with _ | ⟨c', xs'⟩
      · subst hxs
        obtain rfl : state₁ = state' := by simpa using h
        simp
      · have hmore : ¬pre.length + 1 ≥ (pre ++ c :: c' :: xs').length := by
          simp only [List.length_append, List.length_cons]
          omega
        rw [hxs] at h hfuel
        have hnext := getNextTokenLoop_of_scan (pre ++ [c]) h (List.cons_ne_nil _ _)
          (by simpa using Nat.le_of_succ_le_succ hfuel)
        simp only [if_neg hmore]
        simpa using hnext
    · simp [scan, hc] at h

section GetNextToken

variable {buf rest : List Char} {pos : ℕ} {state state' : LexState} {t : Token}

/-- **The next token is the token of what lies ahead.** -/
theorem getNextToken_of_lex (h : lex LexState.read state (buf.drop pos) = some (t, rest)) :
    getNextToken buf ⟨state, pos, false⟩ = .ok (t, ⟨.start, buf.length - rest.length, false⟩) := by
  have hpos : pos ≤ buf.length := by
    by_contra hlt
    rw [List.drop_eq_nil_of_le (by omega)] at h
    simp at h
  have hfuel : (buf.drop pos).length ≤ buf.length + 1 := by
    simp only [List.length_drop]
    omega
  have hloop := getNextTokenLoop_of_lex (buf.take pos) h hfuel
  rwa [List.take_append_drop, List.length_take, Nat.min_eq_left hpos] at hloop

theorem getNextToken_of_scan (h : scan LexState.read state (buf.drop pos) = some state')
    (hpos : pos < buf.length) :
    getNextToken buf ⟨state, pos, false⟩ = .ok (.syntaxError, ⟨state', buf.length, true⟩) := by
  have hfuel : (buf.drop pos).length ≤ buf.length + 1 := by
    simp only [List.length_drop]
    omega
  have hloop := getNextTokenLoop_of_scan (buf.take pos) h (by simpa using hpos) hfuel
  rwa [List.take_append_drop, List.length_take, Nat.min_eq_left (Nat.le_of_lt hpos)] at hloop

/-- At the end of the buffer the lexer reads the NUL and stops behind it. -/
theorem getNextToken_at_end (buf : List Char) :
    getNextToken buf ⟨.start, buf.length, false⟩
      = .ok (.syntaxError, ⟨.error, buf.length + 1, true⟩) := by
  have hnul : LexState.start.read '\x00' = .inl .error := by decide
  simp [getNextToken, getNextTokenLoop, charAt_length, hnul]

/-- Once stopped, the lexer stays where it is. -/
theorem getNextToken_of_stop :
    getNextToken buf ⟨state, pos, true⟩ = .ok (.syntaxError, ⟨state, pos, true⟩) := rfl

end GetNextToken

/-! ## The lexer at a suffix of the buffer -/

/-- The lexer about to read what is left of the buffer. -/
def StateMachine.at (buf rest : List Char) : StateMachine :=
  ⟨.start, buf.length - rest.length, false⟩

lemma StateMachine.init_eq (buf : List Char) : StateMachine.init = .at buf buf := by
  simp [StateMachine.init, StateMachine.at]

/-- The first character never ends a token. -/
lemma stateStart_moves (c : Char) : ∃ state, stateStart c = .inl state := by
  unfold stateStart
  split
  · exact ⟨_, rfl⟩
  split
  · exact ⟨_, rfl⟩
  split
  · exact ⟨_, rfl⟩
  split <;> exact ⟨_, rfl⟩

section Suffix

variable {buf rest rest' : List Char} {t : Token}

lemma drop_of_suffix (h : rest <:+ buf) : buf.drop (buf.length - rest.length) = rest :=
  (List.suffix_iff_eq_drop.mp h).symm

lemma lexStart_suffix (h : lexStart rest = some (t, rest')) : rest' <:+ rest := by
  obtain ⟨pre, c, s, rfl, -, -⟩ := lex_eq_some_iff.mp h
  exact ⟨pre ++ [c], by simp⟩

/-- A token has at least two characters. -/
lemma lexStart_length (h : lexStart rest = some (t, rest')) :
    rest'.length + 2 ≤ rest.length := by
  obtain ⟨pre, c, s, rfl, hscan, hc⟩ := lex_eq_some_iff.mp h
  rcases pre with _ | ⟨c₀, pre⟩
  · obtain rfl : LexState.start = s := by simpa using hscan
    obtain ⟨state, hstate⟩ := stateStart_moves c
    rw [LexState.read, hstate] at hc
    exact absurd hc (by simp)
  · simp only [List.length_append, List.length_cons]
    omega

lemma getNextToken_at (hrest : rest <:+ buf) (h : lexStart rest = some (t, rest')) :
    getNextToken buf (.at buf rest) = .ok (t, .at buf rest') := by
  apply getNextToken_of_lex
  rwa [drop_of_suffix hrest]

/-- Without a token ahead the lexer stops at the end of the buffer, or behind its NUL when it was
there already. -/
lemma getNextToken_at_none (hrest : rest <:+ buf) (h : lexStart rest = none) :
    ∃ state, (rest ≠ [] → scan LexState.read .start rest = some state) ∧
      getNextToken buf (.at buf rest)
        = .ok (.syntaxError, ⟨state, buf.length + if rest = [] then 1 else 0, true⟩) := by
  rcases hr : rest with _ | ⟨c, cs⟩
  · exact ⟨.error, by simp, by simpa [StateMachine.at] using getNextToken_at_end buf⟩
  · obtain ⟨state, hscan⟩ : ∃ state, scan LexState.read .start rest = some state := by
      rcases hs : scan LexState.read .start rest with _ | state
      · obtain ⟨t, rest', hlex⟩ := scan_eq_none_iff.mp hs
        simp [h] at hlex
      · exact ⟨state, rfl⟩
    have hlen := hrest.length_le
    have hpos : buf.length - rest.length < buf.length := by
      simp only [hr, List.length_cons] at hlen ⊢
      omega
    have hahead : scan LexState.read .start (buf.drop (buf.length - rest.length)) = some state := by
      rwa [drop_of_suffix hrest]
    rw [← hr]
    refine ⟨state, fun _ => hscan, ?_⟩
    simpa [StateMachine.at, hr] using
      getNextToken_of_scan hahead hpos

end Suffix

end FreeswitchContrib.ModHttp
