import Mathlib.Data.Int.Notation
import Mathlib.Data.List.TakeWhile
import Mathlib.Data.Nat.Basic
import Mathlib.Tactic.SplitIfs

/-!
# The commands of an AGI script

`parse_args` splits a command line into words, in place: it reads the line and writes the words,
each with its NUL, over the part that it has read.  `find_binding` looks the words up.  What the
handler of a command does is left to FreeSWITCH; here it only answers with a number.

What stands behind the NUL of the line does not matter: `findAndExecCommand_append`.
-/

namespace FreeswitchContrib.Esl2agi

/-- The string that starts here. -/
def cString (memory : List Char) (offset : ℕ) : List Char :=
  (memory.drop offset).takeWhile (· ≠ '\x00')

/-- The locals of `parse_args`; `argv` has the offsets of the words. -/
structure ParseArgs where
  memory : List Char
  cur : ℕ
  argv : List ℕ
  quote : Bool
  escaped : Bool
  space : Bool

namespace ParseArgs

/-- a word starts -/
def start (p : ParseArgs) : ParseArgs := { p with argv := p.argv ++ [p.cur], space := false }

def write (p : ParseArgs) (c : Char) : ParseArgs :=
  { p with memory := p.memory.set p.cur c, cur := p.cur + 1 }

/-- The label `ok`. -/
def ok (p : ParseArgs) (c : Char) : ParseArgs :=
  { (if p.space then p.start else p).write c with escaped := false }

def step (p : ParseArgs) (c : Char) : ParseArgs :=
  if c = '"' then
    if p.escaped then p.ok c
    else
      let p := { p with quote := !p.quote }
      { (if p.quote && p.space then p.start else p) with escaped := false }
  else if c = ' ' ∨ c = '\t' then
    if !p.quote && !p.escaped then { p with space := true }.write '\x00' else p.ok c
  else if c = '\\' then
    if p.escaped then p.ok c else { p with escaped := true }
  else p.ok c

/-- The loop, with the offset of `buf`. -/
def loop : ℕ → ℕ → ParseArgs → ParseArgs
  | 0, _, p => p
  | fuel + 1, buf, p =>
    match p.memory[buf]? with
    | none => p
    | some c => if c = '\x00' then p else loop fuel (buf + 1) (p.step c)

end ParseArgs

def parseArgs (memory : List Char) : ParseArgs :=
  (ParseArgs.loop memory.length 0 ⟨memory, 0, [], false, false, true⟩).write '\x00'

inductive Handler where
  | answer
  | hangup
  | streamfile
  | setCallerId
  | setVariable
  | exec
  | getdata

/-- `bindings` -/
def bindings : List (List String × Handler) :=
  [(["ANSWER"], .answer), (["HANGUP"], .hangup), (["STREAM", "FILE"], .streamfile),
    (["SET", "CALLERID"], .setCallerId), (["SET", "VARIABLE"], .setVariable), (["EXEC"], .exec),
    (["GET", "DATA"], .getdata)]

/-- `strncasecmp` with the length of the longer string -/
def sameWord (s t : List Char) : Bool := s.map Char.toLower = t.map Char.toLower

/-- All words of the binding are there. -/
def bindingMatches : List String → List (List Char) → Bool
  | [], _ => true
  | _ :: _, [] => false
  | word :: words, arg :: args => sameWord word.toList arg && bindingMatches words args

def findBinding (cmd : List (List Char)) : Option Handler :=
  (bindings.find? fun binding => bindingMatches binding.1 cmd).map Prod.snd

/-- The buffer afterwards and the result, when the handler gives this answer. -/
def findAndExecCommand (buf : List Char) (answer : ℤ) : List Char × ℤ :=
  let p := parseArgs buf
  (p.memory, if (findBinding (p.argv.map (cString p.memory))).isSome then answer else -1)

/-! ## Behind the NUL -/

variable {memory rest : List Char} {p : ParseArgs} {c : Char} {buf n : ℕ}

namespace ParseArgs

/-- The same locals in a longer buffer. -/
def extend (rest : List Char) (p : ParseArgs) : ParseArgs := { p with memory := p.memory ++ rest }

/-- `cur` is not ahead of `buf`, and the NUL of the line is at `n`. -/
structure Within (p : ParseArgs) (buf n : ℕ) : Prop where
  cur : p.cur ≤ buf
  argv : ∀ offset ∈ p.argv, offset ≤ p.cur
  length : p.memory.length = n + 1
  nul : p.memory[n]? = some '\x00'

lemma Within.start (h : p.Within buf n) : p.start.Within buf n where
  cur := h.cur
  argv offset ho := by
    rcases List.mem_append.mp ho with ho | ho
    · exact h.argv offset ho
    · exact (List.mem_singleton.mp ho).le
  length := h.length
  nul := h.nul

lemma Within.write (h : p.Within buf n) (hbuf : buf < n) : (p.write c).Within (buf + 1) n where
  cur := Nat.succ_le_succ h.cur
  argv offset ho := (h.argv offset ho).trans (Nat.le_succ _)
  length := by rw [ParseArgs.write, List.length_set, h.length]
  nul := by
    have hcur := h.cur
    rw [ParseArgs.write, List.getElem?_set_ne (by omega), h.nul]

lemma Within.ok (h : p.Within buf n) (hbuf : buf < n) : (p.ok c).Within (buf + 1) n := by
  have hp : ({ (if p.space then p.start else p).write c with escaped := false }).Within
      (buf + 1) n := by
    split_ifs
    · obtain ⟨hcur, hargv, hlength, hnul⟩ := h.start.write (c := c) hbuf
      exact ⟨hcur, hargv, hlength, hnul⟩
    · obtain ⟨hcur, hargv, hlength, hnul⟩ := h.write (c := c) hbuf
      exact ⟨hcur, hargv, hlength, hnul⟩
  exact hp

lemma Within.step (h : p.Within buf n) (hbuf : buf < n) : (p.step c).Within (buf + 1) n := by
  have hstay : p.Within (buf + 1) n := ⟨h.cur.trans (Nat.le_succ _), h.argv, h.length, h.nul⟩
  rw [ParseArgs.step]
  split_ifs
  · exact h.ok hbuf
  · simp only
    split_ifs
    · have hq : ({ p with quote := !p.quote } : ParseArgs).Within (buf + 1) n :=
        ⟨hstay.cur, hstay.argv, hstay.length, hstay.nul⟩
      obtain ⟨hcur, hargv, hlength, hnul⟩ := hq.start
      exact ⟨hcur, hargv, hlength, hnul⟩
    · exact ⟨hstay.cur, hstay.argv, hstay.length, hstay.nul⟩
  · have hs : ({ p with space := true } : ParseArgs).Within buf n :=
      ⟨h.cur, h.argv, h.length, h.nul⟩
    exact hs.write hbuf
  · exact h.ok hbuf
  · exact h.ok hbuf
  · exact ⟨hstay.cur, hstay.argv, hstay.length, hstay.nul⟩
  · exact h.ok hbuf

lemma extend_start : (p.extend rest).start = p.start.extend rest := rfl

lemma extend_write (h : p.cur < p.memory.length) :
    (p.extend rest).write c = (p.write c).extend rest := by
  simp only [ParseArgs.write, extend, List.set_append_left _ _ h]

lemma extend_ok (h : p.cur < p.memory.length) : (p.extend rest).ok c = (p.ok c).extend rest := by
  simp only [ParseArgs.ok, show (p.extend rest).space = p.space from rfl]
  split_ifs
  · rw [extend_start, extend_write (by exact h)]
    rfl
  · rw [extend_write h]
    rfl

lemma extend_step (h : p.cur < p.memory.length) :
    (p.extend rest).step c = (p.step c).extend rest := by
  simp only [ParseArgs.step, show (p.extend rest).escaped = p.escaped from rfl,
    show (p.extend rest).quote = p.quote from rfl, show (p.extend rest).space = p.space from rfl]
  split_ifs
  · exact extend_ok h
  · rfl
  · rfl
  · have hw : (({ p with space := true } : ParseArgs).extend rest).write '\x00' =
        (({ p with space := true } : ParseArgs).write '\x00').extend rest := extend_write h
    exact hw
  · exact extend_ok h
  · exact extend_ok h
  · rfl
  · exact extend_ok h

/-- The loop stops at the NUL, with its locals within the line. -/
lemma loop_extend : ∀ {fuel fuel' buf : ℕ} {p : ParseArgs}, p.Within buf n → buf ≤ n →
    n - buf < fuel → n - buf < fuel' →
    loop fuel' buf (p.extend rest) = (loop fuel buf p).extend rest ∧ (loop fuel buf p).Within n n
  | 0, _, _, _, _, _, hfuel, _ => absurd hfuel (Nat.not_lt_zero _)
  | _, 0, _, _, _, _, _, hfuel' => absurd hfuel' (Nat.not_lt_zero _)
  | fuel + 1, fuel' + 1, buf, p, h, hbuf, hfuel, hfuel' => by
    have hlt : buf < p.memory.length := by
      rw [h.length]
      omega
    rw [loop, loop, show (p.extend rest).memory[buf]? = p.memory[buf]? from
      List.getElem?_append_left hlt, List.getElem?_eq_getElem hlt]
    simp only
    split_ifs with hc
    · exact ⟨rfl, h.cur.trans hbuf, h.argv, h.length, h.nul⟩
    · have hne : buf ≠ n := by
        intro heq
        have hnul := h.nul
        rw [← heq, List.getElem?_eq_getElem hlt] at hnul
        exact hc (Option.some.inj hnul)
      have hbuf' : buf < n := by omega
      have hcur : p.cur < p.memory.length := h.cur.trans_lt hlt
      rw [extend_step hcur]
      exact loop_extend (h.step hbuf') (by omega) (by omega) (by omega)

end ParseArgs

lemma within_init (h : memory[n]? = some '\x00') (hlength : memory.length = n + 1) :
    (⟨memory, 0, [], false, false, true⟩ : ParseArgs).Within 0 n where
  cur := Nat.zero_le _
  argv _ ho := by cases ho
  length := hlength
  nul := h

/-- The words end before the end of the line. -/
lemma cString_append {offset : ℕ} (hnul : memory[n]? = some '\x00') (hoffset : offset ≤ n) :
    cString (memory ++ rest) offset = cString memory offset := by
  obtain ⟨hn, hget⟩ := List.getElem?_eq_some_iff.mp hnul
  have hmem : '\x00' ∈ memory.drop offset := by
    rw [← hget]
    exact List.mem_drop_iff_getElem.mpr
      ⟨n - offset, by omega, by simp [Nat.add_sub_cancel' hoffset]⟩
  rw [cString, cString, List.drop_append_of_le_length (by omega), List.takeWhile_append]
  rw [if_neg]
  intro hall
  have heq := List.takeWhile_eq_self_iff.mp
    ((List.takeWhile_prefix _).eq_of_length hall) _ hmem
  simp at heq

lemma parseArgs_append (hnul : memory[n]? = some '\x00') (hlength : memory.length = n + 1) :
    parseArgs (memory ++ rest) = (parseArgs memory).extend rest ∧
      (parseArgs memory).memory[n]? = some '\x00' ∧ ∀ offset ∈ (parseArgs memory).argv,
      offset ≤ n := by
  have hfuel : n - 0 < memory.length := by omega
  have hfuel' : n - 0 < (memory ++ rest).length := by
    rw [List.length_append]
    omega
  obtain ⟨hloop, hwithin⟩ :=
    ParseArgs.loop_extend (within_init hnul hlength) (Nat.zero_le _) hfuel hfuel'
  have hcur : (ParseArgs.loop memory.length 0
      ⟨memory, 0, [], false, false, true⟩).cur < (ParseArgs.loop memory.length 0
      ⟨memory, 0, [], false, false, true⟩).memory.length := by
    have := hwithin.cur
    have := hwithin.length
    omega
  refine ⟨(congrArg (ParseArgs.write · '\x00') hloop).trans (ParseArgs.extend_write hcur), ?_,
    fun offset ho => (hwithin.argv offset ho).trans hwithin.cur⟩
  rw [parseArgs, ParseArgs.write]
  by_cases heq : n = (ParseArgs.loop memory.length 0 ⟨memory, 0, [], false, false, true⟩).cur
  · rw [← heq, List.getElem?_set_self (by rw [hwithin.length]; omega)]
  · rw [List.getElem?_set_ne (Ne.symm heq), hwithin.nul]

/-- **Nothing behind the line is looked at.** -/
lemma findAndExecCommand_append {answer : ℤ} (line : List Char) :
    (findAndExecCommand (line ++ '\x00' :: rest) answer).2 =
      (findAndExecCommand (line ++ ['\x00']) answer).2 := by
  have hend : (line ++ ['\x00'])[line.length]? = some '\x00' := by simp
  obtain ⟨hparse, hnul, hargv⟩ := parseArgs_append hend (by simp)
  rw [List.append_assoc, List.singleton_append] at hparse
  have hwords : (parseArgs (line ++ '\x00' :: rest)).argv.map
      (cString (parseArgs (line ++ '\x00' :: rest)).memory) =
      (parseArgs (line ++ ['\x00'])).argv.map (cString (parseArgs (line ++ ['\x00'])).memory) := by
    rw [hparse]
    exact List.map_congr_left fun offset ho => cString_append hnul (hargv offset ho)
  simp only [findAndExecCommand, hwords]

end FreeswitchContrib.Esl2agi
