import FreeswitchContrib.Esl2agi.Commands

/-!
# The read loop of `esl2agi_thread`

The script writes its commands into a pipe.  The loop takes what one `read` delivers as one command,
without its last character, and does not look for the end of the file.

`framed_iff` says when this is right: every `read` delivers exactly one line, and the loop is ended
by the last of them.
-/

namespace FreeswitchContrib.Esl2agi

def sbufSize : ℕ := 2048

/-- What one turn of the loop gets from `select` and `read`, and from the handler of the command. -/
inductive Turn where
  | selectError
  | notSet
  | readError
  /-- `read` delivers the next chunk; `connected` is how the handler leaves the connection. -/
  | read (answer : ℤ) (connected : Bool)

structure Thread where
  sbuf : List Char
  /-- what `find_and_exec_command` was called with -/
  commands : List (List Char)
  /-- a command was executed for the end of the file -/
  executedAtEof : Bool
  /-- a character was written outside of `sbuf` -/
  outOfBounds : Bool

namespace Thread

/-- `read` -/
def read (s : Thread) (chunk : List Char) : Thread :=
  { s with sbuf := chunk ++ s.sbuf.drop chunk.length }

def write (s : Thread) (i : ℤ) (c : Char) : Thread :=
  if 0 ≤ i ∧ i < sbufSize then { s with sbuf := s.sbuf.set i.toNat c }
  else { s with outOfBounds := true }

/-- The call of `find_and_exec_command`, and its result. -/
def exec (s : Thread) (answer : ℤ) (r : ℕ) : Thread × ℤ :=
  let result := findAndExecCommand s.sbuf answer
  ({ s with
      sbuf := result.1
      commands := s.commands ++ [cString s.sbuf 0]
      executedAtEof := s.executedAtEof || r == 0 }, result.2)

/-- A chunk is read, its last character overwritten, and the buffer executed. -/
def turn (s : Thread) (chunk : List Char) (answer : ℤ) : Thread × ℤ :=
  ((s.read chunk).write (chunk.length - 1) '\x00').exec answer chunk.length

end Thread

/-- The loop; no chunk is left at the end of the file.  `none` when the turns do not last until its
end.  In this process `thread_running` stays set. -/
def readLoop : Bool → Thread → List (List Char) → List Turn → Option Thread
  | false, s, _, _ => some s
  | true, _, _, [] => none
  | true, s, _, .selectError :: _ => some s
  | true, s, _, .readError :: _ => some s
  | true, s, chunks, .notSet :: turns => readLoop true s chunks turns
  | true, s, chunks, .read answer connected :: turns =>
    let result := s.turn (chunks.headD []) answer
    if result.2 < 0 then some result.1 else readLoop connected result.1 chunks.tail turns

/-- The loop from its start. -/
def esl2agiThread (connected : Bool) (sbuf : List Char) (chunks : List (List Char))
    (turns : List Turn) : Option Thread :=
  readLoop connected ⟨sbuf, [], false, false⟩ chunks turns

/-- The commands are the lines, and nothing else happens. -/
structure Framed (lines : List (List Char)) (s : Thread) : Prop where
  commands : s.commands = lines
  executedAtEof : s.executedAtEof = false
  outOfBounds : s.outOfBounds = false

/-- The loop ends after the last line, and before it reads again. -/
def EndsAfter : Bool → List (List Char) → List Turn → Prop
  | false, lines, _ => lines = []
  | true, _, [] => False
  | true, lines, .selectError :: _ => lines = []
  | true, lines, .readError :: _ => lines = []
  | true, lines, .notSet :: turns => EndsAfter true lines turns
  | true, [], .read _ _ :: _ => False
  | true, line :: lines, .read answer connected :: turns =>
    if (findAndExecCommand (line ++ ['\x00']) answer).2 < 0 then lines = []
    else EndsAfter connected lines turns

variable {s s' : Thread} {connected : Bool} {chunks lines : List (List Char)} {chunk : List Char}
  {turns : List Turn} {answer : ℤ} {sbuf : List Char}

/-! ## One turn -/

lemma turn_nil : (s.turn [] answer).1.executedAtEof = true := by
  simp [Thread.turn, Thread.exec]

lemma turn_executedAtEof (h : s.executedAtEof = true) :
    (s.turn chunk answer).1.executedAtEof = true := by
  have hwrite : ((s.read chunk).write (chunk.length - 1) '\x00').executedAtEof = true := by
    rw [Thread.write]
    split_ifs <;> exact h
  rw [Thread.turn, Thread.exec, hwrite]
  rfl

/-- Without its last character the chunk is executed, up to a NUL. -/
lemma turn_of_ne_nil (hne : chunk ≠ []) (hlength : chunk.length < sbufSize) :
    s.turn chunk answer =
      ({ s with sbuf := chunk.dropLast ++ '\x00' :: s.sbuf.drop chunk.length } : Thread).exec
        answer chunk.length := by
  have hpos := List.length_pos_iff.mpr hne
  have hindex : ((chunk.length : ℤ) - 1).toNat = chunk.dropLast.length := by
    rw [List.length_dropLast]
    omega
  have hset : (chunk ++ s.sbuf.drop chunk.length).set chunk.dropLast.length '\x00' =
      chunk.dropLast ++ '\x00' :: s.sbuf.drop chunk.length := by
    obtain ⟨init, c, rfl⟩ := (List.eq_nil_or_concat chunk).resolve_left hne
    simp
  rw [Thread.turn, Thread.write, if_pos (by omega), hindex]
  simp only [Thread.read, hset]

def command (chunk : List Char) : List Char := chunk.dropLast.takeWhile (· ≠ '\x00')

lemma turn_commands (hne : chunk ≠ []) (hlength : chunk.length < sbufSize) :
    (s.turn chunk answer).1.commands = s.commands ++ [command chunk] := by
  rw [turn_of_ne_nil hne hlength, Thread.exec, command, cString, List.drop_zero,
    List.takeWhile_append]
  split_ifs with h
  · rw [(List.takeWhile_prefix _).eq_of_length h]
    simp
  · rfl

lemma turn_flags (hne : chunk ≠ []) (hlength : chunk.length < sbufSize) :
    (s.turn chunk answer).1.executedAtEof = s.executedAtEof ∧
      (s.turn chunk answer).1.outOfBounds = s.outOfBounds := by
  rw [turn_of_ne_nil hne hlength, Thread.exec]
  simp [hne]

/-- The result for a line. -/
lemma turn_result {line : List Char} (hlength : line.length + 1 < sbufSize) :
    (s.turn (line ++ ['\n']) answer).2 = (findAndExecCommand (line ++ ['\x00']) answer).2 := by
  rw [turn_of_ne_nil (by simp) (by simpa using hlength), Thread.exec, List.dropLast_concat,
    findAndExecCommand_append]

/-! ## All turns -/

lemma readLoop_executedAtEof : ∀ {turns : List Turn} {connected : Bool} {s : Thread}
    {chunks : List (List Char)}, readLoop connected s chunks turns = some s' →
    s.executedAtEof = true → s'.executedAtEof = true := by
  intro turns
  induction turns with
  | nil =>
    intro connected s chunks h hs
    cases connected with
    | false => exact Option.some.inj h ▸ hs
    | true => cases h
  | cons turn turns ih =>
    intro connected s chunks h hs
    cases connected with
    | false => exact Option.some.inj h ▸ hs
    | true =>
      cases turn with
      | selectError | readError => exact Option.some.inj h ▸ hs
      | notSet => exact ih h hs
      | read answer connected =>
        simp only [readLoop] at h
        split_ifs at h
        · exact Option.some.inj h ▸ turn_executedAtEof hs
        · exact ih h (turn_executedAtEof hs)

/-- What was executed are the first chunks. -/
lemma readLoop_commands : ∀ {turns : List Turn} {connected : Bool} {s : Thread}
    {chunks : List (List Char)}, readLoop connected s chunks turns = some s' →
    (∀ chunk ∈ chunks, chunk ≠ [] ∧ chunk.length < sbufSize) → s'.executedAtEof = false →
    ∃ done rest, chunks = done ++ rest ∧ s'.commands = s.commands ++ done.map command := by
  intro turns
  induction turns with
  | nil =>
    intro connected s chunks h hchunks heof
    cases connected with
    | false => exact ⟨[], chunks, rfl, by simp [← Option.some.inj h]⟩
    | true => cases h
  | cons turn turns ih =>
    intro connected s chunks h hchunks heof
    cases connected with
    | false => exact ⟨[], chunks, rfl, by simp [← Option.some.inj h]⟩
    | true =>
      cases turn with
      | selectError | readError => exact ⟨[], chunks, rfl, by simp [← Option.some.inj h]⟩
      | notSet => exact ih h hchunks heof
      | read answer connected =>
        simp only [readLoop] at h
        cases chunks with
        | nil =>
          -- the end of the file
          have hdead : s'.executedAtEof = true := by
            split_ifs at h
            · exact Option.some.inj h ▸ turn_nil
            · exact readLoop_executedAtEof h turn_nil
          rw [heof] at hdead
          cases hdead
        | cons chunk chunks =>
          obtain ⟨hne, hlength⟩ := hchunks chunk List.mem_cons_self
          have hcommands : (s.turn chunk answer).1.commands = s.commands ++ [command chunk] :=
            turn_commands hne hlength
          split_ifs at h
          · refine ⟨[chunk], chunks, rfl, ?_⟩
            rw [← Option.some.inj h]
            exact hcommands
          · obtain ⟨done, rest, rfl, heq⟩ :=
              ih h (fun c hc => hchunks c (List.mem_cons_of_mem _ hc)) heof
            refine ⟨chunk :: done, rest, rfl, ?_⟩
            rw [heq, List.headD_cons, hcommands]
            simp

/-! ## Chunks and lines -/

lemma length_command_lt (hne : chunk ≠ []) : (command chunk).length < chunk.length := by
  have hle : (command chunk).length ≤ chunk.dropLast.length :=
    (List.takeWhile_sublist _).length_le
  rw [List.length_dropLast] at hle
  have := List.length_pos_iff.mpr hne
  omega

lemma length_lines_le : ∀ {done : List (List Char)}, (∀ chunk ∈ done, chunk ≠ []) →
    ((done.map command).flatMap (· ++ ['\n'])).length ≤ done.flatten.length
  | [], _ => le_rfl
  | chunk :: done, h => by
    have hlt := length_command_lt (h chunk List.mem_cons_self)
    have ih := length_lines_le fun c hc => h c (List.mem_cons_of_mem chunk hc)
    simp only [List.map_cons, List.flatMap_cons, List.length_append, List.length_singleton,
      List.flatten_cons]
    omega

/-- When the commands are the lines, so are the chunks. -/
lemma chunks_eq_lines : ∀ {done rest : List (List Char)}, (∀ chunk ∈ done ++ rest, chunk ≠ []) →
    (done ++ rest).flatten = (done.map command).flatMap (· ++ ['\n']) →
    rest = [] ∧ done = (done.map command).map (· ++ ['\n']) ∧ ∀ line ∈ done.map command,
      '\x00' ∉ line
  | [], rest, h, heq => by
    refine ⟨?_, rfl, by simp⟩
    cases rest with
    | nil => rfl
    | cons chunk rest =>
      have hnil := List.flatten_eq_nil_iff.mp heq chunk List.mem_cons_self
      exact absurd hnil (h chunk List.mem_cons_self)
  | chunk :: done, rest, h, heq => by
    have hlt := length_command_lt (h chunk List.mem_cons_self)
    have hrest : ∀ c ∈ done ++ rest, c ≠ [] := fun c hc => h c (List.mem_cons_of_mem chunk hc)
    have hle := length_lines_le fun c hc => hrest c (List.mem_append_left rest hc)
    simp only [List.cons_append, List.flatten_cons, List.map_cons, List.flatMap_cons] at heq
    have hlength := congrArg List.length heq
    simp only [List.length_append, List.flatten_append, List.length_singleton] at hlength
    obtain ⟨hchunk, htail⟩ := List.append_inj heq (by
      rw [List.length_append, List.length_singleton]
      omega)
    obtain ⟨rfl, hdone, hnul⟩ := chunks_eq_lines hrest htail
    refine ⟨rfl, ?_, ?_⟩
    · simp only [List.map_cons]
      rw [← hchunk, ← hdone]
    · intro line hline
      rcases List.mem_cons.mp hline with rfl | hline
      · rw [command]
        intro hmem
        have := List.mem_takeWhile_imp hmem
        simp at this
      · exact hnul line hline

/-! ## The loop -/

lemma command_line {line : List Char} (h : '\x00' ∉ line) : command (line ++ ['\n']) = line := by
  rw [command, List.dropLast_concat, List.takeWhile_eq_self_iff]
  exact fun c hc => decide_eq_true (ne_of_mem_of_not_mem hc h)

/-- When every `read` delivers a line, only the end of the loop matters. -/
lemma readLoop_lines_iff : ∀ {turns : List Turn} {connected : Bool} {s : Thread}
    {lines : List (List Char)}, (∀ line ∈ lines, '\x00' ∉ line ∧ line.length + 1 < sbufSize) →
    s.executedAtEof = false → s.outOfBounds = false →
    readLoop connected s (lines.map (· ++ ['\n'])) turns = some s' →
    (Framed (s.commands ++ lines) s' ↔ EndsAfter connected lines turns) := by
  have hstop : ∀ {s : Thread} {lines}, s.executedAtEof = false → s.outOfBounds = false →
      (Framed (s.commands ++ lines) s ↔ lines = []) := fun heof hbounds =>
    ⟨fun h => by simpa using h.commands, fun h => ⟨by simp [h], heof, hbounds⟩⟩
  intro turns
  induction turns with
  | nil =>
    intro connected s lines hlines heof hbounds h
    cases connected with
    | false => exact Option.some.inj h ▸ hstop heof hbounds
    | true => cases h
  | cons turn turns ih =>
    intro connected s lines hlines heof hbounds h
    cases connected with
    | false => exact Option.some.inj h ▸ hstop heof hbounds
    | true =>
      cases turn with
      | selectError | readError => exact Option.some.inj h ▸ hstop heof hbounds
      | notSet => exact ih hlines heof hbounds h
      | read answer connected =>
        cases lines with
        | nil =>
          have hdead : s'.executedAtEof = true := by
            simp only [readLoop, List.map_nil] at h
            split_ifs at h
            · exact Option.some.inj h ▸ turn_nil
            · exact readLoop_executedAtEof h turn_nil
          refine ⟨fun hframed => ?_, False.elim⟩
          rw [hframed.executedAtEof] at hdead
          cases hdead
        | cons line lines =>
          obtain ⟨hnul, hlength⟩ := hlines line List.mem_cons_self
          have hne : line ++ ['\n'] ≠ [] := by simp
          have hlength' : (line ++ ['\n']).length < sbufSize := by simpa using hlength
          obtain ⟨heof', hbounds'⟩ :
              (s.turn (line ++ ['\n']) answer).1.executedAtEof = s.executedAtEof ∧
                (s.turn (line ++ ['\n']) answer).1.outOfBounds = s.outOfBounds :=
            turn_flags hne hlength'
          have hcommands : (s.turn (line ++ ['\n']) answer).1.commands = s.commands ++ [line] := by
            rw [turn_commands hne hlength', command_line hnul]
          have happend : s.commands ++ line :: lines =
              (s.turn (line ++ ['\n']) answer).1.commands ++ lines := by
            rw [hcommands, List.append_assoc, List.singleton_append]
          simp only [readLoop, List.map_cons, List.headD_cons, List.tail_cons,
            turn_result hlength] at h
          rw [EndsAfter, happend]
          split_ifs at h ⊢
          · exact Option.some.inj h ▸ hstop (heof'.trans heof) (hbounds'.trans hbounds)
          · exact ih (fun l hl => hlines l (List.mem_cons_of_mem _ hl)) (heof'.trans heof)
              (hbounds'.trans hbounds) h

/-- **The commands are the lines exactly when** every `read` delivers one line, no line has a NUL,
and the loop ends after the last of them before it reads again. -/
theorem framed_iff (hchunks : ∀ chunk ∈ chunks, chunk ≠ [] ∧ chunk.length < sbufSize)
    (hstream : chunks.flatten = lines.flatMap (· ++ ['\n']))
    (h : esl2agiThread connected sbuf chunks turns = some s) :
    Framed lines s ↔ chunks = lines.map (· ++ ['\n']) ∧ (∀ line ∈ lines, '\x00' ∉ line) ∧
      EndsAfter connected lines turns := by
  have hlines : chunks = lines.map (· ++ ['\n']) → (∀ line ∈ lines, '\x00' ∉ line) →
      (Framed lines s ↔ EndsAfter connected lines turns) := by
    rintro rfl hnul
    refine readLoop_lines_iff (fun line hline => ⟨hnul line hline, ?_⟩) rfl rfl h
    simpa using (hchunks _ (List.mem_map_of_mem hline)).2
  constructor
  · intro hframed
    obtain ⟨done, rest, rfl, hcommands⟩ := readLoop_commands h hchunks hframed.executedAtEof
    obtain rfl : lines = done.map command := hframed.commands.symm.trans hcommands
    obtain ⟨rfl, hdone, hnul⟩ := chunks_eq_lines (fun c hc => (hchunks c hc).1) hstream
    rw [List.append_nil] at hlines ⊢
    exact ⟨hdone, hnul, (hlines hdone hnul).mp hframed⟩
  · rintro ⟨heq, hnul, hends⟩
    exact (hlines heq hnul).mpr hends

/-- A command, and another one that has no handler. -/
theorem framed_iff_answer : ∃ s, esl2agiThread true [] ["ANSWER\n".toList, "NOOP\n".toList]
      [.read 0 true, .notSet, .read 0 true] = some s ∧
    Framed ["ANSWER".toList, "NOOP".toList] s := by
  have hends : EndsAfter true ["ANSWER".toList, "NOOP".toList]
      [.read 0 true, .notSet, .read 0 true] := by
    rw [EndsAfter, if_neg (by decide), EndsAfter, EndsAfter, if_pos (by decide)]
  have h : esl2agiThread true [] ["ANSWER\n".toList, "NOOP\n".toList]
      [.read 0 true, .notSet, .read 0 true] = some _ := rfl
  exact ⟨_, h, (framed_iff (by decide) (by decide) h).mpr ⟨by decide, by decide, hends⟩⟩

/-- Two lines that one `read` delivers are one command. -/
theorem not_framed : ¬ ∀ (connected : Bool) (sbuf : List Char) (chunks lines : List (List Char))
    (turns : List Turn) (s : Thread), (∀ line ∈ lines, '\n' ∉ line ∧ line.length + 1 < sbufSize) →
    (∀ chunk ∈ chunks, chunk ≠ [] ∧ chunk.length < sbufSize) →
    chunks.flatten = lines.flatMap (· ++ ['\n']) →
    esl2agiThread connected sbuf chunks turns = some s → Framed lines s := by
  intro h
  have hframed := h true [] ["ANSWER\nHANGUP\n".toList] ["ANSWER".toList, "HANGUP".toList]
    [.read 0 true] _ (by decide) (by decide) (by decide) rfl
  exact absurd hframed.commands (by decide)

end FreeswitchContrib.Esl2agi
