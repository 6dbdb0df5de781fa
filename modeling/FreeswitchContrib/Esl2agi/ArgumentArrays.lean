import FreeswitchContrib.Esl2agi.Quoting

/-!
# The argument arrays of a command

`find_and_exec_command` has room for 1024 pointers to words, and `handle_exec` copies those of an
`EXEC` command into an array of 128.

* `two_mul_words_le`: a word needs a character, and another one that separates it from the next.
* `accesses_inBounds_iff`: all accesses are in bounds unless an `EXEC` command has more than 128
  words.
-/

namespace FreeswitchContrib.Esl2agi

/-! ## Accesses -/

/-- The array of `find_and_exec_command`, and that of `handle_exec`. -/
inductive ArgvArray where
  | command
  | exec
  deriving DecidableEq

def ArgvArray.size : ArgvArray → ℕ
  | command => 1024
  | exec => 128

structure Access where
  array : ArgvArray
  index : ℕ
  deriving DecidableEq

def Access.InBounds (a : Access) : Prop := a.index < a.array.size

instance (a : Access) : Decidable a.InBounds := inferInstanceAs (Decidable (_ < _))

inductive AppHandler where
  | dial
  | setVariable
  | sipaddheader

/-- `exec_bindings` -/
def execBindings : List (List String × AppHandler) :=
  [(["DIAL"], .dial), (["SET"], .setVariable), (["SIPADDHEADER"], .sipaddheader)]

def findAppBinding (cmd : List (List Char)) : Option AppHandler :=
  (execBindings.find? fun binding => bindingMatches binding.1 cmd).map Prod.snd

/-- The indices from `y` on at which `cmd` is read while it is compared with the words of a binding.
Behind the words of `cmd` is its `NULL`. -/
def matchReads : ℕ → List String → List (List Char) → List ℕ
  | y, _, [] => [y]
  | y, [], _ :: _ => [y]
  | y, word :: words, arg :: args =>
    y :: (if sameWord word.toList arg then matchReads (y + 1) words args else [])

/-- The loop over the bindings, up to the first that matches. -/
def bindingReads {β : Type} : List (List String × β) → List (List Char) → List ℕ
  | [], _ => []
  | binding :: bindings, cmd =>
    matchReads 0 binding.1 cmd ++
      if bindingMatches binding.1 cmd then [] else bindingReads bindings cmd

/-- `handle_exec` with the words `args`: `argv[i-1] = args[i]` from 1 to `argc`, where `args[argc]`
is the `NULL`, and the search of the words that were copied. -/
def handleExecAccesses (args : List (List Char)) : List Access :=
  ((List.range args.length).flatMap fun i => [⟨.command, i + 1⟩, ⟨.exec, i⟩]) ++
    (bindingReads execBindings args.tail).map (⟨.exec, ·⟩)

/-- `find_and_exec_command`: each word is written with `argv[x++]`, and `NULL` behind them. -/
def findAndExecAccesses (buf : List Char) : List Access :=
  let p := parseArgs buf
  let args := p.argv.map (cString p.memory)
  (List.range (p.argv.length + 1)).map (⟨.command, ·⟩) ++
    ((bindingReads bindings args).map (⟨.command, ·⟩) ++
      match findBinding args with
      | some .exec => handleExecAccesses args
      | _ => [])

/-! ## Bounds -/

variable {β : Type} {args : List (List Char)} {line : List Char} {w : Lexer}

/-- No more is read than the words and the `NULL`. -/
lemma matchReads_le : ∀ {y : ℕ} {words : List String} {args : List (List Char)} {i : ℕ},
    i ∈ matchReads y words args → i ≤ y + args.length
  | y, words, [], i, hi => by
    rw [matchReads, List.mem_singleton] at hi
    exact hi.le
  | y, [], arg :: args, i, hi => by
    rw [matchReads, List.mem_singleton] at hi
    exact hi.le.trans (Nat.le_add_right _ _)
  | y, word :: words, arg :: args, i, hi => by
    rw [matchReads, List.mem_cons] at hi
    rcases hi with rfl | hi
    · exact Nat.le_add_right _ _
    · split_ifs at hi
      · have := matchReads_le hi
        rw [List.length_cons]
        omega
      · cases hi

lemma bindingReads_le {i : ℕ} : ∀ {bindings : List (List String × β)},
    i ∈ bindingReads bindings args → i ≤ args.length
  | [], hi => absurd hi List.not_mem_nil
  | binding :: bindings, hi => by
    rw [bindingReads, List.mem_append] at hi
    rcases hi with hi | hi
    · exact (matchReads_le hi).trans (Nat.zero_add _).le
    · split_ifs at hi
      · cases hi
      · exact bindingReads_le hi

/-- The words so far against the characters so far. -/
def Lexer.size (w : Lexer) : ℕ := 2 * w.words.length + if w.word.isSome then 1 else 0

lemma size_step (w : Lexer) (c : Char) : (w.step c).size ≤ w.size + 1 := by
  have hok : (w.ok c).size ≤ w.size + 1 := by
    rw [Lexer.size, Lexer.size, Lexer.ok]
    simp only [Option.isSome_some, if_true]
    omega
  have htoggle : w.toggle.size ≤ w.size + 1 := by
    rw [Lexer.size, Lexer.size, Lexer.toggle]
    split_ifs <;> simp_all
  have hseparate : w.separate.size ≤ w.size + 1 := by
    rw [Lexer.size, Lexer.size, Lexer.separate]
    cases w.word with
    | none => simp
    | some word => simp; omega
  rw [Lexer.step]
  split_ifs
  · exact hok
  · exact htoggle
  · exact hseparate
  · exact hok
  · exact hok
  · exact Nat.le_succ _
  · exact hok

lemma size_foldl : ∀ (line : List Char) (w : Lexer),
    (line.foldl Lexer.step w).size ≤ w.size + line.length
  | [], _ => Nat.le_refl _
  | c :: line, w => by
    have hstep := size_step w c
    have ih := size_foldl line (w.step c)
    rw [List.foldl_cons, List.length_cons]
    omega

/-- **A line has at most half as many words as it has characters**, and one more. -/
theorem two_mul_words_le (line : List Char) : 2 * (words line).length ≤ line.length + 1 := by
  have hsize := size_foldl line .init
  rw [Lexer.size, show Lexer.init.size = 0 from rfl, Nat.zero_add] at hsize
  rw [words, Lexer.all, List.length_append]
  cases hword : (line.foldl Lexer.step .init).word with
  | none =>
    simp only [hword, Option.isSome_none, Bool.false_eq_true, if_false] at hsize
    rw [Option.toList_none, List.length_nil]
    omega
  | some word =>
    simp only [hword, Option.isSome_some, if_true] at hsize
    rw [Option.toList_some, List.length_singleton]
    omega

/-! ## `EXEC` -/

/-- The first word is `EXEC`. -/
def IsExec (args : List (List Char)) : Prop :=
  ∃ arg ∈ args.head?, sameWord "EXEC".toList arg = true

instance (args : List (List Char)) : Decidable (IsExec args) :=
  decidable_of_iff (args.head?.any (sameWord "EXEC".toList) = true) (by
    rw [Option.any_eq_true]
    rfl)

lemma not_sameWord_of_sameWord {word word' arg : List Char} (h : sameWord word arg = true)
    (hne : word'.map Char.toLower ≠ word.map Char.toLower) : sameWord word' arg = false := by
  rw [sameWord, decide_eq_true_eq] at h
  rw [sameWord, decide_eq_false_iff_not, ← h]
  exact hne

/-- `EXEC` is the only binding that begins with this word. -/
lemma findBinding_eq_exec_iff : findBinding args = some .exec ↔ IsExec args := by
  cases args with
  | nil => simp [findBinding, bindings, bindingMatches, IsExec]
  | cons arg args =>
    simp only [IsExec, List.head?_cons, Option.mem_some_iff, exists_eq_left']
    constructor
    · intro h
      rw [findBinding, Option.map_eq_some_iff] at h
      obtain ⟨binding, hfind, hhandler⟩ := h
      have hmatches := List.find?_some hfind
      have hmem := List.mem_of_find?_eq_some hfind
      simp only [bindings, List.mem_cons, List.not_mem_nil, or_false] at hmem
      rcases hmem with rfl | rfl | rfl | rfl | rfl | rfl | rfl
      · exact Handler.noConfusion hhandler
      · exact Handler.noConfusion hhandler
      · exact Handler.noConfusion hhandler
      · exact Handler.noConfusion hhandler
      · exact Handler.noConfusion hhandler
      · exact (Bool.and_eq_true_iff.mp hmatches).1
      · exact Handler.noConfusion hhandler
    · intro h
      have hother : ∀ word : String, word.toList.map Char.toLower ≠
          "EXEC".toList.map Char.toLower → sameWord word.toList arg = false :=
        fun word => not_sameWord_of_sameWord h
      simp only [findBinding, bindings, List.find?_cons, bindingMatches, h, Bool.and_true,
        hother "ANSWER" (by decide), hother "HANGUP" (by decide), hother "STREAM" (by decide),
        hother "SET" (by decide), Bool.false_and, Option.map_some]

/-! ## All accesses -/

/-- The copy of the words, and the search of it, need as many places as there are words. -/
lemma handleExecAccesses_inBounds_iff (hexec : IsExec args) (hargs : args.length ≤ 1023) :
    (∀ a ∈ handleExecAccesses args, a.InBounds) ↔ args.length ≤ 128 := by
  have hpos : 0 < args.length := by
    obtain ⟨arg, harg, -⟩ := hexec
    cases args with
    | nil => cases harg
    | cons => exact Nat.succ_pos _
  constructor
  · intro h
    by_contra hmany
    have hlast : (⟨.exec, args.length - 1⟩ : Access) ∈ handleExecAccesses args := by
      refine List.mem_append_left _ (List.mem_flatMap.mpr ⟨args.length - 1, ?_, by simp⟩)
      rw [List.mem_range]
      omega
    have hbound : args.length - 1 < 128 := h _ hlast
    omega
  · intro hfew a ha
    rw [handleExecAccesses, List.mem_append, List.mem_flatMap, List.mem_map] at ha
    rcases ha with ⟨i, hi, ha⟩ | ⟨i, hi, rfl⟩
    · rw [List.mem_range] at hi
      simp only [List.mem_cons, List.not_mem_nil, or_false] at ha
      rcases ha with rfl | rfl
      · exact show i + 1 < 1024 by omega
      · exact show i < 128 by omega
    · have hle := bindingReads_le hi
      rw [List.length_tail] at hle
      exact show i < 128 by omega

/-- **When the argument arrays are not overrun.** -/
theorem accesses_inBounds_iff (hnul : '\x00' ∉ line) (hlength : line.length ≤ 2046)
    (rest : List Char) :
    (∀ a ∈ findAndExecAccesses (line ++ '\x00' :: rest), a.InBounds) ↔
      ¬ (IsExec (words line) ∧ 128 < (words line).length) := by
  have hwords := parseArgs_eq_words hnul rest
  have hcount : (words line).length ≤ 1023 := by
    have := two_mul_words_le line
    omega
  have hargv : (parseArgs (line ++ '\x00' :: rest)).argv.length = (words line).length := by
    rw [← hwords, List.length_map]
  have hcommand : ∀ i ≤ (words line).length, Access.InBounds ⟨.command, i⟩ :=
    fun i hi => show i < 1024 by omega
  have hrest : (∀ a ∈ findAndExecAccesses (line ++ '\x00' :: rest), a.InBounds) ↔
      (IsExec (words line) → ∀ a ∈ handleExecAccesses (words line), a.InBounds) := by
    simp only [findAndExecAccesses, hwords, hargv, List.forall_mem_append, List.forall_mem_map]
    rw [and_iff_right fun i hi => hcommand i (Nat.lt_succ_iff.mp (List.mem_range.mp hi)),
      and_iff_right fun i hi => hcommand i (bindingReads_le hi)]
    by_cases hexec : IsExec (words line)
    · rw [findBinding_eq_exec_iff.mpr hexec]
      exact ⟨fun h _ => h, fun h => h hexec⟩
    · refine iff_of_true ?_ fun h => absurd h hexec
      split
      · next hfound => exact absurd (findBinding_eq_exec_iff.mp hfound) hexec
      · exact fun _ h => absurd h List.not_mem_nil
  rw [hrest, not_and, not_lt]
  exact forall_congr' fun hexec => handleExecAccesses_inBounds_iff hexec hcount

/-- A command of two words. -/
theorem accesses_inBounds_dial : (words "EXEC DIAL".toList).length = 2 ∧
    ∀ a ∈ findAndExecAccesses ("EXEC DIAL".toList ++ '\x00' :: []), a.InBounds :=
  ⟨by decide, (accesses_inBounds_iff (by decide) (by decide) []).mpr (by decide +kernel)⟩

/-- `EXEC` with 128 arguments. -/
def manyArguments : List Char := "EXEC".toList ++ (List.replicate 128 [' ', 'a']).flatten

theorem not_accesses_inBounds : ¬ ∀ line : List Char, '\x00' ∉ line → line.length ≤ 2046 →
    ∀ rest, ∀ a ∈ findAndExecAccesses (line ++ '\x00' :: rest), a.InBounds := by
  intro h
  have hnul : '\x00' ∉ manyArguments := by decide
  have hlength : manyArguments.length ≤ 2046 := by set_option maxRecDepth 8192 in decide
  have hwords : IsExec (words manyArguments) ∧ 128 < (words manyArguments).length := by
    set_option maxRecDepth 8192 in decide
  exact (accesses_inBounds_iff hnul hlength []).mp (h _ hnul hlength []) hwords

end FreeswitchContrib.Esl2agi
