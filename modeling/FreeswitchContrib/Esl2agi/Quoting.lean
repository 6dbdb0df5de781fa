import FreeswitchContrib.Esl2agi.Commands

/-!
# The words of a command line

A `Lexer` reads a command line without the memory: the words that are complete, and the one in
progress.  `parse_args` does the same in place, so what it leaves in the buffer is what the lexer
says.

* `shows_loop`: the in-place loop simulates the lexer, and its write cursor stays behind its read
  cursor.
* `words_writtenLine`: words that are written between double quotes are read back.
-/

namespace FreeswitchContrib.Esl2agi

/-! ## Lexing -/

/-- The flags of `parse_args`; `space` is set while there is no word in progress. -/
structure Lexer where
  words : List (List Char)
  word : Option (List Char)
  quote : Bool
  escaped : Bool

namespace Lexer

def init : Lexer := ⟨[], none, false, false⟩

def ok (w : Lexer) (c : Char) : Lexer :=
  { w with word := some (w.word.getD [] ++ [c]), escaped := false }

/-- The end of a word. -/
def separate (w : Lexer) : Lexer := { w with words := w.words ++ w.word.toList, word := none }

def toggle (w : Lexer) : Lexer :=
  { w with
    quote := !w.quote
    word := if !w.quote && w.word.isNone then some [] else w.word
    escaped := false }

def step (w : Lexer) (c : Char) : Lexer :=
  if c = '"' then
    if w.escaped then w.ok c else w.toggle
  else if c = ' ' ∨ c = '\t' then
    if !w.quote && !w.escaped then w.separate else w.ok c
  else if c = '\\' then
    if w.escaped then w.ok c else { w with escaped := true }
  else w.ok c

def all (w : Lexer) : List (List Char) := w.words ++ w.word.toList

end Lexer

/-- The words of a command line. -/
def words (line : List Char) : List (List Char) := (line.foldl Lexer.step .init).all

variable {memory line rest : List Char} {p : ParseArgs} {w : Lexer} {c : Char} {buf fuel : ℕ}

/-! ## Strings in the memory -/

lemma cString_eq_of_nul {before word : List Char} (after : List Char) (hword : '\x00' ∉ word) :
    cString (before ++ word ++ '\x00' :: after) before.length = word := by
  have hall : ∀ c ∈ word, decide (c ≠ '\x00') = true := by
    intro c hc
    exact decide_eq_true fun heq => hword (heq ▸ hc)
  rw [cString, List.append_assoc, List.drop_left, List.takeWhile_append_of_pos hall,
    List.takeWhile_cons_of_neg (by decide), List.append_nil]

/-- A string that ends stays as it is when the memory is continued. -/
lemma cString_append_of_nul {offset : ℕ} (h : '\x00' ∈ memory.drop offset) (rest : List Char) :
    cString (memory ++ rest) offset = cString memory offset := by
  have hle : offset ≤ memory.length := by
    by_contra hlt
    rw [List.drop_eq_nil_of_le (by omega)] at h
    cases h
  rw [cString, cString, List.drop_append_of_le_length hle, List.takeWhile_append, if_neg]
  intro hall
  have heq := List.takeWhile_eq_self_iff.mp ((List.takeWhile_prefix _).eq_of_length hall) _ h
  simp at heq

/-! ## The simulation -/

/-- The locals of `parse_args` are those of the lexer: behind the finished words, each with its NUL,
stands the word in progress up to the write cursor. -/
structure Shows (p : ParseArgs) (w : Lexer) : Prop where
  quote : p.quote = w.quote
  escaped : p.escaped = w.escaped
  space : p.space = w.word.isNone
  noNul : '\x00' ∉ w.word.getD []
  layout : ∃ (before : List Char) (offsets : List ℕ),
    p.memory.take p.cur = before ++ w.word.getD [] ∧
    p.argv = offsets ++ (w.word.map fun _ => before.length).toList ∧
    offsets.map (cString before) = w.words ∧ ∀ offset ∈ offsets, '\x00' ∈ before.drop offset

lemma shows_init (memory : List Char) :
    Shows ⟨memory, 0, [], false, false, true⟩ Lexer.init where
  quote := rfl
  escaped := rfl
  space := rfl
  noNul := List.not_mem_nil
  layout := ⟨[], [], rfl, rfl, rfl, fun _ ho => absurd ho List.not_mem_nil⟩

lemma take_write (h : p.cur < p.memory.length) (c : Char) :
    (p.write c).memory.take (p.write c).cur = p.memory.take p.cur ++ [c] := by
  simp only [ParseArgs.write]
  rw [List.take_add_one, List.take_set_of_le (Nat.le_refl _), List.getElem?_set_self h,
    Option.toList_some]

/-- A word starts where the write cursor is. -/
lemma Shows.start (h : Shows p w) (hcur : p.cur ≤ p.memory.length) (hword : w.word = none) :
    Shows p.start { w with word := some [] } := by
  obtain ⟨before, offsets, htake, hargv, hwords, hnuls⟩ := h.layout
  rw [hword] at htake hargv
  have hlength : p.cur = before.length := by
    have := congrArg List.length htake
    simpa [Nat.min_eq_left hcur] using this
  refine ⟨h.quote, h.escaped, rfl, List.not_mem_nil, before, offsets, htake, ?_, hwords, hnuls⟩
  rw [ParseArgs.start, hargv, hlength]
  simp

/-- A character of the word in progress. -/
lemma Shows.write {word : List Char} (h : Shows p w) (hcur : p.cur < p.memory.length)
    (hword : w.word = some word) (hc : c ≠ '\x00') :
    Shows { p.write c with escaped := false } (w.ok c) := by
  obtain ⟨before, offsets, htake, hargv, hwords, hnuls⟩ := h.layout
  have hnul := h.noNul
  rw [hword] at htake hargv hnul
  refine ⟨h.quote, rfl, ?_, ?_, before, offsets, ?_, ?_, hwords, hnuls⟩
  · exact h.space.trans (by rw [hword]; rfl)
  · rw [Lexer.ok, hword]
    simpa [not_or] using ⟨hnul, hc.symm⟩
  · rw [Lexer.ok, hword]
    exact (take_write hcur c).trans (by rw [htake]; simp)
  · rw [Lexer.ok, hword]
    exact hargv

/-- The label `ok`. -/
lemma Shows.ok (h : Shows p w) (hcur : p.cur < p.memory.length) (hc : c ≠ '\x00') :
    Shows (p.ok c) (w.ok c) := by
  rw [ParseArgs.ok, h.space]
  cases hword : w.word with
  | none =>
    have hwrite := (h.start hcur.le hword).write (c := c) hcur rfl hc
    rw [Option.isNone_none, if_pos rfl]
    simpa only [Lexer.ok, hword, Option.getD_none, Option.getD_some] using hwrite
  | some word =>
    rw [Option.isNone_some, if_neg Bool.false_ne_true]
    exact h.write hcur hword hc

/-- The NUL behind a word. -/
lemma Shows.separate (h : Shows p w) (hcur : p.cur < p.memory.length) :
    Shows ({ p with space := true }.write '\x00') w.separate := by
  obtain ⟨before, offsets, htake, hargv, hwords, hnuls⟩ := h.layout
  have htake' : (p.write '\x00').memory.take (p.write '\x00').cur =
      before ++ (w.word.getD [] ++ ['\x00']) := by
    rw [take_write hcur, htake, List.append_assoc]
  refine ⟨h.quote, h.escaped, rfl, List.not_mem_nil, before ++ (w.word.getD [] ++ ['\x00']),
    p.argv, htake'.trans (by rw [Lexer.separate, Option.getD_none, List.append_nil]), ?_, ?_, ?_⟩
  · rw [Lexer.separate, Option.map_none, Option.toList_none, List.append_nil, ParseArgs.write]
  · rw [hargv, List.map_append, Lexer.separate, ← hwords]
    congr 1
    · exact List.map_congr_left fun offset ho => cString_append_of_nul (hnuls offset ho) _
    · cases hword : w.word with
      | none => rfl
      | some word =>
        have hnul := h.noNul
        rw [hword] at hnul
        simpa using cString_eq_of_nul [] hnul
  · intro offset ho
    rw [hargv, List.mem_append] at ho
    rcases ho with ho | ho
    · have hmem := hnuls offset ho
      have hle : offset ≤ before.length := by
        by_contra hlt
        rw [List.drop_eq_nil_of_le (by omega)] at hmem
        cases hmem
      rw [List.drop_append_of_le_length hle]
      exact List.mem_append_left _ hmem
    · obtain ⟨word, hword, rfl⟩ : ∃ word, w.word = some word ∧ before.length = offset := by
        simpa using ho
      rw [List.drop_left]
      simp

lemma Shows.toggle (h : Shows p w) (hcur : p.cur ≤ p.memory.length) :
    Shows { (if !p.quote && p.space then ({ p with quote := !p.quote } : ParseArgs).start
      else { p with quote := !p.quote }) with escaped := false } w.toggle := by
  have hquote : (!p.quote) = !w.quote := congrArg _ h.quote
  have hstarts : (!p.quote && p.space) = (!w.quote && w.word.isNone) := by rw [h.quote, h.space]
  rw [Lexer.toggle, ← hstarts]
  split_ifs with hstart
  · rw [hstarts, Bool.and_eq_true, Option.isNone_iff_eq_none] at hstart
    have hstart := h.start hcur hstart.2
    exact ⟨hquote, rfl, hstart.space, hstart.noNul, hstart.layout⟩
  · exact ⟨hquote, rfl, h.space, h.noNul, h.layout⟩

lemma Shows.step (h : Shows p w) (hcur : p.cur < p.memory.length) (hc : c ≠ '\x00') :
    Shows (p.step c) (w.step c) := by
  rw [ParseArgs.step, Lexer.step, ← h.quote, ← h.escaped]
  by_cases hquote : c = '"'
  · rw [if_pos hquote, if_pos hquote]
    split_ifs
    · exact h.ok hcur hc
    · exact h.toggle hcur.le
  · rw [if_neg hquote, if_neg hquote]
    split_ifs
    · exact h.separate hcur
    · exact h.ok hcur hc
    · exact h.ok hcur hc
    · exact ⟨rfl, rfl, h.space, h.noNul, h.layout⟩
    · exact h.ok hcur hc

/-- Only what is read is written over. -/
lemma drop_step (hcur : p.cur ≤ buf) (c : Char) :
    (p.step c).memory.drop (buf + 1) = p.memory.drop (buf + 1) ∧ (p.step c).cur ≤ buf + 1 ∧
      (p.step c).memory.length = p.memory.length := by
  have hwrite : ∀ c, (p.memory.set p.cur c).drop (buf + 1) = p.memory.drop (buf + 1) :=
    fun c => List.drop_set_of_lt (by omega)
  have hok : (p.ok c).memory.drop (buf + 1) = p.memory.drop (buf + 1) ∧ (p.ok c).cur ≤ buf + 1 ∧
      (p.ok c).memory.length = p.memory.length := by
    rw [ParseArgs.ok]
    split_ifs <;> exact ⟨hwrite c, Nat.succ_le_succ hcur, List.length_set⟩
  have hstay : p.cur ≤ buf + 1 := by omega
  rw [ParseArgs.step]
  split_ifs
  · exact hok
  · simp only
    split_ifs <;> exact ⟨rfl, hstay, rfl⟩
  · exact ⟨hwrite _, Nat.succ_le_succ hcur, List.length_set⟩
  · exact hok
  · exact hok
  · exact ⟨rfl, hstay, rfl⟩
  · exact hok

/-- **The loop reads what the lexer reads**, with its write cursor behind. -/
theorem shows_loop : ∀ {line : List Char} {fuel buf : ℕ} {p : ParseArgs} {w : Lexer},
    '\x00' ∉ line → p.memory.drop buf = line ++ '\x00' :: rest → p.cur ≤ buf → Shows p w →
    line.length < fuel →
    Shows (ParseArgs.loop fuel buf p) (line.foldl Lexer.step w) ∧
      (ParseArgs.loop fuel buf p).cur ≤ buf + line.length ∧
      (ParseArgs.loop fuel buf p).memory.length = p.memory.length
  | _, 0, _, _, _, _, _, _, _, hfuel => absurd hfuel (Nat.not_lt_zero _)
  | [], fuel + 1, buf, p, w, _, hmemory, hcur, h, _ => by
    have hget : p.memory[buf]? = some '\x00' := by
      rw [← List.head?_drop, hmemory]
      rfl
    rw [ParseArgs.loop, hget]
    exact ⟨h, hcur, rfl⟩
  | c :: line, fuel + 1, buf, p, w, hnul, hmemory, hcur, h, hfuel => by
    obtain ⟨hc, hline⟩ := not_or.mp (mt List.mem_cons.mpr hnul)
    have hget : p.memory[buf]? = some c := by
      rw [← List.head?_drop, hmemory]
      rfl
    have hlt : p.cur < p.memory.length := hcur.trans_lt (List.getElem?_eq_some_iff.mp hget).1
    obtain ⟨hdrop, hcur', hlength⟩ := drop_step hcur c
    have hmemory' : (p.step c).memory.drop (buf + 1) = line ++ '\x00' :: rest := by
      rw [hdrop, ← List.drop_drop, hmemory]
      rfl
    obtain ⟨hshows, hend, hmem⟩ := shows_loop hline hmemory' hcur' (h.step hlt (Ne.symm hc))
      (Nat.lt_of_succ_lt_succ hfuel)
    rw [ParseArgs.loop, hget]
    simp only [if_neg (Ne.symm hc), List.foldl_cons]
    exact ⟨hshows, hend.trans (by rw [List.length_cons]; omega), hmem.trans hlength⟩

lemma cur_loop_le : ∀ {fuel buf : ℕ} {p : ParseArgs}, p.cur ≤ buf →
    (ParseArgs.loop fuel buf p).cur ≤ buf + fuel
  | 0, _, _, hcur => hcur
  | fuel + 1, buf, p, hcur => by
    rw [ParseArgs.loop]
    split
    · exact hcur.trans (Nat.le_add_right _ _)
    · next c hget =>
      split_ifs
      · exact hcur.trans (Nat.le_add_right _ _)
      · exact (cur_loop_le (drop_step hcur c).2.1).trans (by omega)

/-- The write cursor after any number of turns, of which each reads one character of the line. -/
lemma cur_loop_le_min (hnul : '\x00' ∉ line) (rest : List Char) (turns : ℕ) :
    (ParseArgs.loop turns 0 ⟨line ++ '\x00' :: rest, 0, [], false, false, true⟩).cur ≤
      min turns line.length := by
  refine le_min ((cur_loop_le (Nat.le_refl 0)).trans (Nat.zero_add _).le) ?_
  rcases Nat.lt_or_ge line.length turns with hlt | hle
  · have hend := (shows_loop hnul (show (line ++ '\x00' :: rest).drop 0 = _ from rfl)
      (Nat.le_refl 0) (shows_init (line ++ '\x00' :: rest)) hlt).2.1
    exact hend.trans (Nat.zero_add _).le
  · exact ((cur_loop_le (Nat.le_refl 0)).trans (Nat.zero_add _).le).trans hle

/-- The last NUL is written behind the last word. -/
lemma Shows.words_eq (h : Shows p w) (hcur : p.cur < p.memory.length) :
    p.argv.map (cString (p.write '\x00').memory) = w.all := by
  obtain ⟨before, offsets, htake, hargv, hwords, hnuls⟩ := h.layout
  have hsplit : (p.write '\x00').memory = before ++ w.word.getD [] ++ '\x00' ::
      (p.write '\x00').memory.drop (p.cur + 1) := by
    rw [← htake, List.append_cons, ← take_write hcur]
    exact (List.take_append_drop _ _).symm
  rw [hsplit, hargv, List.map_append, Lexer.all, ← hwords]
  congr 1
  · refine List.map_congr_left fun offset ho => ?_
    rw [List.append_assoc]
    exact cString_append_of_nul (hnuls offset ho) _
  · cases hword : w.word with
    | none => rfl
    | some word =>
      have hnul := h.noNul
      rw [hword] at hnul
      simpa using cString_eq_of_nul _ hnul

/-- **`parse_args` finds the words of the line.** -/
theorem parseArgs_eq_words (hnul : '\x00' ∉ line) (rest : List Char) :
    (parseArgs (line ++ '\x00' :: rest)).argv.map
      (cString (parseArgs (line ++ '\x00' :: rest)).memory) = words line := by
  have hfuel : line.length < (line ++ '\x00' :: rest).length := by
    rw [List.length_append, List.length_cons]
    omega
  obtain ⟨hshows, hcur, hlength⟩ := shows_loop hnul
    (show (line ++ '\x00' :: rest).drop 0 = _ from rfl) (Nat.le_refl 0)
    (shows_init (line ++ '\x00' :: rest)) hfuel
  refine hshows.words_eq ?_
  rw [hlength]
  exact (Nat.zero_add _ ▸ hcur).trans_lt hfuel

/-! ## Written words -/

/-- Every backslash and double quote is preceded by a backslash. -/
def escape (arg : List Char) : List Char :=
  arg.flatMap fun c => if c = '"' ∨ c = '\\' then ['\\', c] else [c]

def quoted (arg : List Char) : List Char := '"' :: escape arg ++ ['"']

def writtenLine (args : List (List Char)) : List Char := [' '].intercalate (args.map quoted)

lemma foldl_escape (words : List (List Char)) : ∀ arg read : List Char,
    (escape arg).foldl Lexer.step ⟨words, some read, true, false⟩ =
      ⟨words, some (read ++ arg), true, false⟩
  | [], read => by
    rw [List.append_nil]
    rfl
  | c :: arg, read => by
    have ih := foldl_escape words arg (read ++ [c])
    rw [List.append_assoc, List.singleton_append] at ih
    rw [escape, List.flatMap_cons, ← escape, List.foldl_append, ← ih]
    congr 1
    split_ifs with hspecial
    · rcases hspecial with rfl | rfl <;> rfl
    · obtain ⟨hquote, hbackslash⟩ := not_or.mp hspecial
      simp [Lexer.step, hquote, hbackslash, Lexer.ok]

lemma foldl_quoted (words : List (List Char)) (arg : List Char) :
    (quoted arg).foldl Lexer.step ⟨words, none, false, false⟩ =
      ⟨words, some arg, false, false⟩ := by
  have hread := foldl_escape words arg []
  rw [quoted, List.cons_append, List.foldl_cons, List.foldl_append]
  simp only [show Lexer.step ⟨words, none, false, false⟩ '"' = ⟨words, some [], true, false⟩
    from rfl, hread]
  rfl

lemma writtenLine_cons_cons (arg next : List Char) (args : List (List Char)) :
    writtenLine (arg :: next :: args) = quoted arg ++ ' ' :: writtenLine (next :: args) := by
  simp only [writtenLine, List.map_cons, List.intercalate_cons_cons, List.append_assoc,
    List.singleton_append]

lemma foldl_writtenLine : ∀ (words args : List (List Char)),
    ((writtenLine args).foldl Lexer.step ⟨words, none, false, false⟩).all = words ++ args
  | words, [] => rfl
  | words, [arg] => by
    rw [writtenLine, List.map_singleton, List.intercalate_singleton, foldl_quoted]
    rfl
  | words, arg :: next :: args => by
    have ih := foldl_writtenLine (words ++ [arg]) (next :: args)
    rw [List.append_assoc, List.singleton_append] at ih
    rw [writtenLine_cons_cons, List.foldl_append, foldl_quoted, List.foldl_cons, ← ih]
    rfl

/-- **Written words are read back.** -/
theorem words_writtenLine (args : List (List Char)) : words (writtenLine args) = args :=
  foldl_writtenLine [] args

lemma nul_notMem_quoted {arg : List Char} (harg : '\x00' ∉ arg) : '\x00' ∉ quoted arg := by
  intro hmem
  simp only [quoted, escape, List.cons_append, List.mem_cons, List.mem_append, List.mem_flatMap,
    List.not_mem_nil, or_false] at hmem
  rcases hmem with hmem | ⟨c, hc, hmem⟩ | hmem
  · exact absurd hmem (by decide)
  · split_ifs at hmem
    · simp only [List.mem_cons, List.not_mem_nil, or_false] at hmem
      rcases hmem with hmem | hmem
      · exact absurd hmem (by decide)
      · exact harg (hmem ▸ hc)
    · exact harg (List.mem_singleton.mp hmem ▸ hc)
  · exact absurd hmem (by decide)

lemma nul_notMem_writtenLine : ∀ {args : List (List Char)}, (∀ arg ∈ args, '\x00' ∉ arg) →
    '\x00' ∉ writtenLine args
  | [], _ => List.not_mem_nil
  | [arg], hargs => by
    rw [writtenLine, List.map_singleton, List.intercalate_singleton]
    exact nul_notMem_quoted (hargs arg List.mem_cons_self)
  | arg :: next :: args, hargs => by
    have hfirst := nul_notMem_quoted (hargs arg List.mem_cons_self)
    have hothers : '\x00' ∉ writtenLine (next :: args) :=
      nul_notMem_writtenLine fun arg harg => hargs arg (List.mem_cons_of_mem _ harg)
    rw [writtenLine_cons_cons, List.mem_append, List.mem_cons]
    rintro (hmem | hmem | hmem)
    · exact hfirst hmem
    · exact absurd hmem (by decide)
    · exact hothers hmem

/-- The array of the caller when `parse_args` returns: the words, and behind them `NULL`. -/
def argvArray (old : List (Option ℕ)) (p : ParseArgs) : List (Option ℕ) :=
  p.argv.map some ++ none :: old.drop (p.argv.length + 1)

/-- **`parse_args` inverts the quoting.** -/
theorem parseArgs_writtenLine (old : List (Option ℕ)) (hold : old.length = 1024)
    {args : List (List Char)} (hcount : args.length ≤ 1023) (hnul : ∀ arg ∈ args, '\x00' ∉ arg)
    (rest : List Char) :
    (parseArgs (writtenLine args ++ '\x00' :: rest)).argv.map
        (cString (parseArgs (writtenLine args ++ '\x00' :: rest)).memory) = args ∧
      (parseArgs (writtenLine args ++ '\x00' :: rest)).argv.length = args.length ∧
      (argvArray old (parseArgs (writtenLine args ++ '\x00' :: rest)))[args.length]? = some none ∧
      (argvArray old (parseArgs (writtenLine args ++ '\x00' :: rest))).length = 1024 ∧
      ∀ turns, (ParseArgs.loop turns 0
        ⟨writtenLine args ++ '\x00' :: rest, 0, [], false, false, true⟩).cur ≤
          min turns (writtenLine args).length := by
  have hwords := parseArgs_eq_words (nul_notMem_writtenLine hnul) rest
  rw [words_writtenLine] at hwords
  have hlength := congrArg List.length hwords
  rw [List.length_map] at hlength
  refine ⟨hwords, hlength, ?_, ?_, fun turns => ?_⟩
  · rw [argvArray, ← hlength, List.getElem?_append_right (by simp)]
    simp
  · simp only [argvArray, List.length_append, List.length_map, List.length_cons, List.length_drop]
    omega
  · exact cur_loop_le_min (nul_notMem_writtenLine hnul) rest turns

/-- A command of two words, of which one has a space and a double quote. -/
theorem parseArgs_writtenLine_two :
    let memory := writtenLine ["EXEC".toList, "a \"b".toList] ++ '\x00' :: ['x']
    (parseArgs memory).argv.map (cString (parseArgs memory).memory) =
        ["EXEC".toList, "a \"b".toList] ∧
      (parseArgs memory).argv.length = 2 := by
  have hwords := parseArgs_writtenLine (List.replicate 1024 none) List.length_replicate
    (show ["EXEC".toList, "a \"b".toList].length ≤ 1023 by decide) (by decide) ['x']
  exact ⟨hwords.1, hwords.2.1⟩

end FreeswitchContrib.Esl2agi
