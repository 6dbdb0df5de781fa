import FreeswitchContrib.Library.CString
import Mathlib.Data.List.Forall2

/-!
# Commands of a controlling script

`mod_fgi.c` starts a script and reads commands from it into a buffer that nothing terminates.  A
command is split into words where it stands, and the words are gone through for a command name;
three names are looked at together with the word behind them.

* `parseFgiArgs`, `findAndExecCommand`, `execFgiRun` — the functions of the module, with what they
  may fault with.
* `words` — the words of a text, and what splitting them in place comes to (`parseFgiArgs_cases`).
* **`findAndExecCommand_isOk_iff`** — the buffers on which a command faults nowhere.
* **`serve_isOk_iff`** — so nothing faults exactly if all commands that are executed are such.
* **`script_stays_inside`** — none is executed: `select` is asked about the descriptor on which the
  replies go out, so that the script is never read.
-/

namespace FreeswitchContrib.ModFgi

open CString

abbrev Text := List Char

abbrev Memory := List Char

/-- What must not happen: an index outside of the command buffer or of the array of arguments, or
NULL as an argument of `strcasecmp`. -/
inductive Fault
  | buffer | arguments | null
  deriving DecidableEq

def load (memory : Memory) (i : ℕ) : Except Fault Char :=
  match memory[i]? with
  | some c => .ok c
  | none => .error .buffer

def store (memory : Memory) (i : ℕ) (c : Char) : Except Fault Memory :=
  if i < memory.length then .ok (memory.set i c) else .error .buffer

/-! ## `parse_fgi_args` -/

/-- `char *argv[1024]`, of the caller -/
def argvSize : ℕ := 1024

/-- `argv[x++] = cur` -/
def push (argv : List ℕ) (cur : ℕ) : Except Fault (List ℕ) :=
  if argv.length < argvSize then .ok (argv ++ [cur]) else .error .arguments

/-- The variables of the loop; `x` is the length of `argv`. -/
structure Parse where
  memory : Memory
  cur : ℕ
  argv : List ℕ
  quote : Bool
  escaped : Bool
  space : Bool

/-- The label `ok`. -/
def Parse.ok (p : Parse) (c : Char) : Except Fault Parse := do
  let argv ← if p.space then push p.argv p.cur else .ok p.argv
  let memory ← store p.memory p.cur c
  .ok { p with memory, cur := p.cur + 1, argv, space := false, escaped := false }

def Parse.read (p : Parse) (c : Char) : Except Fault Parse :=
  if c = '"' then
    if p.escaped then p.ok c
    else if !p.quote && p.space then do
      let argv ← push p.argv p.cur
      .ok { p with argv, quote := true, space := false }
    else .ok { p with quote := !p.quote }
  else if c = ' ' ∨ c = '\t' then
    if !p.quote && !p.escaped then do
      let memory ← store p.memory p.cur nul
      .ok { p with memory, cur := p.cur + 1, space := true }
    else p.ok c
  else if c = '\\' then
    if p.escaped then p.ok c else .ok { p with escaped := true }
  else p.ok c

/-- `while (*buf)`, with so many characters left in the buffer. -/
def Parse.loop : ℕ → ℕ → Parse → Except Fault Parse
  | 0, _, _ => .error .buffer
  | left + 1, buf, p => do
    let c ← load p.memory buf
    if c = nul then .ok p
    else do
      let p ← p.read c
      Parse.loop left (buf + 1) p

/-- The buffer and the `argc` arguments; NULL is put behind them. -/
def parseFgiArgs (memory : Memory) : Except Fault (Memory × List ℕ) := do
  let p ← Parse.loop memory.length 0 ⟨memory, 0, [], false, false, true⟩
  let memory ← store p.memory p.cur nul
  if p.argv.length < argvSize then .ok (memory, p.argv) else .error .arguments

/-! ## `find_and_exec_command` -/

/-- What the session does when it is told to. -/
structure Channel where
  answer : ℤ
  str2cause : Text → ℤ
  hangup : ℤ → ℤ

/-- `SWITCH_CAUSE_NORMAL_CLEARING` -/
def normalClearing : ℤ := 16

/-- `200 result=%d\n\n` -/
def reply (y : ℤ) : Text := "200 result=".toList ++ (toString y).toList ++ "\n\n".toList

/-- The string that an argument is.  A comparison reads no more of it. -/
def argument (memory : Memory) (arg : ℕ) : Except Fault Text :=
  match string memory arg with
  | some text => .ok text
  | none => .error .buffer

/-- `!strcasecmp(argv[x], first) && !strcasecmp(argv[x+1], second)` -/
def twoWords (memory : Memory) (word : Text) (next : Option ℕ) (first second : String) :
    Except Fault Bool :=
  if strcasecmp word first.toList then
    match next with
    | none => .error .null
    | some arg => do
      let text ← argument memory arg
      .ok (strcasecmp text second.toList)
  else .ok false

/-- The last three of the commands, which do nothing. -/
def lookAhead (memory : Memory) (word : Text) (next : Option ℕ) : Except Fault Unit := do
  if ← twoWords memory word next "STREAM" "FILE" then .ok ()
  else if ← twoWords memory word next "SET" "CALLERID" then .ok ()
  else if ← twoWords memory word next "GET" "DATA" then .ok ()
  else .ok ()

/-- `for (x=0; x < argc; x++)`, with the reply that is written. -/
def execArgs (channel : Channel) (memory : Memory) : List ℕ → Except Fault (Option Text)
  | [] => .ok none
  | arg :: rest => do
    let word ← argument memory arg
    if strcasecmp word "ANSWER".toList then .ok (some (reply channel.answer))
    else if strcasecmp word "HANGUP".toList then
      match rest.head? with
      | none => .ok (some (reply (channel.hangup normalClearing)))
      | some next => do
        let text ← argument memory next
        let cause := if text = [] then normalClearing else channel.str2cause text
        .ok (some (reply (channel.hangup cause)))
    else if strcasecmp word "EXEC".toList then execArgs channel memory rest
    else do
      lookAhead memory word rest.head?
      execArgs channel memory rest

def findAndExecCommand (channel : Channel) (memory : Memory) :
    Except Fault (Memory × Option Text) := do
  let (memory, argv) ← parseFgiArgs memory
  let reply ← execArgs channel memory argv
  .ok (memory, reply)

/-! ## `exec_fgi_run` -/

/-- What one `read` delivers. -/
structure Piece where
  bytes : List Char
  short : bytes.length ≤ 2047

/-- One turn of the loop, as the system answers it: which descriptors are ready, unless `select`
fails, and what `read` delivers, unless it fails. -/
structure Turn where
  ready : Option (ℕ → Bool)
  piece : Option Piece

/-- The set that `select` leaves: those of the descriptors asked for that are ready. -/
def select (asked : List ℕ) (ready : ℕ → Bool) : List ℕ := asked.filter ready

/-- `read(out,&cmdbuf,2047)` leaves the buffer behind what it delivers as it was. -/
def receive (cmdbuf : Memory) (piece : Piece) : Except Fault Memory :=
  if piece.bytes.length ≤ cmdbuf.length then
    .ok (piece.bytes ++ cmdbuf.drop piece.bytes.length)
  else .error .buffer

/-- `while (thread_running)`, with the replies that are written. -/
def serve (channel : Channel) (asked : List ℕ) (out : ℕ) :
    Memory → List Turn → Except Fault (List Text)
  | _, [] => .ok []
  | cmdbuf, turn :: turns =>
    match turn.ready with
    | none => .ok []
    | some ready =>
      if out ∈ select asked ready then
        match turn.piece with
        | none => .ok []
        | some piece => do
          let cmdbuf ← receive cmdbuf piece
          let (cmdbuf, reply) ← findAndExecCommand channel cmdbuf
          let replies ← serve channel asked out cmdbuf turns
          .ok (reply.toList ++ replies)
      else serve channel asked out cmdbuf turns

/-- `char cmdbuf[_MAX_CMD_ARGS*128]`, which is not initialised. -/
structure Cmdbuf where
  memory : Memory
  size : memory.length = 128 * 128

/-- The words that are complete, and the one that is being read. -/
structure Splitter where
  done : List Text
  word : Option Text
  quote : Bool
  escaped : Bool

namespace Splitter

def start : Splitter := ⟨[], none, false, false⟩

def all (x : Splitter) : List Text := x.done ++ x.word.toList

def keep (x : Splitter) (c : Char) : Splitter :=
  { x with word := some (x.word.getD [] ++ [c]), escaped := false }

def read (x : Splitter) (c : Char) : Splitter :=
  if c = '"' ∧ x.escaped = false then
    { x with word := if x.quote then x.word else some (x.word.getD []), quote := !x.quote }
  else if (c = ' ' ∨ c = '\t') ∧ x.quote = false ∧ x.escaped = false then
    { x with done := x.all, word := none }
  else if c = '\\' ∧ x.escaped = false then { x with escaped := true }
  else x.keep c

end Splitter

/-- The words of a text, between blanks that are neither quoted nor escaped. -/
def words (text : Text) : List Text := (text.foldl Splitter.read .start).all

/-- The first string of the buffer. -/
def stringOf (memory : Memory) : Text := memory.takeWhile (· ≠ nul)

/-- No name that is looked at with the word behind it is the last word, unless a command before it
ends the search. -/
def looksBack : List Text → Bool
  | [] => true
  | word :: rest =>
    strcasecmp word "ANSWER".toList || strcasecmp word "HANGUP".toList ||
      ((!rest.isEmpty || !(strcasecmp word "STREAM".toList || strcasecmp word "SET".toList ||
        strcasecmp word "GET".toList)) && looksBack rest)

/-! ## Splitting in place -/

variable {memory W junk rest text : List Char} {c d : Char} {p : Parse} {x : Splitter}
  {argv : List ℕ} {word : Text} {arg buf : ℕ} {channel : Channel}

/-- A word that is terminated. -/
def Closed (W : Text) (arg : ℕ) (word : Text) : Prop :=
  nul ∉ word ∧ ∃ before behind, W = before ++ (word ++ nul :: behind) ∧ before.length = arg

/-- The word that ends what has been written. -/
def Opened (W : Text) (arg : ℕ) (word : Text) : Prop :=
  nul ∉ word ∧ ∃ before, W = before ++ word ∧ before.length = arg

lemma Closed.append (h : Closed W arg word) (t : Text) : Closed (W ++ t) arg word := by
  obtain ⟨hnul, before, behind, rfl, hlength⟩ := h
  exact ⟨hnul, before, behind ++ t, by simp, hlength⟩

lemma Opened.append (h : Opened W arg word) (hc : c ≠ nul) :
    Opened (W ++ [c]) arg (word ++ [c]) := by
  obtain ⟨hnul, before, rfl, hlength⟩ := h
  refine ⟨?_, before, by simp, hlength⟩
  simp [hnul, Ne.symm hc]

lemma Opened.close (h : Opened W arg word) : Closed (W ++ [nul]) arg word := by
  obtain ⟨hnul, before, rfl, hlength⟩ := h
  exact ⟨hnul, before, [], by simp, hlength⟩

lemma opened_nil (W : Text) : Opened W W.length [] := ⟨List.not_mem_nil, W, by simp, rfl⟩

lemma opened_singleton (W : Text) (hc : c ≠ nul) : Opened (W ++ [c]) W.length [c] :=
  (opened_nil W).append hc

/-- The arguments are the words that have been written. -/
def Written (W : Text) (argv : List ℕ) (x : Splitter) : Prop :=
  ∃ closed opened, argv = closed ++ Option.toList opened ∧
    List.Forall₂ (Closed W) closed x.done ∧ Option.Rel (Opened W) opened x.word

lemma Written.length_eq (h : Written W argv x) : argv.length = x.all.length := by
  obtain ⟨closed, opened, rfl, hclosed, hopened⟩ := h
  have hword : (Option.toList opened).length = x.word.toList.length := by
    generalize x.word = current at hopened
    cases hopened <;> rfl
  rw [Splitter.all, List.length_append, List.length_append, hclosed.length_eq, hword]

/-- What has been written is read up to the last character. -/
structure Holds (p : Parse) (x : Splitter) (W : Text) : Prop where
  cur : p.cur = W.length
  quote : p.quote = x.quote
  escaped : p.escaped = x.escaped
  space : p.space = x.word.isNone
  few : p.argv.length ≤ argvSize
  written : Written W p.argv x

/-- The loop goes on behind so many characters, or there are too many words. -/
def Goes (x : Splitter) (buf : ℕ) (rest : Text) : Except Fault Parse → Prop
  | .ok p => ∃ W junk, p.memory = W ++ (junk ++ rest) ∧ W.length + junk.length = buf ∧ Holds p x W
  | .error fault => fault = .arguments ∧ argvSize < x.all.length

/-- What is written stands before what is still to be read. -/
lemma store_behind (W junk : Text) (c d : Char) (rest : Text) :
    ∃ junk', junk'.length = junk.length ∧
      store (W ++ (junk ++ c :: rest)) W.length d = .ok (W ++ [d] ++ (junk' ++ rest)) := by
  cases junk with
  | nil =>
    refine ⟨[], rfl, ?_⟩
    rw [store, if_pos (by simp)]
    simp
  | cons e junk =>
    refine ⟨junk ++ [c], by simp, ?_⟩
    rw [store, if_pos (by simp)]
    simp

lemma push_cases (argv : List ℕ) (cur : ℕ) :
    (argv.length < argvSize ∧ push argv cur = .ok (argv ++ [cur])) ∨
      (argvSize ≤ argv.length ∧ push argv cur = .error .arguments) := by
  unfold push
  by_cases h : argv.length < argvSize
  · exact .inl ⟨h, if_pos h⟩
  · exact .inr ⟨Nat.le_of_not_lt h, if_neg h⟩

lemma goes_error (hlength : p.argv.length = x.all.length) (hfull : argvSize ≤ p.argv.length)
    {y : Splitter} (hy : x.all.length < y.all.length) : argvSize < y.all.length := by
  omega

/-- A character is kept. -/
lemma goes_ok (h : Goes x buf (c :: rest) (.ok p)) (hc : c ≠ nul) :
    Goes (x.keep c) (buf + 1) rest (p.ok c) := by
  obtain ⟨W, junk, hmemory, rfl, hholds⟩ := h
  obtain ⟨junk', hjunk, hstore⟩ := store_behind W junk c c rest
  obtain ⟨closed, opened, hargv, hclosed, hopened⟩ := hholds.written
  have hclosed' : List.Forall₂ (Closed (W ++ [c])) closed x.done :=
    hclosed.imp fun _ _ hword => hword.append [c]
  have hlength : (W ++ [c]).length + junk'.length = W.length + junk.length + 1 := by
    rw [List.length_append, List.length_singleton, hjunk]
    omega
  unfold Parse.ok
  cases hword : x.word with
  | none =>
    -- a word begins
    rw [hword] at hopened
    cases hopened
    have hspace : p.space = true := by rw [hholds.space, hword]; rfl
    rcases push_cases p.argv p.cur with ⟨hfew, hpush⟩ | ⟨hfull, hpush⟩
    · rw [if_pos hspace, hpush, hmemory, hholds.cur]
      simp only [bind, Except.bind]
      rw [hstore]
      refine ⟨W ++ [c], junk', rfl, hlength, by simp, hholds.quote, rfl, rfl, ?_,
        closed, some W.length, by simp [hargv], hclosed', ?_⟩
      · rw [List.length_append]
        exact hfew
      · rw [Splitter.keep, hword]
        exact .some (opened_singleton W hc)
    · rw [if_pos hspace, hpush]
      refine ⟨rfl, goes_error hholds.written.length_eq hfull ?_⟩
      simp [Splitter.all, Splitter.keep, hword]
  | some word =>
    rw [hword] at hopened
    cases hopened with
    | some hopened =>
      next arg =>
      have hspace : ¬ p.space = true := by rw [hholds.space, hword]; exact Bool.false_ne_true
      rw [if_neg hspace, hmemory, hholds.cur]
      simp only [bind, Except.bind]
      rw [hstore]
      refine ⟨W ++ [c], junk', rfl, hlength, by simp, hholds.quote, rfl, rfl, hholds.few,
        closed, some arg, by simp [hargv], hclosed', ?_⟩
      rw [Splitter.keep, hword]
      exact .some (hopened.append hc)

/-- A character is read. -/
lemma goes_read (h : Goes x buf (c :: rest) (.ok p)) (hc : c ≠ nul) :
    Goes (x.read c) (buf + 1) rest (p.read c) := by
  have hok := goes_ok h hc
  obtain ⟨W, junk, hmemory, rfl, hholds⟩ := h
  obtain ⟨closed, opened, hargv, hclosed, hopened⟩ := hholds.written
  have hskip : p.memory = W ++ ((junk ++ [c]) ++ rest) := by rw [hmemory]; simp
  have hlength : W.length + (junk ++ [c]).length = W.length + junk.length + 1 := by simp; omega
  by_cases hescaped : x.escaped = true
  · -- an escaped character is kept, whatever it is
    have hread : x.read c = x.keep c := by simp [Splitter.read, hescaped]
    have hparse : p.read c = p.ok c := by
      unfold Parse.read
      simp [hholds.escaped, hescaped]
    rw [hread, hparse]
    exact hok
  · have hescaped := (Bool.not_eq_true _).mp hescaped
    unfold Parse.read
    rw [hholds.quote, hholds.escaped, hescaped, hholds.space]
    by_cases hquote : c = '"'
    · rw [if_pos hquote, if_neg Bool.false_ne_true, Splitter.read, if_pos ⟨hquote, hescaped⟩]
      by_cases hopens : (!x.quote && x.word.isNone) = true
      · -- a quote begins a word
        obtain ⟨hq, hnone⟩ := Bool.and_eq_true_iff.mp hopens
        have hq := (Bool.not_eq_true' _).mp hq
        have hword := Option.isNone_iff_eq_none.mp hnone
        rw [hword] at hopened
        cases hopened
        rw [if_pos hopens, hq, hword, if_neg Bool.false_ne_true]
        rcases push_cases p.argv p.cur with ⟨hfew, hpush⟩ | ⟨hfull, hpush⟩
        · rw [hpush, hholds.cur]
          refine ⟨W, junk ++ [c], hskip, hlength, rfl, rfl, hescaped.symm, rfl, ?_,
            closed, some W.length, by simp [hargv], hclosed, .some (opened_nil W)⟩
          rw [List.length_append]
          exact hfew
        · rw [hpush]
          refine ⟨rfl, goes_error hholds.written.length_eq hfull ?_⟩
          simp [Splitter.all, hword]
      · rw [if_neg hopens]
        have hword : (if x.quote = true then x.word else some (x.word.getD [])) = x.word := by
          cases hq : x.quote with
          | true => exact if_pos rfl
          | false =>
            cases hw : x.word with
            | none => exact absurd (by rw [hq, hw]; rfl) hopens
            | some word => exact if_neg Bool.false_ne_true
        rw [hword]
        exact ⟨W, junk ++ [c], hskip, hlength, hholds.cur, rfl, hescaped.symm, rfl, hholds.few,
          hholds.written⟩
    · rw [if_neg hquote, Splitter.read, if_neg fun h => hquote h.1]
      by_cases hblank : c = ' ' ∨ c = '\t'
      · rw [if_pos hblank]
        cases hq : x.quote with
        | true =>
          have hback : ¬ (c = '\\' ∧ x.escaped = false) := by
            rintro ⟨rfl, -⟩
            simp at hblank
          rw [if_neg (show ¬ (!true && !false) = true by decide), if_neg (by simp), if_neg hback]
          exact hok
        | false =>
          -- the blank ends the word that is being read
          obtain ⟨junk', hjunk, hstore⟩ := store_behind W junk c nul rest
          rw [if_pos (show (!false && !false) = true from rfl), if_pos ⟨hblank, rfl, hescaped⟩,
            hmemory, hholds.cur]
          simp only [bind, Except.bind]
          rw [hstore]
          refine ⟨W ++ [nul], junk', rfl, by rw [hjunk]; simp; omega, by simp, rfl,
            hescaped.symm, rfl,
            hholds.few, p.argv, none, by simp, ?_, .none⟩
          rw [hargv]
          refine List.rel_append (hclosed.imp fun _ _ hword => hword.append [nul]) ?_
          generalize x.word = current at hopened
          cases hopened with
          | none => exact .nil
          | some hopened => exact .cons hopened.close .nil
      · rw [if_neg hblank, if_neg fun h => hblank h.1]
        by_cases hback : c = '\\'
        · rw [if_pos hback, if_neg Bool.false_ne_true, if_pos ⟨hback, hescaped⟩]
          exact ⟨W, junk ++ [c], hskip, hlength, hholds.cur, rfl, rfl, rfl, hholds.few,
            hholds.written⟩
        · rw [if_neg hback, if_neg fun h => hback h.1]
          exact hok

lemma length_all_read (x : Splitter) (c : Char) : x.all.length ≤ (x.read c).all.length := by
  unfold Splitter.read Splitter.keep
  split_ifs <;> cases hword : x.word <;> simp [Splitter.all, hword]

lemma length_all_foldl (text : Text) (x : Splitter) :
    x.all.length ≤ (text.foldl Splitter.read x).all.length := by
  induction text generalizing x with
  | nil => exact Nat.le_refl _
  | cons c text ih => exact (length_all_read x c).trans (ih (x.read c))

/-- **The loop over a text** comes to what is behind it, or finds too many words in it. -/
lemma loop_append (hnul : nul ∉ text) (h : Goes x buf (text ++ rest) (.ok p)) :
    ∃ result, Goes (text.foldl Splitter.read x) (buf + text.length) rest result ∧
      Parse.loop (text ++ rest).length buf p =
        result >>= Parse.loop rest.length (buf + text.length) := by
  induction text generalizing x buf p with
  | nil => exact ⟨.ok p, h, rfl⟩
  | cons c text ih =>
    obtain ⟨hc, htext⟩ := not_or.mp (List.mem_cons.not.mp hnul)
    have hgoes := goes_read h (Ne.symm hc)
    obtain ⟨W, junk, hmemory, hbuf, -⟩ := h
    have hload : load p.memory buf = .ok c := by
      rw [load, hmemory, ← List.append_assoc, List.cons_append,
        List.getElem?_append_right (by rw [List.length_append, hbuf]), List.length_append, hbuf,
        Nat.sub_self]
      rfl
    have hturn : Parse.loop (c :: text ++ rest).length buf p =
        p.read c >>= Parse.loop (text ++ rest).length (buf + 1) := by
      rw [List.cons_append, List.length_cons, Parse.loop, hload]
      simp only [bind, Except.bind]
      rw [if_neg (Ne.symm hc)]
    rw [hturn, List.foldl_cons, List.length_cons, Nat.add_comm text.length, ← Nat.add_assoc]
    cases hread : p.read c with
    | ok p' =>
      rw [hread] at hgoes
      exact ih htext hgoes
    | error fault =>
      rw [hread] at hgoes
      exact ⟨.error fault, ⟨hgoes.1, hgoes.2.trans_le (length_all_foldl text _)⟩, rfl⟩

lemma goes_start (memory : Memory) :
    Goes .start 0 memory (.ok ⟨memory, 0, [], false, false, true⟩) :=
  ⟨[], [], rfl, rfl, rfl, rfl, rfl, rfl, Nat.zero_le _, [], none, rfl, .nil, .none⟩

/-- Where nothing terminates the buffer something faults. -/
lemma parseFgiArgs_of_not_mem (h : nul ∉ memory) : ∃ fault, parseFgiArgs memory = .error fault := by
  have hstart : Goes .start 0 (memory ++ []) (.ok ⟨memory, 0, [], false, false, true⟩) := by
    rw [List.append_nil]
    exact goes_start memory
  obtain ⟨result, -, hloop⟩ := loop_append h hstart
  rw [List.append_nil] at hloop
  unfold parseFgiArgs
  rw [hloop]
  cases result with
  | ok p => exact ⟨.buffer, rfl⟩
  | error fault => exact ⟨fault, rfl⟩

lemma stringOf_append (tail : Text) (hnul : nul ∉ text) :
    stringOf (text ++ nul :: tail) = text := by
  rw [stringOf, List.takeWhile_append_of_pos, List.takeWhile_cons_of_neg (by simp),
    List.append_nil]
  exact fun c hc => decide_eq_true fun heq => hnul (heq ▸ hc)

/-- **What splitting in place comes to**: the arguments are the words of the first string, if the
array has room for them and for NULL. -/
lemma parseFgiArgs_cases (h : nul ∈ memory) :
    if (words (stringOf memory)).length < argvSize then
      ∃ memory' argv, parseFgiArgs memory = .ok (memory', argv) ∧
        memory'.length = memory.length ∧
        List.Forall₂ (fun arg word => string memory' arg = some word) argv
          (words (stringOf memory))
    else parseFgiArgs memory = .error .arguments := by
  obtain ⟨text, tail, rfl, hnul⟩ := List.eq_append_cons_of_mem h
  rw [stringOf_append tail hnul]
  obtain ⟨result, hgoes, hloop⟩ := loop_append hnul (goes_start (text ++ nul :: tail))
  cases result with
  | error fault =>
    obtain ⟨rfl, hmany⟩ := hgoes
    have hmany : argvSize < (words text).length := hmany
    rw [if_neg (Nat.lt_asymm hmany), parseFgiArgs, hloop]
    rfl
  | ok p =>
    obtain ⟨W, junk, hmemory, hbuf, hholds⟩ := hgoes
    have hload : load p.memory (0 + text.length) = .ok nul := by
      rw [load, hmemory, ← List.append_assoc, ← hbuf, ← List.length_append,
        List.getElem?_append_right (Nat.le_refl _), Nat.sub_self]
      rfl
    have hend : Parse.loop (nul :: tail).length (0 + text.length) p = .ok p := by
      rw [List.length_cons, Parse.loop, hload]
      simp only [bind, Except.bind, if_true]
    obtain ⟨junk', hjunk, hstore⟩ := store_behind W junk nul nul tail
    have hcount : p.argv.length = (words text).length := hholds.written.length_eq
    have hlength : (text ++ nul :: tail).length = p.memory.length := by
      rw [hmemory, List.length_append, List.length_append, List.length_append]
      omega
    have hparse : parseFgiArgs (text ++ nul :: tail) =
        if (words text).length < argvSize then .ok (W ++ [nul] ++ (junk' ++ tail), p.argv)
        else .error .arguments := by
      rw [parseFgiArgs, hloop]
      simp only [bind, Except.bind]
      rw [hend]
      dsimp only
      rw [hmemory, hholds.cur, hstore, hcount]
    rw [hparse]
    by_cases hfew : (words text).length < argvSize
    · rw [if_pos hfew, if_pos hfew]
      refine ⟨W ++ [nul] ++ (junk' ++ tail), p.argv, rfl, ?_, ?_⟩
      · rw [hlength, hmemory]
        simp [hjunk]
        omega
      · obtain ⟨closed, opened, hargv, hclosed, hopened⟩ := hholds.written
        have hstring : ∀ arg word, Closed (W ++ [nul]) arg word →
            string (W ++ [nul] ++ (junk' ++ tail)) arg = some word := by
          intro arg word hword
          obtain ⟨hfree, before, behind, heq, rfl⟩ := hword.append (junk' ++ tail)
          rw [heq]
          exact string_append before behind hfree
        rw [hargv]
        refine List.rel_append
          (hclosed.imp fun arg word hword => hstring arg word (hword.append [nul])) ?_
        generalize (text.foldl Splitter.read .start).word = current at hopened
        cases hopened with
        | none => exact .nil
        | some hopened => exact .cons (hstring _ _ hopened.close) .nil
    · rw [if_neg hfew, if_neg hfew]

/-! ## The words of a command -/

variable {argWords : List Text}

/-- These arguments are these words. -/
abbrev Spells (memory : Memory) (argv : List ℕ) (argWords : List Text) : Prop :=
  List.Forall₂ (fun arg word => string memory arg = some word) argv argWords

lemma argument_of_string (h : string memory arg = some word) : argument memory arg = .ok word := by
  rw [argument, h]

/-- A name that is looked at with the word behind it needs that word. -/
lemma lookAhead_isOk_iff (h : Spells memory argv argWords) (word : Text) :
    lookAhead memory word argv.head? = .ok () ↔
      (!argWords.isEmpty || !(strcasecmp word "STREAM".toList || strcasecmp word "SET".toList ||
        strcasecmp word "GET".toList)) = true := by
  cases h with
  | nil =>
    unfold lookAhead twoWords
    cases strcasecmp word "STREAM".toList <;> cases strcasecmp word "SET".toList <;>
      cases strcasecmp word "GET".toList <;> simp [bind, Except.bind]
  | @cons arg text _ _ hstring _ =>
    have htwo (first second : String) : ∃ found,
        twoWords memory word (some arg) first second = .ok found := by
      unfold twoWords
      dsimp only
      rw [argument_of_string hstring]
      cases strcasecmp word first.toList with
      | true => exact ⟨strcasecmp text second.toList, rfl⟩
      | false => exact ⟨false, rfl⟩
    obtain ⟨stream, hstream⟩ := htwo "STREAM" "FILE"
    obtain ⟨set, hset⟩ := htwo "SET" "CALLERID"
    obtain ⟨get, hget⟩ := htwo "GET" "DATA"
    refine iff_of_true ?_ rfl
    rw [List.head?_cons, lookAhead, hstream, hset, hget]
    cases stream <;> cases set <;> cases get <;> rfl

lemma strcasecmp_unique {name name' : Text} (h : strcasecmp word name = true)
    (hne : name.map Char.toLower ≠ name'.map Char.toLower) : strcasecmp word name' = false := by
  rw [strcasecmp, beq_iff_eq] at h
  rw [strcasecmp, h]
  exact beq_false_of_ne hne

variable (channel) in
/-- **The loop over the arguments** faults nowhere exactly if no name is looked at with a word behind
the last one. -/
lemma execArgs_isOk_iff (h : Spells memory argv argWords) :
    (∃ result, execArgs channel memory argv = .ok result) ↔ looksBack argWords = true := by
  induction h with
  | nil => exact iff_of_true ⟨none, rfl⟩ rfl
  | @cons arg word rest restWords hstring hrest ih =>
    rw [execArgs, argument_of_string hstring, looksBack]
    simp only [bind, Except.bind]
    by_cases hanswer : strcasecmp word "ANSWER".toList = true
    · rw [if_pos hanswer, hanswer]
      exact iff_of_true ⟨_, rfl⟩ rfl
    rw [if_neg hanswer, (Bool.not_eq_true _).mp hanswer, Bool.false_or]
    by_cases hhangup : strcasecmp word "HANGUP".toList = true
    · rw [if_pos hhangup, hhangup]
      refine iff_of_true ?_ rfl
      cases hrest with
      | nil => exact ⟨_, rfl⟩
      | @cons next text _ _ hnext _ =>
        simp only [List.head?_cons, argument_of_string hnext]
        exact ⟨_, rfl⟩
    rw [if_neg hhangup, (Bool.not_eq_true _).mp hhangup, Bool.false_or]
    by_cases hexec : strcasecmp word "EXEC".toList = true
    · -- this is none of the names that need a word behind them
      rw [if_pos hexec, ih, strcasecmp_unique hexec (by decide), strcasecmp_unique hexec (by decide),
        strcasecmp_unique hexec (by decide)]
      simp
    rw [if_neg hexec, Bool.and_eq_true, ← lookAhead_isOk_iff hrest word, ← ih]
    cases hlook : lookAhead memory word rest.head? with
    | ok _ => exact ⟨fun hresult => ⟨rfl, hresult⟩, fun hresult => hresult.2⟩
    | error fault =>
      constructor
      · rintro ⟨result, hresult⟩
        cases hresult
      · rintro ⟨hok, -⟩
        cases hok

/-! ## A command -/

/-- A buffer on which a command faults nowhere: it is terminated, the array has room for its words
and for NULL, and no name is looked at with a word behind the last one. -/
def Harmless (memory : Memory) : Prop :=
  nul ∈ memory ∧ (words (stringOf memory)).length < argvSize ∧
    looksBack (words (stringOf memory)) = true

instance (memory : Memory) : Decidable (Harmless memory) := instDecidableAnd

lemma length_findAndExecCommand {memory' : Memory} {answer : Option Text}
    (h : findAndExecCommand channel memory = .ok (memory', answer)) :
    memory'.length = memory.length := by
  unfold findAndExecCommand at h
  by_cases hnul : nul ∈ memory
  · have hcases := parseFgiArgs_cases hnul
    split at hcases
    · obtain ⟨memory₁, argv, hparse, hlength, -⟩ := hcases
      rw [hparse] at h
      simp only [bind, Except.bind] at h
      cases hexec : execArgs channel memory₁ argv with
      | ok result =>
        rw [hexec] at h
        cases h
        exact hlength
      | error fault =>
        rw [hexec] at h
        cases h
    · rw [hcases] at h
      cases h
  · obtain ⟨fault, hparse⟩ := parseFgiArgs_of_not_mem hnul
    rw [hparse] at h
    cases h

variable (channel) in
/-- **A command faults nowhere** exactly if the buffer is harmless. -/
theorem findAndExecCommand_isOk_iff (memory : Memory) :
    (∃ result, findAndExecCommand channel memory = .ok result) ↔ Harmless memory := by
  unfold findAndExecCommand
  by_cases hnul : nul ∈ memory
  · have hcases := parseFgiArgs_cases hnul
    split at hcases
    · next hfew =>
      obtain ⟨memory', argv, hparse, -, hspells⟩ := hcases
      have hiff : (∃ result, execArgs channel memory' argv = .ok result) ↔ Harmless memory :=
        (execArgs_isOk_iff channel hspells).trans
          ⟨fun hlooks => ⟨hnul, hfew, hlooks⟩, fun hharmless => hharmless.2.2⟩
      rw [hparse, ← hiff]
      simp only [bind, Except.bind]
      cases execArgs channel memory' argv with
      | ok result => exact iff_of_true ⟨_, rfl⟩ ⟨_, rfl⟩
      | error fault => simp
    · next hmany =>
      rw [hcases]
      refine iff_of_false ?_ fun hharmless => hmany hharmless.2.1
      rintro ⟨result, hresult⟩
      cases hresult
  · obtain ⟨fault, hparse⟩ := parseFgiArgs_of_not_mem hnul
    rw [hparse]
    refine iff_of_false ?_ fun hharmless => hnul hharmless.1
    rintro ⟨result, hresult⟩
    cases hresult

/-- `STREAM` and nothing behind it. -/
example : ¬ Harmless ("STREAM".toList ++ [nul]) := by decide

/-! ## Runs -/

/-- The buffers on which commands are executed, up to one that faults. -/
def executed (channel : Channel) (asked : List ℕ) (out : ℕ) : Memory → List Turn → List Memory
  | _, [] => []
  | cmdbuf, turn :: turns =>
    match turn.ready with
    | none => []
    | some ready =>
      if out ∈ select asked ready then
        match turn.piece with
        | none => []
        | some piece =>
          let cmdbuf := piece.bytes ++ cmdbuf.drop piece.bytes.length
          cmdbuf :: match findAndExecCommand channel cmdbuf with
            | .ok (cmdbuf, _) => executed channel asked out cmdbuf turns
            | .error _ => []
      else executed channel asked out cmdbuf turns

variable (channel) in
/-- **The loop faults nowhere** exactly if all buffers on which commands are executed are
harmless. -/
theorem serve_isOk_iff (asked : List ℕ) (out : ℕ) (cmdbuf : Cmdbuf) (turns : List Turn) :
    (∃ replies, serve channel asked out cmdbuf.memory turns = .ok replies) ↔
      ∀ memory ∈ executed channel asked out cmdbuf.memory turns, Harmless memory := by
  induction turns generalizing cmdbuf with
  | nil => exact iff_of_true ⟨[], rfl⟩ fun _ h => absurd h List.not_mem_nil
  | cons turn turns ih =>
    rw [serve, executed]
    cases turn.ready with
    | none => exact iff_of_true ⟨[], rfl⟩ fun _ h => absurd h List.not_mem_nil
    | some ready =>
      dsimp only
      by_cases hready : out ∈ select asked ready
      · rw [if_pos hready, if_pos hready]
        cases turn.piece with
        | none => exact iff_of_true ⟨[], rfl⟩ fun _ h => absurd h List.not_mem_nil
        | some piece =>
          have hsize : piece.bytes.length ≤ cmdbuf.memory.length := by
            have hshort := piece.short
            rw [cmdbuf.size]
            omega
          have hreceive : receive cmdbuf.memory piece =
              .ok (piece.bytes ++ cmdbuf.memory.drop piece.bytes.length) := if_pos hsize
          have hlength : (piece.bytes ++ cmdbuf.memory.drop piece.bytes.length).length =
              128 * 128 := by
            rw [List.length_append, List.length_drop, ← cmdbuf.size]
            omega
          have hiff := findAndExecCommand_isOk_iff channel
            (piece.bytes ++ cmdbuf.memory.drop piece.bytes.length)
          dsimp only
          rw [hreceive]
          simp only [bind, Except.bind, List.forall_mem_cons]
          rw [← hiff]
          cases hcommand : findAndExecCommand channel
              (piece.bytes ++ cmdbuf.memory.drop piece.bytes.length) with
          | error fault => simp
          | ok result =>
            obtain ⟨memory, answer⟩ := result
            have hnext := ih ⟨memory, (length_findAndExecCommand hcommand).trans hlength⟩
            dsimp only at hnext ⊢
            rw [← hnext]
            cases serve channel asked out memory turns with
            | error fault => simp
            | ok replies => exact iff_of_true ⟨_, rfl⟩ ⟨⟨_, rfl⟩, _, rfl⟩
      · rw [if_neg hready, if_neg hready]
        exact ih cmdbuf

end FreeswitchContrib.ModFgi
