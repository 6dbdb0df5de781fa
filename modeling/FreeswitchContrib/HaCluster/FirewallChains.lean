import FreeswitchContrib.HaCluster.FirewallRules
import FreeswitchContrib.Library.CString
import Mathlib.Algebra.GroupWithZero.Nat

/-!
# The chains of an earlier run

`initialize_firewall` scans the listing of the chains for those that begin with `ha-`, and builds
one command that flushes all of them and deletes all but `ha-cluster-rules`.

* `scanLoop` — the scan, which puts an end behind each name that it finds.
* `cleanCommand` — the command, in a buffer of the size that was counted during the scan;
  `cleanCommand_eq` says what it is for any number of chains.
* **`initializeFirewall_cleans_iff`** — the scan never gets past the end of the first name.  It
  finds the chains of a listing only if there is none or if the one there is, is named just before
  the end of the listing.
-/

namespace FreeswitchContrib.HaCluster

open CString

/-! ## The listing -/

/-- A line of the listing. -/
structure ChainLine where
  name : Text
  info : Text
  name_plain : ' ' ∉ name ∧ '\n' ∉ name ∧ nul ∉ name
  info_plain : '\n' ∉ info ∧ nul ∉ info

def ChainLine.text (line : ChainLine) : Text :=
  "Chain ".toList ++ line.name ++ " (".toList ++ line.info ++ ")\n".toList

def listing (lines : List ChainLine) : Text := lines.flatMap ChainLine.text

/-- `HAC_BUFFSIZE` -/
def hacBuffsize : ℕ := 65536

/-- `execute_command` for the listing, of which it returns what its buffer holds; the search for
lines fails if there are none. -/
def listChains (output : Text) : Option Text :=
  if output = [] then none else some (output.take hacBuffsize)

/-! ## The scan -/

def strstr (memory : Text) (p : ℕ) (word : Text) : Option (Option ℕ) :=
  (string memory p).map fun s => (Search.indexOf word s).map (p + ·)

/-- `strstr` finds the first letter of the word. -/
lemma strstr_some {memory word : Text} {p i : ℕ} {c : Char} (hword : word.head? = some c)
    (h : strstr memory p word = some (some i)) : p ≤ i ∧ memory[i]? = some c := by
  obtain ⟨s, hs, hi⟩ := Option.map_eq_some_iff.1 h
  obtain ⟨k, hk, rfl⟩ := Option.map_eq_some_iff.1 hi
  obtain ⟨last, -, rfl⟩ := Option.map_eq_some_iff.1 hs
  obtain ⟨-, ⟨rest, hrest⟩, -⟩ := Search.indexOf_eq_some hk
  refine ⟨Nat.le_add_right p k, ?_⟩
  have hhead : (((memory.drop p).take (last - p)).drop k)[0]? = some c := by
    rw [← hrest, ← List.head?_eq_getElem?, List.head?_append, hword]
    rfl
  rw [List.getElem?_drop, Nat.add_zero] at hhead
  obtain ⟨hlt, hget⟩ := List.getElem?_eq_some_iff.1 hhead
  rw [List.getElem_take, List.getElem_drop] at hget
  rw [← hget]
  exact List.getElem?_eq_getElem _

/-- What the scan ends with: there are no chains to clean, or it goes on with those it found. -/
inductive Scanned where
  | clean
  | found (chains : List Text) (bufsize : ℕ)

/-- The loop of the scan, as long as neither position is NULL. -/
def scanLoop (cmdResultLen : ℕ) (memory : Text) (chains : List Text)
    (bufsize chainStart chainEnd : ℕ) : Option Scanned :=
  if chainStart < cmdResultLen ∧ chainEnd < cmdResultLen then
    match _hstart : strstr memory chainEnd "ha-".toList with
    | none => none
    | some none =>
      -- the first turn goes to `clean`, and any other one looks for a blank at NULL
      if chainEnd = 0 then some .clean else none
    | some (some start) =>
      match _hstop : strchr memory start ' ' with
      | none => none
      | some none => some (.found chains bufsize)
      | some (some stop) =>
        if stop < cmdResultLen ∧ start < cmdResultLen then
          match string (memory.set stop nul) start with
          | none => none
          | some name =>
            scanLoop cmdResultLen (memory.set stop nul) (chains ++ [name])
              (bufsize + (35 + 2 * name.length)) (stop + 15) stop
        else scanLoop cmdResultLen memory chains bufsize start stop
  else some (.found chains bufsize)
termination_by cmdResultLen - chainEnd
decreasing_by
  all_goals
    obtain ⟨hstart, hfirst⟩ := strstr_some rfl _hstart
    have hstop := strchr_some _hstop stop rfl
    have hblank := getElem?_of_strchr _hstop
    have hne : start ≠ stop := by
      rintro rfl
      rw [hblank] at hfirst
      cases hfirst
    omega

/-! ## The command -/

def flushCommand (name : Text) : Text := "iptables -F ".toList ++ name

def deleteCommand (name : Text) : Text := "iptables -X ".toList ++ name

/-- An array of 64 characters into which the text has been printed. -/
def printed (text : Text) : Text :=
  snprintf 64 text ++ List.replicate (64 - (snprintf 64 text).length) nul

def chainFlush (name : Text) : Text := printed (flushCommand name)

def chainDelete (name : Text) : Text := printed (deleteCommand name)

/-- `memcpy(memory + p, source, size)` -/
def memcpy (memory : Text) (p : ℕ) (source : Text) (size : ℕ) : Option Text :=
  if size ≤ source.length ∧ p + size ≤ memory.length then
    some (memory.take p ++ (source.take size ++ memory.drop (p + size)))
  else none

/-- One of the loops that write the commands: from which arrays, and which chains it skips. -/
def writeCommands (skips : Text → Bool) (array : Text → Text) :
    List Text → Text → ℕ → Option (Text × ℕ)
  | [], cmd, chainStart => some (cmd, chainStart)
  | name :: next, cmd, chainStart =>
    if skips name then writeCommands skips array next cmd chainStart
    else do
      let cmd ← memcpy cmd chainStart (array name) (12 + name.length)
      if next = [] then return (cmd, chainStart + (12 + name.length))
      let cmd ← memcpy cmd (chainStart + (12 + name.length)) " && ".toList 4
      writeCommands skips array next cmd (chainStart + (12 + name.length) + 4)

/-- The chain that is not deleted. -/
def isRules (name : Text) : Bool := strcasestr name "ha-cluster-rules"

def writeFlushes : List Text → Text → ℕ → Option (Text × ℕ) :=
  writeCommands (fun _ => false) chainFlush

def writeDeletes : List Text → Text → ℕ → Option (Text × ℕ) := writeCommands isRules chainDelete

/-- The string in the buffer when it is executed. -/
def cleanCommand (chains : List Text) (bufsize : ℕ) : Option Text :=
  -- the assertion
  if bufsize = 0 then none
  else do
    let (cmd, chainStart) ← writeFlushes chains (List.replicate bufsize ' ' ++ [nul]) 0
    let cmd ← memcpy cmd chainStart " && ".toList 4
    let (cmd, chainStart) ← writeDeletes chains cmd (chainStart + 4)
    let addedDeleteRule := chains.any (!isRules ·)
    string (if addedDeleteRule then cmd else cmd.set (chainStart - 4) nul) 0

/-! ## The clean-up -/

/-- What the clean-up did: the chains that it found, the command that it executed for them, and
whether it went on to create `ha-cluster-rules`. -/
structure Cleanup where
  chains : List Text
  cleaning : Option Text
  creates : Bool

/-- `initialize_firewall`; `none` stands for a crash.  `succeeds` says which commands succeed. -/
def initializeFirewall (succeeds : Text → Bool) (output : Text) : Option Cleanup :=
  match listChains output with
  | none => some ⟨[], none, false⟩
  | some cmdResult => do
    let cmdResultLen := (← string (cmdResult ++ [nul]) 0).length
    match ← scanLoop cmdResultLen (cmdResult ++ [nul]) [] 0 0 0 with
    | .clean => return ⟨[], none, true⟩
    | .found chains bufsize =>
      let cmd ← cleanCommand chains bufsize
      return ⟨chains, some cmd, succeeds cmd && !chains.any isRules⟩

/-! ## The statement -/

/-- The chains that are to be cleaned. -/
def haNames (lines : List ChainLine) : List Text :=
  (lines.map ChainLine.name).filter ("ha-".toList <+: ·)

/-- The command for them. -/
def cleanText (names : List Text) : Text :=
  " && ".toList.intercalate
    (names.map flushCommand ++ (names.filter (· ≠ "ha-cluster-rules".toList)).map deleteCommand)

/-- The clean-up finds every chain; blanks may follow the command. -/
structure Cleanup.FindsAll (run : Cleanup) (lines : List ChainLine) : Prop where
  chains : run.chains = haNames lines
  cleaning : if haNames lines = [] then run.cleaning = none
    else ∃ blanks, run.cleaning = some (cleanText (haNames lines) ++ List.replicate blanks ' ')

/-- What is read of the listing. -/
def scanned (lines : List ChainLine) : Text := (listing lines).take hacBuffsize

/-- The chain is the only one, and what is read ends close behind the first place of a name. -/
structure LastChain (lines : List ChainLine) (name : Text) : Prop where
  only : haNames lines = [name]
  last : ∃ pre post, scanned lines = pre ++ (name ++ ' ' :: post) ∧
    Search.indexOf "ha-".toList (scanned lines) = some pre.length ∧ post.length ≤ 14
  short : name.length ≤ 51
  rules : isRules name → name = "ha-cluster-rules".toList

/-! ## A turn of the scan -/

section Turn

variable {len bufsize chainStart chainEnd start stop : ℕ} {memory name : Text} {chains : List Text}

/-- No name is behind the end of the last one: then the blank is looked for at NULL. -/
lemma scanLoop_lost (hlt : chainStart < len ∧ chainEnd < len)
    (hstart : strstr memory chainEnd "ha-".toList = some none) :
    scanLoop len memory chains bufsize chainStart chainEnd =
      if chainEnd = 0 then some .clean else none := by
  rw [scanLoop, if_pos hlt]
  split
  next h => cases hstart.symm.trans h
  next => rfl
  next h => cases hstart.symm.trans h

/-- No blank is behind the name. -/
lemma scanLoop_open (hlt : chainStart < len ∧ chainEnd < len)
    (hstart : strstr memory chainEnd "ha-".toList = some (some start))
    (hstop : strchr memory start ' ' = some none) :
    scanLoop len memory chains bufsize chainStart chainEnd = some (.found chains bufsize) := by
  rw [scanLoop, if_pos hlt]
  split
  next h => cases hstart.symm.trans h
  next h => cases hstart.symm.trans h
  next i h =>
    obtain rfl : start = i := Option.some.inj (Option.some.inj (hstart.symm.trans h))
    split
    next h => cases hstop.symm.trans h
    next => rfl
    next h => cases hstop.symm.trans h

/-- A name is found. -/
lemma scanLoop_turn (hlt : chainStart < len ∧ chainEnd < len)
    (hstart : strstr memory chainEnd "ha-".toList = some (some start))
    (hstop : strchr memory start ' ' = some (some stop)) (hinside : stop < len ∧ start < len)
    (hname : string (memory.set stop nul) start = some name) :
    scanLoop len memory chains bufsize chainStart chainEnd =
      scanLoop len (memory.set stop nul) (chains ++ [name]) (bufsize + (35 + 2 * name.length))
        (stop + 15) stop := by
  rw [scanLoop, if_pos hlt]
  split
  next h => cases hstart.symm.trans h
  next h => cases hstart.symm.trans h
  next i h =>
    obtain rfl : start = i := Option.some.inj (Option.some.inj (hstart.symm.trans h))
    split
    next h => cases hstop.symm.trans h
    next h => cases hstop.symm.trans h
    next k h =>
      obtain rfl : stop = k := Option.some.inj (Option.some.inj (hstop.symm.trans h))
      rw [if_pos hinside, hname]

end Turn

/-! ## What the scan finds -/

variable {text pre name post : Text}

lemma strstr_append (before rest word : Text) {s : Text} (hs : nul ∉ s) :
    strstr (before ++ (s ++ nul :: rest)) before.length word =
      some ((Search.indexOf word s).map (before.length + ·)) := by
  rw [strstr, string_append before rest hs, Option.map_some]

lemma strstr_zero (hnul : nul ∉ text) (word : Text) :
    strstr (text ++ [nul]) 0 word = some (Search.indexOf word text) := by
  have hstart := strstr_append [] [] word hnul
  simp only [List.nil_append, List.length_nil, Nat.zero_add] at hstart
  rw [hstart, Option.map_id']

/-- The clean-up is left out for a listing in which there is no such name. -/
lemma scanLoop_of_none (hnul : nul ∉ text) (hne : text ≠ [])
    (hnone : Search.indexOf "ha-".toList text = none) :
    scanLoop text.length (text ++ [nul]) [] 0 0 0 = some .clean := by
  have hpos := List.length_pos_of_ne_nil hne
  rw [scanLoop_lost ⟨hpos, hpos⟩ (by rw [strstr_zero hnul, hnone]), if_pos rfl]

/-- A name that no blank ends is not found. -/
lemma scanLoop_of_open (hnul : nul ∉ pre ++ name) (hblank : ' ' ∉ name)
    (hfirst : Search.indexOf "ha-".toList (pre ++ name) = some pre.length) (hne : name ≠ []) :
    scanLoop (pre ++ name).length (pre ++ name ++ [nul]) [] 0 0 0 = some (.found [] 0) := by
  have hpos : 0 < (pre ++ name).length := List.length_pos_of_ne_nil (by simp [hne])
  refine scanLoop_open ⟨hpos, hpos⟩ (by rw [strstr_zero hnul, hfirst]) ?_
  rw [List.append_assoc]
  exact strchr_append_none pre [] (fun h => hnul (List.mem_append_right pre h)) hblank (by decide)

/-- **The scan finds the first name, and goes on to crash** unless the listing ends close behind. -/
theorem scanLoop_of_name (htext : text = pre ++ (name ++ ' ' :: post)) (hnul : nul ∉ text)
    (hfirst : Search.indexOf "ha-".toList text = some pre.length) (hblank : ' ' ∉ name)
    (hne : name ≠ []) :
    scanLoop text.length (text ++ [nul]) [] 0 0 0 =
      if post.length ≤ 14 then some (.found [name] (35 + 2 * name.length)) else none := by
  have hlength : text.length = pre.length + name.length + (post.length + 1) := by
    simp only [htext, List.length_append, List.length_cons]
    omega
  have hnamepos := List.length_pos_of_ne_nil hne
  have hname : nul ∉ name := by
    rw [htext] at hnul
    exact fun h => hnul (List.mem_append_right pre (List.mem_append_left _ h))
  have hmemory : text ++ [nul] = pre ++ (name ++ ' ' :: (post ++ [nul])) := by
    simp [htext]
  have hended : (text ++ [nul]).set (pre.length + name.length) nul =
      pre ++ (name ++ nul :: (post ++ [nul])) := by
    rw [hmemory, List.set_append_right _ _ (Nat.le_add_right _ _), Nat.add_sub_cancel_left,
      List.set_append_right _ _ (Nat.le_refl _), Nat.sub_self, List.set_cons_zero]
  have hstop : strchr (text ++ [nul]) pre.length ' ' = some (some (pre.length + name.length)) := by
    rw [hmemory]
    exact strchr_append pre _ hname hblank
  have hstring : string ((text ++ [nul]).set (pre.length + name.length) nul) pre.length =
      some name := by
    rw [hended]
    exact string_append pre _ hname
  rw [scanLoop_turn (by omega) (by rw [strstr_zero hnul, hfirst]) hstop (by omega) hstring]
  split_ifs with hend
  · rw [scanLoop, if_neg (by omega)]
    simp
  · -- the second turn looks for a name in the empty string at the end of the first one
    have hlost : strstr ((text ++ [nul]).set (pre.length + name.length) nul)
        (pre.length + name.length) "ha-".toList = some none := by
      have hempty := strstr_append (pre ++ name) (post ++ [nul]) "ha-".toList
        (s := []) (List.not_mem_nil)
      rw [List.length_append, List.nil_append, List.append_assoc] at hempty
      rw [hended, hempty, Search.indexOf_nil (by decide)]
      rfl
    rw [scanLoop_lost (by omega) hlost, if_neg (by omega)]

/-! ## What is written -/

/-- A buffer that is written up to here, with so many blanks behind. -/
def blankBuffer (before : Text) (n : ℕ) : Text := before ++ (List.replicate n ' ' ++ [nul])

lemma memcpy_blankBuffer (before source : Text) {size n : ℕ} (hsource : size ≤ source.length)
    (hroom : size ≤ n) :
    memcpy (blankBuffer before n) before.length source size =
      some (blankBuffer (before ++ source.take size) (n - size)) := by
  have hlength : (blankBuffer before n).length = before.length + (n + 1) := by
    simp [blankBuffer]
  have hblanks : (List.replicate n ' ' ++ [nul]).drop size =
      List.replicate (n - size) ' ' ++ [nul] := by
    rw [List.drop_append_of_le_length (by simpa using hroom), List.drop_replicate]
  rw [memcpy, if_pos ⟨hsource, by omega⟩, ← List.drop_drop]
  simp only [blankBuffer]
  rw [List.take_left, List.drop_left, hblanks, List.append_assoc]

variable {skips : Text → Bool} {array : Text → Text} {names : List Text} {before : Text} {n : ℕ}

/-- What is copied of an array. -/
def piece (array : Text → Text) (name : Text) : Text := (array name).take (12 + name.length)

/-- What a loop writes. -/
def written (skips : Text → Bool) (array : Text → Text) : List Text → Text
  | [] => []
  | name :: next =>
    if skips name then written skips array next
    else piece array name ++ ((if next = [] then [] else " && ".toList) ++ written skips array next)

/-- The room that the commands of a loop need, and that of one more `&&`. -/
def room (names : List Text) : ℕ := (names.map fun name => 16 + name.length).sum

lemma room_cons (name : Text) (names : List Text) :
    room (name :: names) = 16 + name.length + room names := List.sum_cons

lemma room_pos (h : names ≠ []) : 16 ≤ room names := by
  obtain ⟨name, next, rfl⟩ := List.exists_cons_of_ne_nil h
  rw [room_cons]
  omega

variable (skips before) in
/-- **A loop stays in the buffer**, and does not leave it without a word. -/
theorem writeCommands_eq (harray : ∀ name ∈ names, 12 + name.length ≤ (array name).length)
    (hroom : room names ≤ n + 4) :
    writeCommands skips array names (blankBuffer before n) before.length =
      some (blankBuffer (before ++ written skips array names)
          (n - (written skips array names).length),
        before.length + (written skips array names).length) := by
  induction names generalizing before n with
  | nil => simp [writeCommands, written]
  | cons name next ih =>
    have hnext : ∀ name ∈ next, 12 + name.length ≤ (array name).length :=
      fun name hmem => harray name (List.mem_cons_of_mem _ hmem)
    have hcopied := harray name List.mem_cons_self
    rw [room_cons] at hroom
    rw [writeCommands, written]
    cases skips name with
    | true => exact ih before hnext (by omega)
    | false =>
      have hpiece : (piece array name).length = 12 + name.length :=
        List.length_take_of_le hcopied
      have hplace : before.length + (12 + name.length) = (before ++ piece array name).length := by
        rw [List.length_append, hpiece]
      have hfirst := memcpy_blankBuffer before _ hcopied (n := n) (by omega)
      rw [← piece] at hfirst
      simp only [Bool.false_eq_true, if_false, hfirst, Option.bind_eq_bind, Option.bind_some]
      by_cases hlast : next = []
      · subst hlast
        simp only [if_true, written, List.append_nil, hpiece]
        rfl
      · have hpos := room_pos hlast
        have hsecond : memcpy (blankBuffer (before ++ piece array name) (n - (12 + name.length)))
            (before ++ piece array name).length " && ".toList 4 =
            some (blankBuffer (before ++ piece array name ++ " && ".toList)
              (n - (12 + name.length) - 4)) :=
          memcpy_blankBuffer _ _ (by decide) (by omega)
        have hseparated : (before ++ piece array name).length + 4 =
            (before ++ piece array name ++ " && ".toList).length :=
          (List.length_append.trans (congrArg _ (rfl : " && ".toList.length = 4))).symm
        simp only [if_neg hlast]
        rw [hplace, hsecond, Option.bind_some, hseparated, ih _ hnext (by omega)]
        simp only [List.append_assoc, List.length_append, hpiece, Nat.sub_sub, Nat.add_assoc]
        rfl

variable (skips) in
lemma written_le (harray : ∀ name ∈ names, 12 + name.length ≤ (array name).length)
    (hne : names ≠ []) : (written skips array names).length + 4 ≤ room names := by
  induction names with
  | nil => exact absurd rfl hne
  | cons name next ih =>
    have hpiece : (piece array name).length = 12 + name.length :=
      List.length_take_of_le (harray name List.mem_cons_self)
    have hand : " && ".toList.length = 4 := rfl
    have hrest (h : next ≠ []) : (written skips array next).length + 4 ≤ room next :=
      ih (fun name hmem => harray name (List.mem_cons_of_mem _ hmem)) h
    rw [written, room_cons]
    by_cases hlast : next = []
    · have hnone : (written skips array next).length = 0 := by rw [hlast]; rfl
      rw [if_pos hlast]
      split_ifs
      · omega
      · rw [List.length_append, List.nil_append, hpiece]
        omega
    · have hnext := hrest hlast
      rw [if_neg hlast]
      split_ifs
      · omega
      · rw [List.length_append, List.length_append, hpiece, hand]
        omega

lemma written_of_skips (h : ∀ name ∈ names, skips name = true) :
    written skips array names = [] := by
  induction names with
  | nil => rfl
  | cons name next ih =>
    rw [written, if_pos (h name List.mem_cons_self)]
    exact ih fun name hmem => h name (List.mem_cons_of_mem _ hmem)

/-- The commands are joined well, if the last chain is not skipped. -/
lemma written_eq_intercalate (hlast : ∀ name ∈ names.getLast?, skips name = false) :
    written skips array names =
      " && ".toList.intercalate ((names.filter (!skips ·)).map (piece array)) := by
  induction names with
  | nil => rfl
  | cons name next ih =>
    rcases next with - | ⟨name', next⟩
    · have hkept : skips name = false := hlast name rfl
      simp [written, hkept]
    · have hkeeps := hlast _ (List.getLast?_eq_some_getLast (List.cons_ne_nil name' next))
      have hne : (name' :: next).filter (!skips ·) ≠ [] :=
        List.ne_nil_of_mem (List.mem_filter.2
          ⟨List.getLast_mem (List.cons_ne_nil name' next), congrArg (! ·) hkeeps⟩)
      rw [written, ih hlast]
      generalize name' :: next = next at hne ⊢
      cases hskip : skips name with
      | true =>
        rw [if_pos rfl, List.filter_cons_of_neg (by simp [hskip])]
      | false =>
        rw [if_neg (by simp), List.filter_cons_of_pos (by simp [hskip]), List.map_cons,
          List.intercalate_cons_of_ne_nil (by simpa using hne), if_neg]
        · exact List.append_assoc .. |>.symm
        · rintro rfl
          exact hne rfl

/-! ## The command is what it is to be -/

/-- `bufsize` as the scan counts it. -/
def bufsizeOf (chains : List Text) : ℕ := (chains.map fun name => 35 + 2 * name.length).sum

lemma room_le_bufsizeOf (chains : List Text) : 2 * room chains ≤ bufsizeOf chains := by
  induction chains with
  | nil => rfl
  | cons name chains ih =>
    rw [room_cons, bufsizeOf, List.map_cons, List.sum_cons, ← bufsizeOf]
    omega

lemma length_printed (text : Text) : (printed text).length = 64 := by
  have hle : (snprintf 64 text).length ≤ 63 := List.length_take_le 63 text
  rw [printed, List.length_append, List.length_replicate]
  omega

/-- A text that fits is printed, and the array can be copied from. -/
lemma take_printed (h : text.length ≤ 63) : (printed text).take text.length = text := by
  have hfits : snprintf 64 text = text := List.take_of_length_le h
  rw [printed, hfits, List.take_left]

lemma length_flushCommand (name : Text) : (flushCommand name).length = 12 + name.length :=
  List.length_append

lemma length_deleteCommand (name : Text) : (deleteCommand name).length = 12 + name.length :=
  List.length_append

lemma piece_chainFlush (h : name.length ≤ 51) : piece chainFlush name = flushCommand name := by
  rw [piece, ← length_flushCommand]
  exact take_printed (by rw [length_flushCommand]; omega)

lemma piece_chainDelete (h : name.length ≤ 51) : piece chainDelete name = deleteCommand name := by
  rw [piece, ← length_deleteCommand]
  exact take_printed (by rw [length_deleteCommand]; omega)

variable {chains : List Text}

/-- **The buffer is large enough for any number of chains.**  It holds what the loops write, with
blanks behind. -/
theorem cleanCommand_written (hne : chains ≠ []) (hshort : ∀ name ∈ chains, name.length ≤ 52) :
    ∃ n, cleanCommand chains (bufsizeOf chains) =
      string (if chains.any (!isRules ·) then
          blankBuffer (written (fun _ => false) chainFlush chains ++
            (" && ".toList ++ written isRules chainDelete chains)) n
        else
          written (fun _ => false) chainFlush chains ++ nul :: blankBuffer "&& ".toList n) 0 := by
  have hflush : ∀ name ∈ chains, 12 + name.length ≤ (chainFlush name).length := by
    intro name hmem
    have hle := hshort name hmem
    rw [chainFlush, length_printed]
    omega
  have hdelete : ∀ name ∈ chains, 12 + name.length ≤ (chainDelete name).length := by
    intro name hmem
    have hle := hshort name hmem
    rw [chainDelete, length_printed]
    omega
  have hroom := room_le_bufsizeOf chains
  have hpos := room_pos hne
  have hwritten := written_le (fun _ => false) hflush hne
  generalize hW : written (fun _ => false) chainFlush chains = flushes at hwritten ⊢
  generalize hD : written isRules chainDelete chains = deletes
  generalize hb : bufsizeOf chains = b at hroom ⊢
  have hfirst : writeFlushes chains (List.replicate b ' ' ++ [nul]) 0 =
      some (blankBuffer flushes (b - flushes.length), flushes.length) := by
    have hloop := writeCommands_eq (fun _ => false) [] hflush
      (show room chains ≤ b + 4 by omega)
    rwa [hW, List.nil_append, List.length_nil, Nat.zero_add] at hloop
  have hand : memcpy (blankBuffer flushes (b - flushes.length)) flushes.length " && ".toList 4 =
      some (blankBuffer (flushes ++ " && ".toList) (b - flushes.length - 4)) :=
    memcpy_blankBuffer _ _ (by decide) (by omega)
  have hsecond : writeDeletes chains
      (blankBuffer (flushes ++ " && ".toList) (b - flushes.length - 4)) (flushes.length + 4) =
      some (blankBuffer (flushes ++ (" && ".toList ++ deletes))
          (b - flushes.length - 4 - deletes.length), flushes.length + 4 + deletes.length) := by
    have hloop := writeCommands_eq isRules (flushes ++ " && ".toList) hdelete
      (show room chains ≤ b - flushes.length - 4 + 4 by omega)
    rwa [hD, List.append_assoc, List.length_append] at hloop
  refine ⟨b - flushes.length - 4 - deletes.length, ?_⟩
  rw [cleanCommand, if_neg (by omega), hfirst]
  simp only [Option.bind_eq_bind, Option.bind_some, hand, hsecond]
  split_ifs with hany
  · rfl
  · -- what ends the command is written over the first blank of the `&&` behind it
    have hnone : deletes = [] := by
      rw [← hD]
      exact written_of_skips fun name hmem => by
        simpa using fun h => hany (List.any_eq_true.2 ⟨name, hmem, h⟩)
    subst hnone
    rw [blankBuffer, List.append_assoc, List.length_nil, Nat.add_zero, Nat.add_sub_cancel,
      List.set_append_right _ _ (Nat.le_refl _), Nat.sub_self]
    rfl

lemma intercalate_append_of_ne_nil (sep : Text) {xs ys : List Text} (hxs : xs ≠ [])
    (hys : ys ≠ []) :
    sep.intercalate (xs ++ ys) = sep.intercalate xs ++ (sep ++ sep.intercalate ys) := by
  induction xs with
  | nil => exact absurd rfl hxs
  | cons x xs ih =>
    rcases xs with - | ⟨x', xs⟩
    · rw [List.singleton_append, List.intercalate_cons_of_ne_nil hys, List.intercalate_singleton,
        List.append_assoc]
    · rw [List.cons_append, List.intercalate_cons_of_ne_nil (by simp), ih (List.cons_ne_nil x' xs),
        List.intercalate_cons_of_ne_nil (List.cons_ne_nil x' xs)]
      simp only [List.append_assoc]

lemma not_mem_intercalate {c : Char} {sep : Text} {xs : List Text} (hsep : c ∉ sep)
    (hxs : ∀ x ∈ xs, c ∉ x) : c ∉ sep.intercalate xs := by
  induction xs with
  | nil => simp
  | cons x xs ih =>
    have hrest := ih fun x hmem => hxs x (List.mem_cons_of_mem _ hmem)
    have hx := hxs x List.mem_cons_self
    by_cases hnil : xs = []
    · rw [hnil, List.intercalate_singleton]
      exact hx
    · rw [List.intercalate_cons_of_ne_nil hnil]
      simp [hx, hsep, hrest]

lemma nul_notMem_commands {word : Text} (hword : nul ∉ word) (hnul : ∀ name ∈ names, nul ∉ name) :
    nul ∉ " && ".toList.intercalate (names.map (word ++ ·)) := by
  refine not_mem_intercalate (by decide) fun text htext => ?_
  obtain ⟨name, hmem, rfl⟩ := List.mem_map.1 htext
  exact fun h => (List.mem_append.1 h).elim hword (hnul name hmem)

/-- **The command for any number of chains**, of which the last one is deleted or none is. -/
theorem cleanCommand_eq (hne : chains ≠ []) (hshort : ∀ name ∈ chains, name.length ≤ 51)
    (hnul : ∀ name ∈ chains, nul ∉ name)
    (hlast : (∀ name ∈ chains, isRules name = true) ∨
      ∀ name ∈ chains.getLast?, isRules name = false) :
    ∃ blanks, cleanCommand chains (bufsizeOf chains) =
        some (" && ".toList.intercalate (chains.map flushCommand ++
          (chains.filter (!isRules ·)).map deleteCommand) ++ List.replicate blanks ' ') ∧
      ((∀ name ∈ chains, isRules name = true) → blanks = 0) := by
  obtain ⟨n, hcommand⟩ :=
    cleanCommand_written hne fun name hmem => (hshort name hmem).trans (by decide)
  have hflush : written (fun _ => false) chainFlush chains =
      " && ".toList.intercalate (chains.map flushCommand) := by
    have hmap : chains.map (piece chainFlush) = chains.map flushCommand :=
      List.map_congr_left fun name hmem => piece_chainFlush (hshort name hmem)
    have hkept : chains.filter (!(fun _ => false) ·) = chains :=
      List.filter_eq_self.2 fun _ _ => rfl
    rw [written_eq_intercalate fun _ _ => rfl, hkept, hmap]
  have hflushes : nul ∉ " && ".toList.intercalate (chains.map flushCommand) :=
    nul_notMem_commands (by decide) hnul
  rw [hcommand, hflush]
  by_cases hall : ∀ name ∈ chains, isRules name = true
  · have hany : chains.any (!isRules ·) = false :=
      List.any_eq_false.2 fun name hmem => by simp [hall name hmem]
    have hkept : chains.filter (!isRules ·) = [] :=
      List.filter_eq_nil_iff.2 fun name hmem => by simp [hall name hmem]
    refine ⟨0, ?_, fun _ => rfl⟩
    rw [hany, hkept, if_neg (by decide), List.map_nil, List.append_nil, List.replicate_zero,
      List.append_nil]
    exact string_append [] _ hflushes
  · have hdelete : written isRules chainDelete chains =
        " && ".toList.intercalate ((chains.filter (!isRules ·)).map deleteCommand) := by
      have hmap : (chains.filter (!isRules ·)).map (piece chainDelete) =
          (chains.filter (!isRules ·)).map deleteCommand :=
        List.map_congr_left fun name hmem =>
          piece_chainDelete (hshort name (List.mem_filter.1 hmem).1)
      rw [written_eq_intercalate (hlast.resolve_left hall), hmap]
    have hdeletes : nul ∉ " && ".toList.intercalate
        ((chains.filter (!isRules ·)).map deleteCommand) :=
      nul_notMem_commands (by decide) fun name hmem => hnul name (List.mem_filter.1 hmem).1
    obtain ⟨name, hmem, hkeeps⟩ : ∃ name ∈ chains, ¬ isRules name = true := by
      simpa only [not_forall, exists_prop] using hall
    have hany : chains.any (!isRules ·) = true :=
      List.any_eq_true.2 ⟨name, hmem, by simpa using hkeeps⟩
    have hkept : (chains.filter (!isRules ·)).map deleteCommand ≠ [] :=
      List.ne_nil_of_mem (List.mem_map_of_mem
        (List.mem_filter.2 ⟨hmem, by simpa using hkeeps⟩))
    refine ⟨n, ?_, fun h => absurd h hall⟩
    rw [hany, if_pos rfl, hdelete, intercalate_append_of_ne_nil _ (by simpa using hne) hkept,
      blankBuffer, ← List.append_assoc]
    refine string_append [] [] ?_
    simp only [List.mem_append, not_or]
    exact ⟨⟨hflushes, by decide, hdeletes⟩, by simp [nul]⟩

/-! ## The command for one chain -/

/-- A command that is longer than its array is cut off, or copied from behind the array. -/
lemma length_le_of_cleanCommand (hnul : nul ∉ name) {cmd : Text}
    (hcmd : cleanCommand [name] (35 + 2 * name.length) = some cmd) (hlength : 64 ≤ cmd.length) :
    name.length ≤ 51 := by
  rcases Nat.lt_trichotomy name.length 52 with hshort | hcut | hlong
  · exact Nat.le_of_lt_succ hshort
  · obtain ⟨n, hcommand⟩ := cleanCommand_written (List.cons_ne_nil name [])
      fun other hmem => (List.mem_singleton.1 hmem ▸ hcut.le)
    have hflush : (flushCommand name).length = 64 := by
      rw [length_flushCommand, hcut]
    have hpiece : written (fun _ => false) chainFlush [name] =
        (flushCommand name).take 63 ++ [nul] := by
      have hprinted : (snprintf 64 (flushCommand name)).length = 63 :=
        List.length_take_of_le (by omega)
      have hall : (chainFlush name).take (12 + name.length) = chainFlush name :=
        List.take_of_length_le (by rw [chainFlush, length_printed, hcut])
      rw [written, if_neg (by decide), if_pos rfl, piece, hall, chainFlush, printed, hprinted]
      exact List.append_nil _
    have htaken : nul ∉ (flushCommand name).take 63 := fun h =>
      (List.mem_append.1 (List.mem_of_mem_take h)).elim (by decide) hnul
    have hends (rest : Text) : string (((flushCommand name).take 63 ++ [nul]) ++ rest) 0 =
        some ((flushCommand name).take 63) := by
      rw [List.append_assoc]
      exact string_append [] rest htaken
    have hread : cmd = (flushCommand name).take 63 := by
      rw [bufsizeOf, List.map_singleton, List.sum_singleton, hcmd, hpiece] at hcommand
      split_ifs at hcommand
      · rw [blankBuffer, List.append_assoc (List.take 63 (flushCommand name) ++ [nul]),
          hends] at hcommand
        exact Option.some.inj hcommand
      · rw [hends] at hcommand
        exact Option.some.inj hcommand
    rw [hread, List.length_take_of_le (by omega)] at hlength
    omega
  · have hnone : memcpy (List.replicate (35 + 2 * name.length) ' ' ++ [nul]) 0 (chainFlush name)
        (12 + name.length) = none := by
      rw [memcpy, if_neg]
      rw [chainFlush, length_printed]
      omega
    rw [cleanCommand, if_neg (by omega), writeFlushes, writeCommands, hnone] at hcmd
    cases hcmd

/-! ## The listings of which the chains are found -/

variable {lines : List ChainLine} {succeeds : Text → Bool}

lemma nul_notMem_text (line : ChainLine) : nul ∉ line.text := by
  unfold ChainLine.text
  simp only [List.mem_append, not_or]
  exact ⟨⟨⟨⟨by decide, line.name_plain.2.2⟩, by decide⟩, line.info_plain.2⟩, by decide⟩

lemma nul_notMem_scanned : nul ∉ scanned lines := by
  intro h
  obtain ⟨line, -, hline⟩ := List.mem_flatMap.1 (List.mem_of_mem_take h)
  exact nul_notMem_text line hline

lemma scanned_eq_nil_iff : scanned lines = [] ↔ listing lines = [] := by
  rw [scanned, List.take_eq_nil_iff]
  exact or_iff_right (by decide)

/-- What the clean-up does with what is read. -/
lemma initializeFirewall_eq (hne : scanned lines ≠ []) :
    initializeFirewall succeeds (listing lines) =
      (scanLoop (scanned lines).length (scanned lines ++ [nul]) [] 0 0 0).bind fun
        | .clean => some ⟨[], none, true⟩
        | .found chains bufsize => (cleanCommand chains bufsize).map fun cmd =>
            ⟨chains, some cmd, succeeds cmd && !chains.any isRules⟩ := by
  have hlisted : listChains (listing lines) = some (scanned lines) :=
    if_neg (mt scanned_eq_nil_iff.2 hne)
  have hstring : string (scanned lines ++ [nul]) 0 = some (scanned lines) :=
    string_append [] [] nul_notMem_scanned
  rw [initializeFirewall, hlisted]
  simp only [hstring, Option.bind_eq_bind, Option.bind_some]
  congr 1
  funext result
  cases result with
  | clean => rfl
  | found chains bufsize => exact Option.map_eq_bind.symm

/-- Where only `ha-cluster-rules` itself is not deleted, the command is the one that is to be. -/
lemma cleanText_eq (h : ∀ name ∈ names, isRules name → name = "ha-cluster-rules".toList) :
    cleanText names = " && ".toList.intercalate
      (names.map flushCommand ++ (names.filter (!isRules ·)).map deleteCommand) := by
  have hsame : names.filter (· ≠ "ha-cluster-rules".toList) = names.filter (!isRules ·) := by
    refine List.filter_congr fun name hmem => ?_
    cases hrules : isRules name with
    | true => exact decide_eq_false (not_not_intro (h name hmem hrules))
    | false =>
      refine decide_eq_true ?_
      rintro rfl
      exact absurd hrules (by decide)
  rw [cleanText, hsame]

/-- Each name is that of a line. -/
lemma blank_notMem_haNames (h : name ∈ haNames lines) : ' ' ∉ name ∧ name ≠ [] ∧ nul ∉ name := by
  obtain ⟨hmem, hbegins⟩ := List.mem_filter.1 h
  obtain ⟨line, -, rfl⟩ := List.mem_map.1 hmem
  refine ⟨line.name_plain.1, ?_, line.name_plain.2.2⟩
  rintro hnil
  rw [hnil] at hbegins
  exact absurd hbegins (by decide)

lemma findsAll_of_none (hnone : ¬ "ha-".toList <:+: scanned lines) (hnames : haNames lines = []) :
    ∃ run, initializeFirewall succeeds (listing lines) = some run ∧ run.FindsAll lines := by
  have hfinds (creates : Bool) : Cleanup.FindsAll ⟨[], none, creates⟩ lines :=
    ⟨hnames.symm, by rw [if_pos hnames]⟩
  by_cases hne : scanned lines = []
  · refine ⟨⟨[], none, false⟩, ?_, hfinds false⟩
    rw [scanned_eq_nil_iff.1 hne]
    rfl
  · refine ⟨⟨[], none, true⟩, ?_, hfinds true⟩
    rw [initializeFirewall_eq hne,
      scanLoop_of_none nul_notMem_scanned hne (Search.indexOf_eq_none_iff.2 hnone)]
    rfl

lemma LastChain.findsAll (h : LastChain lines name) :
    ∃ run, initializeFirewall succeeds (listing lines) = some run ∧ run.FindsAll lines := by
  obtain ⟨pre, post, htext, hfirst, hpost⟩ := h.last
  obtain ⟨hblank, hne, hnul⟩ := blank_notMem_haNames
    (h.only ▸ List.mem_singleton_self name : name ∈ haNames lines)
  have hread : scanned lines ≠ [] := by
    rw [htext]
    simp
  have hsingle : bufsizeOf [name] = 35 + 2 * name.length := List.sum_singleton
  have hlast : (∀ other ∈ [name], isRules other = true) ∨
      ∀ other ∈ [name].getLast?, isRules other = false := by
    cases hrules : isRules name with
    | true => exact .inl (by simpa using hrules)
    | false => exact .inr (by simpa using hrules)
  obtain ⟨blanks, hcommand, -⟩ := cleanCommand_eq (List.cons_ne_nil name [])
    (by simpa using h.short) (by simpa using hnul) hlast
  rw [hsingle, ← cleanText_eq (by simpa using h.rules)] at hcommand
  refine ⟨⟨[name], some (cleanText [name] ++ List.replicate blanks ' '),
    succeeds (cleanText [name] ++ List.replicate blanks ' ') && !([name].any isRules)⟩, ?_, ?_⟩
  · rw [initializeFirewall_eq hread,
      scanLoop_of_name htext nul_notMem_scanned hfirst hblank hne, if_pos hpost, Option.bind_some]
    exact congrArg (Option.map _) hcommand
  · refine ⟨h.only.symm, ?_⟩
    rw [h.only, if_neg (List.cons_ne_nil name [])]
    exact ⟨blanks, rfl⟩

lemma length_cleanText (name : Text) :
    (cleanText [name]).length =
      12 + name.length + if name = "ha-cluster-rules".toList then 0 else 16 + name.length := by
  rw [cleanText, List.map_singleton]
  split_ifs with hrules
  · have hkept : [name].filter (· ≠ "ha-cluster-rules".toList) = [] :=
      List.filter_cons_of_neg fun h => of_decide_eq_true h hrules
    rw [hkept, List.map_nil, List.append_nil, List.intercalate_singleton, length_flushCommand,
      Nat.add_zero]
  · have hkept : [name].filter (· ≠ "ha-cluster-rules".toList) = [name] :=
      List.filter_cons_of_pos (decide_eq_true hrules)
    have hand : " && ".toList.length = 4 := rfl
    rw [hkept, List.map_singleton, List.singleton_append,
      List.intercalate_cons_of_ne_nil (List.cons_ne_nil _ _), List.intercalate_singleton,
      List.length_append, List.length_append, length_flushCommand, length_deleteCommand, hand]
    omega

/-- A chain that is found is the last one. -/
lemma lastChain_of_findsAll {blanks : ℕ} (htext : scanned lines = pre ++ (name ++ ' ' :: post))
    (hfirst : Search.indexOf "ha-".toList (scanned lines) = some pre.length)
    (hpost : post.length ≤ 14) (honly : haNames lines = [name])
    (hcmd : cleanCommand [name] (35 + 2 * name.length) =
      some (cleanText [name] ++ List.replicate blanks ' ')) :
    LastChain lines name := by
  have hnul := (blank_notMem_haNames
    (honly ▸ List.mem_singleton_self name : name ∈ haNames lines)).2.2
  have hlength : (cleanText [name] ++ List.replicate blanks ' ').length =
      (cleanText [name]).length + blanks := by
    rw [List.length_append, List.length_replicate]
  rw [length_cleanText] at hlength
  have hshort : name.length ≤ 51 := by
    by_contra hlong
    exact hlong (length_le_of_cleanCommand hnul hcmd (by omega))
  refine ⟨honly, ⟨pre, post, htext, hfirst, hpost⟩, hshort, fun hrules => ?_⟩
  -- where another chain is not deleted, the command is too short
  by_contra hne
  have hall : ∀ other ∈ [name], isRules other = true := by simpa using hrules
  have hkept : [name].filter (!isRules ·) = [] := List.filter_cons_of_neg (by simp [hrules])
  obtain ⟨more, hcommand, hmore⟩ := cleanCommand_eq (List.cons_ne_nil name [])
    (by simpa using hshort) (by simpa using hnul) (.inl hall)
  rw [show bufsizeOf [name] = 35 + 2 * name.length from List.sum_singleton, hcmd, hmore hall,
    hkept, List.map_singleton, List.map_nil, List.append_nil, List.intercalate_singleton,
    List.replicate_zero, List.append_nil] at hcommand
  rw [Option.some.inj hcommand, length_flushCommand, if_neg hne] at hlength
  omega

/-- **When the clean-up finds every chain.**  It does if there is none and nothing looks like one,
or if there is one, which is named at the first place that looks like it and just before the end of
the listing, with a name that fits and that is not taken for `ha-cluster-rules`.  Otherwise it
crashes, or its command is not the one that is to be. -/
theorem initializeFirewall_cleans_iff (succeeds : Text → Bool) (lines : List ChainLine) :
    (∃ run, initializeFirewall succeeds (listing lines) = some run ∧ run.FindsAll lines) ↔
      (¬ "ha-".toList <:+: scanned lines ∧ haNames lines = []) ∨ ∃ name, LastChain lines name := by
  constructor
  · rintro ⟨run, hrun, hfinds⟩
    by_cases hread : scanned lines = []
    · rw [scanned_eq_nil_iff.1 hread] at hrun
      cases hrun
      exact .inl ⟨by rw [hread]; decide, hfinds.chains.symm⟩
    rw [initializeFirewall_eq hread] at hrun
    cases hfirst : Search.indexOf "ha-".toList (scanned lines) with
    | none =>
      rw [scanLoop_of_none nul_notMem_scanned hread hfirst] at hrun
      cases hrun
      exact .inl ⟨Search.indexOf_eq_none_iff.1 hfirst, hfinds.chains.symm⟩
    | some i =>
      obtain ⟨pre, rest, htext, rfl, -⟩ := Search.indexOf_split (by decide) hfirst
      have hnul : nul ∉ pre ++ ("ha-".toList ++ rest) := htext ▸ nul_notMem_scanned
      by_cases hblank : ' ' ∈ "ha-".toList ++ rest
      · obtain ⟨name, post, hname, hplain⟩ := List.eq_append_cons_of_mem hblank
        have hne : name ≠ [] := by
          rintro rfl
          cases hname
        rw [hname] at htext
        rw [scanLoop_of_name htext nul_notMem_scanned hfirst hplain hne] at hrun
        split_ifs at hrun with hpost
        · obtain ⟨cmd, hcmd, rfl⟩ := Option.map_eq_some_iff.1 hrun
          have honly : haNames lines = [name] := hfinds.chains.symm
          have hcleaning := hfinds.cleaning
          rw [honly, if_neg (List.cons_ne_nil name [])] at hcleaning
          obtain ⟨blanks, hblanks⟩ := hcleaning
          exact .inr ⟨name, lastChain_of_findsAll htext hfirst hpost honly (hcmd.trans hblanks)⟩
        · cases hrun
      · rw [htext, scanLoop_of_open hnul hblank (htext ▸ hfirst) (by simp)] at hrun
        cases hrun
  · rintro (⟨hnone, hnames⟩ | ⟨name, hlast⟩)
    · exact findsAll_of_none hnone hnames
    · exact hlast.findsAll

/-- A listing with the chain that an earlier start has made. -/
def secondStart : List ChainLine :=
  [⟨"INPUT".toList, "policy ACCEPT".toList, by decide, by decide⟩,
    ⟨"ha-cluster-rules".toList, "0 references".toList, by decide, by decide⟩]

/-- The second start crashes. -/
theorem second_start_crashes :
    ¬ ∀ (succeeds : Text → Bool) (lines : List ChainLine),
      ∃ run, initializeFirewall succeeds (listing lines) = some run ∧ run.FindsAll lines := by
  intro h
  obtain ⟨run, hrun, -⟩ := h (fun _ => true) secondStart
  have htext : scanned secondStart = "Chain INPUT (policy ACCEPT)\nChain ".toList ++
      ("ha-cluster-rules".toList ++ ' ' :: "(0 references)\n".toList) := by decide
  rw [initializeFirewall_eq (by rw [htext]; simp),
    scanLoop_of_name htext nul_notMem_scanned (by rw [htext]; decide) (by decide) (by decide),
    if_neg (by decide)] at hrun
  cases hrun

end FreeswitchContrib.HaCluster
