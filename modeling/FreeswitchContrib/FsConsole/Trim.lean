import FreeswitchContrib.Library.CString
import FreeswitchContrib.Library.SingleBlanks

/-!
# Trimmed console input

`trim` of `fsconsole.c` rewrites a string in place: a first cursor skips the white space at the
beginning, the string is moved there, a second cursor collapses what the first one goes through, and
a loop from the end takes the last blank away.

The move copies as many characters as were skipped.  The first cursor stays where it is, so that
nothing of what it copies is used; but it reads behind the string where less is left than was
skipped.

* `trimString_eq` — what the passes make of a string, and when they stay inside it.
* **`trim_exact_iff`** — the strings that are trimmed as they should be.
-/

namespace FreeswitchContrib.FsConsole

open CString SingleBlanks

/-! ## Memory

The memory is the string with its terminator; nothing else may be read or written. -/

abbrev Memory := List Char

def load (memory : Memory) (i : ℕ) : Option Char := memory[i]?

def store (memory : Memory) (i : ℕ) (c : Char) : Option Memory :=
  if i < memory.length then some (memory.set i c) else none

def memmove (memory : Memory) (dest src n : ℕ) : Option Memory :=
  if src + n ≤ memory.length ∧ dest + n ≤ memory.length then
    some (memory.take dest ++ (memory.drop src).take n ++ memory.drop (dest + n))
  else none

/-- `INT_MAX`, which the `int` that counts the characters kept must not pass. -/
def intMax : ℕ := 2 ^ 31 - 1

/-! ## `trim` -/

/-- `for (ibuf = str; *ibuf && isspace(*ibuf); ++ibuf)` -/
def removeLeading (memory : Memory) : ℕ → ℕ → Option ℕ
  | 0, _ => none
  | turns + 1, ibuf => do
    let c ← load memory ibuf
    if c ≠ nul ∧ isspace c then removeLeading memory turns (ibuf + 1) else some ibuf

/-- `if (str != ibuf) memmove(str, ibuf, ibuf - str)` -/
def moveToStart (memory : Memory) (ibuf : ℕ) : Option Memory :=
  if ibuf = 0 then some memory else memmove memory 0 ibuf ibuf

/-- `while (*ibuf)`, with the memory and the index `i` behind the characters kept. -/
def collapseEmbedded : ℕ → Memory → ℕ → ℕ → Bool → Option (Memory × ℕ)
  | 0, _, _, _, _ => none
  | turns + 1, memory, ibuf, i, cnt => do
    let c ← load memory ibuf
    if c = nul then some (memory, i)
    else if isspace c ∧ cnt then collapseEmbedded turns memory (ibuf + 1) i cnt
    else
      let memory ← if isspace c then store memory ibuf ' ' else some memory
      let kept ← load memory ibuf
      let memory ← store memory i kept
      if i + 1 ≤ intMax then collapseEmbedded turns memory (ibuf + 1) (i + 1) (isspace c)
      else none

/-- `while (--i >= 0)`, and the index that `++i` gives behind it. -/
def removeTrailing (memory : Memory) : ℕ → Option ℕ
  | 0 => some 0
  | i + 1 => do
    let c ← load memory i
    if isspace c then removeTrailing memory i else some (i + 1)

/-- The terminator behind the characters kept, and again where the white space at the end begins. -/
def terminate (memory : Memory) (i : ℕ) : Option Memory := do
  let memory ← store memory i nul
  let i ← removeTrailing memory i
  store memory i nul

/-- `trim`, of a string that is not NULL. -/
def trim (memory : Memory) : Option Memory := do
  let ibuf ← removeLeading memory memory.length 0
  let memory ← moveToStart memory ibuf
  let (memory, i) ← collapseEmbedded memory.length memory ibuf 0 false
  terminate memory i

/-- The string at the beginning of the memory. -/
def stringOf (memory : Memory) : List Char := memory.takeWhile (· ≠ nul)

/-- The string that `trim` leaves of a string, when it stays inside of it. -/
def trimString (text : List Char) : Option (List Char) :=
  (trim (text ++ [nul])).map stringOf

/-- A string of ASCII characters. -/
structure AsciiString where
  text : List Char
  noNul : nul ∉ text
  ascii : ∀ c ∈ text, c.toNat < 128

/-! ## The first pass -/

variable {memory : Memory} {text front rest out junk : List Char} {c : Char} {turns ibuf i : ℕ}
  {cnt : Bool}

lemma load_append (front : List Char) (c : Char) (rest : List Char) :
    load (front ++ c :: rest) front.length = some c := by
  rw [load, List.getElem?_append_right (Nat.le_refl _), Nat.sub_self]
  rfl

lemma isspace_blank : isspace ' ' = true := by decide

lemma removeLeading_eq (hnul : nul ∉ text) (hturns : text.length < turns) :
    removeLeading (front ++ (text ++ [nul])) turns front.length =
      some (front.length + (text.takeWhile isspace).length) := by
  induction text generalizing front turns with
  | nil =>
    obtain ⟨turns, rfl⟩ := Nat.exists_eq_succ_of_ne_zero (Nat.ne_of_gt hturns)
    rw [List.nil_append, removeLeading, load_append, Option.bind_eq_bind, Option.bind_some,
      if_neg (by simp)]
    rfl
  | cons c text ih =>
    obtain ⟨turns, rfl⟩ := Nat.exists_eq_succ_of_ne_zero (Nat.ne_of_gt (Nat.zero_lt_of_lt hturns))
    obtain ⟨hc, htail⟩ := not_or.mp (List.mem_cons.not.mp hnul)
    rw [List.cons_append, removeLeading, load_append, Option.bind_eq_bind, Option.bind_some]
    cases hspace : isspace c with
    | true =>
      have hnext : removeLeading (front ++ [c] ++ (text ++ [nul])) turns (front ++ [c]).length =
          some ((front ++ [c]).length + (text.takeWhile isspace).length) :=
        ih htail (Nat.lt_of_succ_lt_succ hturns)
      rw [List.append_assoc, List.singleton_append, List.length_append, List.length_singleton]
        at hnext
      rw [if_pos ⟨Ne.symm hc, rfl⟩, hnext, List.takeWhile_cons_of_pos hspace, List.length_cons]
      congr 1
      omega
    | false =>
      rw [if_neg (by simp), List.takeWhile_cons_of_neg (by simp [hspace])]
      rfl

/-! ## The second pass -/

/-- The cursor behind which characters are kept moves over one of those read. -/
lemma store_behind (out junk : List Char) (c d : Char) (rest : List Char) :
    ∃ junk', junk'.length = junk.length ∧
      store (out ++ (junk ++ c :: rest)) out.length d = some (out ++ [d] ++ (junk' ++ rest)) := by
  cases junk with
  | nil =>
    refine ⟨[], rfl, ?_⟩
    rw [store, if_pos (by simp)]
    simp
  | cons e junk =>
    refine ⟨junk ++ [c], by simp, ?_⟩
    rw [store, if_pos (by simp)]
    simp

lemma load_cursor (out junk : List Char) (c : Char) (rest : List Char) :
    load (out ++ (junk ++ c :: rest)) (out.length + junk.length) = some c := by
  have h := load_append (out ++ junk) c rest
  rwa [List.append_assoc, List.length_append] at h

lemma store_cursor (out junk : List Char) (c d : Char) (rest : List Char) :
    store (out ++ (junk ++ c :: rest)) (out.length + junk.length) d =
      some (out ++ (junk ++ d :: rest)) := by
  rw [store, if_pos (by simp)]
  simp

/-- A turn at a character that is kept, white space as a blank. -/
lemma collapseEmbedded_keep (turns : ℕ) (out junk rest : List Char) (hc : c ≠ nul)
    (hkeep : ¬ (isspace c ∧ cnt)) :
    ∃ junk', junk'.length = junk.length ∧
      collapseEmbedded (turns + 1) (out ++ (junk ++ c :: rest)) (out.length + junk.length)
          out.length cnt =
        if out.length + 1 ≤ intMax then
          collapseEmbedded turns
            (out ++ [if isspace c then ' ' else c] ++ (junk' ++ rest))
            (out.length + junk.length + 1) (out.length + 1) (isspace c)
        else none := by
  obtain ⟨junk', hlength, hstore⟩ :=
    store_behind out junk (if isspace c then ' ' else c) (if isspace c then ' ' else c) rest
  refine ⟨junk', hlength, ?_⟩
  rw [collapseEmbedded, load_cursor, Option.bind_eq_bind, Option.bind_some, if_neg hc,
    if_neg hkeep]
  cases hspace : isspace c with
  | true =>
    rw [if_pos hspace] at hstore
    simp only [if_true, store_cursor, Option.bind_eq_bind, Option.bind_some, load_cursor, hstore]
  | false =>
    rw [if_neg (by simp [hspace])] at hstore
    simp only [Bool.false_eq_true, if_false, Option.bind_eq_bind, Option.bind_some, load_cursor,
      hstore]

/-- A turn at white space behind white space. -/
lemma collapseEmbedded_skip (hc : c ≠ nul) (hspace : isspace c = true) :
    collapseEmbedded (turns + 1) (out ++ (junk ++ c :: rest)) (out.length + junk.length)
        out.length true =
      collapseEmbedded turns (out ++ (junk ++ [c] ++ rest))
        (out.length + (junk ++ [c]).length) out.length true := by
  rw [collapseEmbedded, load_cursor, Option.bind_eq_bind, Option.bind_some, if_neg hc,
    if_pos ⟨hspace, rfl⟩, List.append_assoc junk, List.singleton_append, List.length_append,
    List.length_singleton, Nat.add_assoc]

/-- From here the string behind the cursor is collapsed behind the characters that are kept. -/
def Collapses (turns : ℕ) (out junk rest : List Char) (cnt : Bool) : Prop :=
  let kept := singleBlanks isspace ' ' cnt rest
  ∃ junk', junk'.length + kept.length = junk.length + rest.length ∧
    collapseEmbedded turns (out ++ (junk ++ (rest ++ [nul]))) (out.length + junk.length)
        out.length cnt =
      if out.length + kept.length ≤ intMax then
        some (out ++ kept ++ (junk' ++ [nul]), out.length + kept.length)
      else none

lemma singleBlanks_keep (hkeep : ¬ (isspace c ∧ cnt)) (rest : List Char) :
    singleBlanks isspace ' ' cnt (c :: rest) =
      (if isspace c then ' ' else c) :: singleBlanks isspace ' ' (isspace c) rest := by
  cases hspace : isspace c with
  | true =>
    obtain rfl : cnt = false := by simpa [hspace] using hkeep
    rw [(singleBlanks_cons_of_sep hspace ' ' rest).2, if_pos rfl]
  | false => rw [singleBlanks_cons_of_not_sep hspace, if_neg Bool.false_ne_true]

lemma collapses (hnul : nul ∉ rest) (hturns : rest.length < turns)
    (hbound : out.length ≤ intMax) : Collapses turns out junk rest cnt := by
  induction rest generalizing out junk turns cnt with
  | nil =>
    obtain ⟨turns, rfl⟩ := Nat.exists_eq_succ_of_ne_zero (Nat.ne_of_gt hturns)
    refine ⟨junk, rfl, ?_⟩
    rw [List.nil_append, collapseEmbedded, load_cursor, Option.bind_eq_bind, Option.bind_some,
      if_pos rfl, singleBlanks, List.length_nil, Nat.add_zero, if_pos hbound, List.append_nil]
  | cons c rest ih =>
    obtain ⟨turns, rfl⟩ := Nat.exists_eq_succ_of_ne_zero (Nat.ne_of_gt (Nat.zero_lt_of_lt hturns))
    obtain ⟨hc, htail⟩ := not_or.mp (List.mem_cons.not.mp hnul)
    have hturns' := Nat.lt_of_succ_lt_succ hturns
    by_cases hskip : isspace c ∧ cnt
    · obtain ⟨hspace, rfl⟩ := hskip
      have hnext : Collapses turns out (junk ++ [c]) rest true := ih htail hturns' hbound
      obtain ⟨junk', hlength, hrun⟩ := hnext
      rw [Collapses, List.cons_append, collapseEmbedded_skip (Ne.symm hc) hspace,
        (singleBlanks_cons_of_sep hspace ' ' rest).1]
      refine ⟨junk', ?_, hrun⟩
      rw [hlength, List.length_append, List.length_singleton, List.length_cons]
      omega
    · obtain ⟨junk₁, hlength₁, hturn⟩ :=
        collapseEmbedded_keep turns out junk (rest ++ [nul]) (Ne.symm hc) hskip
      rw [Collapses, List.cons_append, hturn, singleBlanks_keep hskip]
      set d := if isspace c then ' ' else c
      set kept := singleBlanks isspace ' ' (isspace c) rest with hkept
      by_cases hroom : out.length + 1 ≤ intMax
      · have hnext : Collapses turns (out ++ [d]) junk₁ rest (isspace c) :=
          ih htail hturns' (by rwa [List.length_append])
        obtain ⟨junk', hlength, hrun⟩ := hnext
        rw [← hkept] at hlength hrun
        rw [List.length_append, List.length_singleton, hlength₁, Nat.add_right_comm] at hrun
        refine ⟨junk', ?_, ?_⟩
        · rw [List.length_cons, List.length_cons]
          omega
        · rw [if_pos hroom, hrun, List.length_cons, List.append_assoc out [d] kept,
            List.singleton_append, Nat.add_assoc, Nat.add_comm 1]
      · have hle : kept.length ≤ rest.length := length_singleBlanks_le _ rest
        refine ⟨List.replicate (junk.length + (rest.length - kept.length)) c, ?_, ?_⟩
        · rw [List.length_replicate, List.length_cons, List.length_cons]
          omega
        · rw [if_neg hroom, if_neg fun hfits => hroom ?_]
          rw [List.length_cons] at hfits
          omega

/-! ## The third pass -/

lemma removeTrailing_eq (kept rest : List Char) :
    removeTrailing (kept ++ rest) kept.length = some (kept.rdropWhile isspace).length := by
  induction kept using List.reverseRecOn generalizing rest with
  | nil => rfl
  | append_singleton kept c ih =>
    rw [List.append_assoc, List.singleton_append, List.length_append, List.length_singleton,
      removeTrailing, load_append, Option.bind_eq_bind, Option.bind_some, List.rdropWhile_concat]
    cases hspace : isspace c with
    | true => rw [if_pos rfl, if_pos rfl, ih]
    | false =>
      rw [if_neg Bool.false_ne_true, if_neg Bool.false_ne_true, List.length_append,
        List.length_singleton]

/-- What is before the terminator that is written. -/
lemma stringOf_store (hout : nul ∉ out) (junk : List Char) (c : Char) (rest : List Char) :
    ∃ memory, store (out ++ (junk ++ c :: rest)) out.length nul = some memory ∧
      stringOf memory = out := by
  obtain ⟨junk', -, hstore⟩ := store_behind out junk c nul rest
  refine ⟨_, hstore, ?_⟩
  rw [stringOf, List.append_assoc, List.takeWhile_append_of_pos, List.singleton_append,
    List.takeWhile_cons_of_neg (by simp), List.append_nil]
  intro d hd
  exact decide_eq_true fun hnul => hout (hnul ▸ hd)

/-! ## The whole of it -/

/-- What the second pass makes of a string. -/
def collapsed (text : List Char) : List Char := singleBlanks isspace ' ' true text

/-- The white space at the beginning is not longer than what is behind it, with the terminator, and
an `int` counts the characters that are kept. -/
def Fits (text : List Char) : Prop :=
  (text.takeWhile isspace).length ≤ (text.dropWhile isspace).length + 1 ∧
    (collapsed text).length ≤ intMax

instance (text : List Char) : Decidable (Fits text) := by
  unfold Fits
  infer_instance

lemma nul_notMem_collapsed (hnul : nul ∉ text) : nul ∉ collapsed text := by
  intro h
  rcases mem_of_mem_singleBlanks h with h | h
  · exact hnul h
  · exact absurd h (by decide)

/-- The move leaves the string behind the cursor as it was. -/
lemma moveToStart_eq (lead rest : List Char) :
    ∃ junk, junk.length = lead.length ∧ moveToStart (lead ++ rest) lead.length =
      if lead.length ≤ rest.length then some (junk ++ rest) else none := by
  cases lead with
  | nil => exact ⟨[], rfl, rfl⟩
  | cons c lead =>
    have hne : (c :: lead).length ≠ 0 := Nat.succ_ne_zero lead.length
    by_cases hle : (c :: lead).length ≤ rest.length
    · have hroom : (c :: lead).length + (c :: lead).length ≤ (c :: lead ++ rest).length ∧
          0 + (c :: lead).length ≤ (c :: lead ++ rest).length := by
        rw [List.length_append]
        omega
      refine ⟨rest.take (c :: lead).length, List.length_take_of_le hle, ?_⟩
      rw [moveToStart, if_neg hne, memmove, if_pos hroom, if_pos hle, List.take_zero,
        List.nil_append, Nat.zero_add, List.drop_left]
    · have hroom : ¬ ((c :: lead).length + (c :: lead).length ≤ (c :: lead ++ rest).length ∧
          0 + (c :: lead).length ≤ (c :: lead ++ rest).length) := by
        rw [List.length_append]
        omega
      refine ⟨c :: lead, rfl, ?_⟩
      rw [moveToStart, if_neg hne, memmove, if_neg hroom, if_neg hle]

/-- The string that is left. -/
lemma terminate_eq (hout : nul ∉ out) (junk : List Char) :
    (terminate (out ++ (junk ++ [nul])) out.length).map stringOf =
      some (out.rdropWhile isspace) := by
  obtain ⟨junk', -, hstore⟩ := store_behind out junk nul nul []
  obtain ⟨trail, htrail⟩ : out.rdropWhile isspace <+: out := List.rdropWhile_prefix isspace out
  have hnul : nul ∉ out.rdropWhile isspace := fun h =>
    hout (htrail ▸ List.mem_append_left trail h)
  obtain ⟨memory, hlast, hstring⟩ := stringOf_store hnul trail nul junk'
  have hmemory : out ++ ([nul] ++ (junk' ++ [])) =
      out.rdropWhile isspace ++ (trail ++ nul :: junk') := by
    rw [← List.append_assoc (out.rdropWhile isspace), htrail, List.append_nil,
      List.singleton_append]
  rw [terminate, hstore, Option.bind_eq_bind, Option.bind_some, List.append_assoc,
    removeTrailing_eq, Option.bind_eq_bind, Option.bind_some, hmemory, hlast, Option.map_some,
    hstring]

/-- **The passes** join the words by single blanks, or go outside. -/
theorem trimString_eq (hnul : nul ∉ text) :
    trimString text = if Fits text then some (joined isspace ' ' text) else none := by
  set lead := text.takeWhile isspace with hlead
  set rest := text.dropWhile isspace with hrest
  have hsplit : lead ++ rest = text := List.takeWhile_append_dropWhile
  have hrestNul : nul ∉ rest := fun h => hnul (hsplit ▸ List.mem_append_right lead h)
  have hleading : removeLeading (text ++ [nul]) (text ++ [nul]).length 0 = some lead.length := by
    have hturns : text.length < (text ++ [nul]).length := by simp
    have h : removeLeading ([] ++ (text ++ [nul])) (text ++ [nul]).length ([] : Memory).length =
      some (([] : Memory).length + lead.length) := removeLeading_eq hnul hturns
    rwa [List.nil_append, List.length_nil, Nat.zero_add] at h
  obtain ⟨junk, hjunk, hmove⟩ := moveToStart_eq lead (rest ++ [nul])
  have hkept : singleBlanks isspace ' ' false rest = collapsed text :=
    singleBlanks_dropWhile text false
  rw [← List.append_assoc, hsplit, List.length_append, List.length_singleton] at hmove
  rw [trimString, trim, hleading, Option.bind_eq_bind, Option.bind_some, hmove]
  by_cases hroom : lead.length ≤ rest.length + 1
  · have hturns : rest.length < (junk ++ (rest ++ [nul])).length := by
      rw [List.length_append, List.length_append, List.length_singleton]
      omega
    have hcollapses : Collapses (junk ++ (rest ++ [nul])).length [] junk rest false :=
      collapses hrestNul hturns (Nat.zero_le _)
    obtain ⟨junk', -, hrun⟩ := hcollapses
    rw [hkept, List.nil_append, List.length_nil, Nat.zero_add, hjunk, Nat.zero_add,
      List.nil_append] at hrun
    rw [if_pos hroom, Option.bind_eq_bind, Option.bind_some, hrun]
    by_cases hbound : (collapsed text).length ≤ intMax
    · have hfits : Fits text := ⟨hroom, hbound⟩
      rw [if_pos hbound, if_pos hfits, Option.bind_eq_bind, Option.bind_some,
        terminate_eq (nul_notMem_collapsed hnul), collapsed,
        rdropWhile_singleBlanks isspace_blank]
    · have hfits : ¬ Fits text := fun h => hbound h.2
      rw [if_neg hbound, if_neg hfits]
      rfl
  · have hfits : ¬ Fits text := fun h => hroom h.1
    rw [if_neg hroom, if_neg hfits]
    rfl

/-! ## What is trimmed stays as it is -/

lemma collapsed_joined (text : List Char) :
    collapsed (joined isspace ' ' text) = joined isspace ' ' text :=
  singleBlanks_joined isspace_blank text

lemma joined_isPrefix_collapsed (text : List Char) : joined isspace ' ' text <+: collapsed text := by
  rw [← rdropWhile_singleBlanks isspace_blank]
  exact List.rdropWhile_prefix isspace (collapsed text)

lemma fits_joined (h : Fits text) : Fits (joined isspace ' ' text) := by
  constructor
  · rw [takeWhile_of_singleBlanks (collapsed_joined text)]
    exact Nat.zero_le _
  · rw [collapsed_joined]
    exact (joined_isPrefix_collapsed text).length_le.trans h.2

/-- What is asked of `trim`: inside of the string it comes to its words, joined by single blanks, and
leaves them as they are when it is called again. -/
def TrimsExactly (text : List Char) : Prop :=
  ∃ trimmed, trimString text = some trimmed ∧
    trimmed = [' '].intercalate (words isspace text) ∧ trimString trimmed = some trimmed

/-- **The strings that are trimmed as they should be** are those of which the move copies no more
than there is. -/
theorem trim_exact_iff (string : AsciiString) :
    TrimsExactly string.text ↔
      (string.text.takeWhile isspace).length ≤ (string.text.dropWhile isspace).length + 1 ∧
        (collapsed string.text).length ≤ intMax := by
  have htrim := trimString_eq string.noNul
  rw [← Fits]
  constructor
  · rintro ⟨trimmed, hrun, -, -⟩
    by_contra hfits
    rw [htrim, if_neg hfits] at hrun
    cases hrun
  · intro hfits
    have hnul : nul ∉ joined isspace ' ' string.text := fun h =>
      nul_notMem_collapsed string.noNul ((joined_isPrefix_collapsed string.text).subset h)
    have hagain : joined isspace ' ' (joined isspace ' ' string.text) =
        joined isspace ' ' string.text := by
      rw [← rdropWhile_singleBlanks isspace_blank, singleBlanks_joined isspace_blank,
        rdropWhile_joined isspace_blank]
    refine ⟨joined isspace ' ' string.text, ?_, rfl, ?_⟩
    · rw [htrim, if_pos hfits]
    · rw [trimString_eq hnul, if_pos (fits_joined hfits), hagain]

/-- Three blanks are skipped, and only a letter and the terminator are left to be copied. -/
theorem trim_reads_behind : ¬ TrimsExactly "   a".toList := by
  have hrun : trimString "   a".toList = none := by decide
  rintro ⟨trimmed, htrimmed, -, -⟩
  rw [hrun] at htrimmed
  cases htrimmed

example : trimString " Event-Name 	 : HEARTBEAT ".toList = some "Event-Name : HEARTBEAT".toList := by
  decide

end FreeswitchContrib.FsConsole
