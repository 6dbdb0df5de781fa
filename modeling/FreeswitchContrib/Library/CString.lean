import FreeswitchContrib.Library.Numeral
import Mathlib.Algebra.Group.Int.Defs
import Mathlib.Algebra.Group.Nat.Defs
import Mathlib.Data.List.Basic
import Mathlib.Data.List.TakeWhile

/-!
# Strings in memory

C strings in a piece of memory of which the size is known.  A position is an offset into the memory;
a search that reaches the end of the memory without finding what stops it reads outside, and is
`none`.

`startsWith_eq` says that a comparison decides what a string begins with, `string_append` where the
string at a position ends.
-/

namespace CString

def nul : Char := '\x00'

/-- The first position from `offset` on where the search stops. -/
def find (stop : Char → Bool) (memory : List Char) (offset : ℕ) : Option ℕ :=
  ((memory.drop offset).findIdx? stop).map (offset + ·)

/-- The string at this position. -/
def string (memory : List Char) (offset : ℕ) : Option (List Char) :=
  (find (· == nul) memory offset).map fun last => (memory.drop offset).take (last - offset)

/-- The first such character of the string at this position. -/
def strchr (memory : List Char) (offset : ℕ) (c : Char) : Option (Option ℕ) :=
  (find (fun x => x == c || x == nul) memory offset).map fun i =>
    if memory[i]? = some c then some i else none

/-- Behind the characters of the string that are all of this kind. -/
def skip (kind : Char → Bool) (memory : List Char) (offset : ℕ) : Option ℕ :=
  find (fun x => !kind x || x == nul) memory offset

def isspace (c : Char) : Bool := c == ' ' || (9 ≤ c.toNat && c.toNat ≤ 13)

/-- The value of the digits that a text begins with. -/
def leadingDigits (s : List Char) : ℕ :=
  (s.takeWhile Char.isDigit).foldl (fun n d => 10 * n + (d.toNat - '0'.toNat)) 0

/-- The number that a text begins with, behind white space. -/
def leadingInt (s : List Char) : ℤ :=
  match s.dropWhile isspace with
  | '-' :: digits => -leadingDigits digits
  | '+' :: digits => leadingDigits digits
  | digits => leadingDigits digits

/-- `strtol` with base 10 and a `long` of 64 bits. -/
def strtol (s : List Char) : ℤ := max (-2 ^ 63) (min (2 ^ 63 - 1) (leadingInt s))

/-- What is behind the sign of a number. -/
def afterSign : List Char → List Char
  | '-' :: digits => digits
  | '+' :: digits => digits
  | digits => digits

/-- The text from where `strtol` and `strtoul` stop on; where there is no number that is all of
it. -/
def numberEnd (s : List Char) : List Char :=
  let digits := afterSign (s.dropWhile isspace)
  if (digits.takeWhile Char.isDigit).isEmpty then s else digits.dropWhile Char.isDigit

/-- `strtoul` with base 10 and an `unsigned long` of 64 bits, in which a negative number wraps
around. -/
def strtoul (s : List Char) : ℕ :=
  if 2 ^ 64 ≤ (leadingInt s).natAbs then 2 ^ 64 - 1 else (leadingInt s % 2 ^ 64).toNat

/-- `strtol`, of which an `int` keeps the lower bits. -/
def atoi (s : List Char) : ℤ := (strtol s).bmod (2 ^ 32)

/-- The memory begins with these characters; the comparison stops at the first difference. -/
def startsWith : List Char → List Char → Option Bool
  | _, [] => some true
  | [], _ :: _ => none
  | x :: xs, c :: cs => if x = c then startsWith xs cs else some false

/-- `strncmp(memory + offset, s, strlen(s)) == 0`. -/
def strncmp (memory : List Char) (offset : ℕ) (s : List Char) : Option Bool :=
  startsWith (memory.drop offset) s

/-- `strcmp(memory + offset, s) == 0`. -/
def strcmp (memory : List Char) (offset : ℕ) (s : List Char) : Option Bool :=
  strncmp memory offset (s ++ [nul])

/-- `strcasecmp(s, t) == 0`. -/
def strcasecmp (s t : List Char) : Bool := s.map Char.toLower == t.map Char.toLower

/-- A token ends at such a character. -/
def ends (delim c : Char) : Bool := c == delim || c == nul

/-- `strtok_r(s, delim, &last)` with one delimiter: the token, the memory in which it is ended, and
`last`. -/
def strtok (delim : Char) (memory : List Char) (s : ℕ) : Option (Option ℕ × List Char × ℕ) := do
  let start ← skip (· == delim) memory s
  if memory[start]? = some nul then return (none, memory, start)
  let stop ← find (ends delim) memory start
  if memory[stop]? = some nul then return (some start, memory, stop)
  return (some start, memory.set stop nul, stop + 1)

variable {stop kind : Char → Bool} {memory : List Char} {offset i : ℕ} {c : Char}

lemma find_some (h : find stop memory offset = some i) :
    offset ≤ i ∧ ∃ c, memory[i]? = some c ∧ stop c = true := by
  obtain ⟨k, hk, rfl⟩ := Option.map_eq_some_iff.mp h
  obtain ⟨hlt, hstop, -⟩ := List.findIdx?_eq_some_iff_getElem.mp hk
  refine ⟨Nat.le_add_right _ _, _, ?_, hstop⟩
  rw [← List.getElem?_drop, List.getElem?_eq_getElem hlt]

lemma find_lt (h : find stop memory offset = some i) : i < memory.length := by
  obtain ⟨-, c, hc, -⟩ := find_some h
  exact (List.getElem?_eq_some_iff.mp hc).1

lemma strchr_some {found : Option ℕ} (h : strchr memory offset c = some found) :
    ∀ i ∈ found, offset ≤ i ∧ i < memory.length := by
  obtain ⟨k, hk, rfl⟩ := Option.map_eq_some_iff.mp h
  intro i hi
  split_ifs at hi with hc
  · cases hi
    exact ⟨(find_some hk).1, find_lt hk⟩
  · cases hi

lemma getElem?_of_strchr (h : strchr memory offset c = some (some i)) : memory[i]? = some c := by
  obtain ⟨k, -, hk⟩ := Option.map_eq_some_iff.mp h
  split_ifs at hk with hc
  cases hk
  exact hc

lemma find_append (before rest : List Char) {text : List Char} (h : ∀ c ∈ text, stop c = false)
    (hc : stop c = true) :
    find stop (before ++ (text ++ c :: rest)) before.length =
      some (before.length + text.length) := by
  rw [find, List.drop_left, List.findIdx?_append, List.findIdx?_eq_none_iff.2 h]
  simp [List.findIdx?_cons, hc]

lemma find_nul_append (before rest : List Char) {text : List Char} (h : nul ∉ text) :
    find (· == nul) (before ++ (text ++ nul :: rest)) before.length =
      some (before.length + text.length) :=
  find_append before rest (fun _ hc => beq_false_of_ne fun heq => h (heq ▸ hc)) rfl

lemma find_nul_eq_none (h : nul ∉ memory.drop offset) : find (· == nul) memory offset = none := by
  have hnot : ∀ c ∈ memory.drop offset, (c == nul) = false := by
    intro c hc
    exact beq_false_of_ne fun heq => h (heq ▸ hc)
  rw [find, List.findIdx?_eq_none_iff.2 hnot]
  rfl

lemma string_append (before rest : List Char) {text : List Char} (h : nul ∉ text) :
    string (before ++ (text ++ nul :: rest)) before.length = some text := by
  rw [string, find_nul_append before rest h, Option.map_some, List.drop_left,
    Nat.add_sub_cancel_left, List.take_left]

lemma string_of_drop {text rest : List Char} {p : ℕ} (hp : p ≤ memory.length)
    (h : memory.drop p = text ++ nul :: rest) (htext : nul ∉ text) :
    string memory p = some text := by
  have hstring := string_append (memory.take p) rest htext
  rwa [← h, List.take_append_drop, List.length_take_of_le hp] at hstring

/-- `strchr` finds the character behind a text that is free of it. -/
lemma strchr_append (before rest : List Char) {text : List Char} (hnul : nul ∉ text)
    (htext : c ∉ text) :
    strchr (before ++ (text ++ c :: rest)) before.length c =
      some (some (before.length + text.length)) := by
  rw [strchr, find_append before rest (c := c) _ (by simp), Option.map_some, if_pos (by simp)]
  intro x hx
  have hxc : x ≠ c := fun heq => htext (heq ▸ hx)
  have hxnul : x ≠ nul := fun heq => hnul (heq ▸ hx)
  simp [hxc, hxnul]

lemma strchr_append_none (before rest : List Char) {text : List Char} (hnul : nul ∉ text)
    (htext : c ∉ text) (hc : c ≠ nul) :
    strchr (before ++ (text ++ nul :: rest)) before.length c = some none := by
  rw [strchr, find_append before rest (c := nul) _ (by simp), Option.map_some, if_neg]
  · simpa using hc.symm
  · intro x hx
    have hxc : x ≠ c := fun heq => htext (heq ▸ hx)
    have hxnul : x ≠ nul := fun heq => hnul (heq ▸ hx)
    simp [hxc, hxnul]

/-- `strncmp` decides whether a string begins with another one. -/
lemma startsWith_eq {text s : List Char} (rest : List Char) (hs : nul ∉ s) :
    startsWith (text ++ nul :: rest) s = some (s.isPrefixOf text) := by
  induction text generalizing s with
  | nil =>
    cases s with
    | nil => rfl
    | cons c s =>
      have hc : ¬ nul = c := fun h => hs (h ▸ List.mem_cons_self)
      simp [startsWith, hc]
  | cons x text ih =>
    cases s with
    | nil => rfl
    | cons c s =>
      rw [List.cons_append, startsWith, ih fun h => hs (List.mem_cons_of_mem _ h)]
      by_cases hxc : x = c
      · simp [hxc]
      · simp [List.isPrefixOf, hxc, Ne.symm hxc]

/-- `strcmp` decides whether two strings are the same. -/
lemma strcmp_of_drop {text s rest : List Char} {p : ℕ} (h : memory.drop p = text ++ nul :: rest)
    (htext : nul ∉ text) (hs : nul ∉ s) : strcmp memory p s = some (decide (text = s)) := by
  rw [strcmp, strncmp, h]
  clear h
  induction text generalizing s with
  | nil =>
    cases s with
    | nil => cases rest <;> rfl
    | cons c s =>
      have hc : ¬ nul = c := fun h => hs (h ▸ List.mem_cons_self)
      simp [startsWith, hc]
  | cons x text ih =>
    have hx : ¬ x = nul := fun h => htext (h ▸ List.mem_cons_self)
    cases s with
    | nil => simp [startsWith, hx]
    | cons c s =>
      rw [List.cons_append, List.cons_append, startsWith]
      rw [ih (fun h => htext (List.mem_cons_of_mem _ h)) (fun h => hs (List.mem_cons_of_mem _ h))]
      by_cases hxc : x = c <;> simp [hxc]

lemma strcmp_append (before rest : List Char) {text s : List Char} (htext : nul ∉ text)
    (hs : nul ∉ s) :
    strcmp (before ++ (text ++ nul :: rest)) before.length s = some (decide (text = s)) :=
  strcmp_of_drop List.drop_left htext hs

lemma leadingDigits_of_decimal {digits : List Char} {n : ℕ} (h : Numeral.decimal digits = some n) :
    leadingDigits digits = n := by
  have hdigits := Numeral.isDigit_of_decimal h
  rw [Numeral.decimal] at h
  split_ifs at h
  rw [leadingDigits, List.takeWhile_eq_self_iff.2 hdigits]
  exact Option.some.inj h

lemma isspace_of_isDigit {c : Char} (h : c.isDigit = true) : isspace c = false := by
  have hlow : 48 ≤ c.toNat := (Char.isDigit_iff_toNat.1 h).1
  have hne : c ≠ ' ' := by
    rintro rfl
    exact absurd hlow (by decide)
  simp [isspace, hne]
  omega

lemma leadingInt_of_decimal {digits : List Char} {n : ℕ} (h : Numeral.decimal digits = some n) :
    leadingInt digits = n := by
  have hdigits := Numeral.isDigit_of_decimal h
  have hspace : digits.dropWhile isspace = digits := by
    cases digits with
    | nil => rfl
    | cons c cs =>
      have hc := hdigits c List.mem_cons_self
      rw [List.dropWhile_cons_of_neg (by rw [isspace_of_isDigit hc]; simp)]
  rw [leadingInt, hspace]
  split
  · simp [Char.isDigit] at hdigits
  · simp [Char.isDigit] at hdigits
  · rw [leadingDigits_of_decimal h]

/-- **A numeral that fits** into an `int` is read as its number. -/
theorem atoi_of_decimal {digits : List Char} {n : ℕ} (h : Numeral.decimal digits = some n)
    (hn : n ≤ 2147483647) : atoi digits = n := by
  rw [atoi, strtol, leadingInt_of_decimal h, Int.bmod_def]
  omega

lemma ofInt_ne_nil (i : ℤ) : Numeral.ofInt i ≠ [] := by
  cases i with
  | ofNat n => exact Nat.toDigits_ne_nil
  | negSucc n => exact List.cons_ne_nil _ _

lemma isDigit_of_toDigits {n : ℕ} {c : Char} (h : c ∈ Nat.toDigits 10 n) : c.isDigit = true :=
  Nat.isDigit_of_mem_toDigits (by decide) (by decide) h

lemma isEmpty_toDigits (n : ℕ) : (Nat.toDigits 10 n).isEmpty = false := by
  rw [List.isEmpty_eq_false_iff]
  exact Nat.toDigits_ne_nil

lemma decimal_toDigits (n : ℕ) : Numeral.decimal (Nat.toDigits 10 n) = some n := by
  have hall : (Nat.toDigits 10 n).all Char.isDigit = true :=
    List.all_eq_true.mpr fun _ => isDigit_of_toDigits
  rw [Numeral.decimal, hall, isEmpty_toDigits, ← Nat.ofDigitChars_eq_foldl,
    Nat.ofDigitChars_ten_toDigits]
  rfl

/-- A number that is printed is read back. -/
lemma leadingInt_ofInt (i : ℤ) : leadingInt (Numeral.ofInt i) = i := by
  cases i with
  | ofNat n => exact leadingInt_of_decimal (decimal_toDigits n)
  | negSucc n =>
    have hspace : ('-' :: Nat.toDigits 10 (n + 1)).dropWhile isspace =
        '-' :: Nat.toDigits 10 (n + 1) := rfl
    rw [Numeral.ofInt, leadingInt, hspace]
    change -((leadingDigits (Nat.toDigits 10 (n + 1)) : ℕ) : ℤ) = _
    rw [leadingDigits_of_decimal (decimal_toDigits (n + 1))]
    rfl

lemma strtol_ofInt {i : ℤ} (hlow : -2 ^ 63 ≤ i) (hhigh : i < 2 ^ 63) :
    strtol (Numeral.ofInt i) = i := by
  rw [strtol, leadingInt_ofInt]
  omega

/-- The digits that are printed are all behind the sign. -/
lemma afterSign_ofInt (i : ℤ) :
    ∃ n, afterSign ((Numeral.ofInt i).dropWhile isspace) = Nat.toDigits 10 n := by
  cases i with
  | ofNat n =>
    refine ⟨n, ?_⟩
    change afterSign ((Nat.toDigits 10 n).dropWhile isspace) = _
    cases hdigits : Nat.toDigits 10 n with
    | nil => exact absurd hdigits Nat.toDigits_ne_nil
    | cons c digits =>
      have hc : c.isDigit = true := isDigit_of_toDigits (hdigits ▸ List.mem_cons_self)
      rw [List.dropWhile_cons_of_neg (by rw [isspace_of_isDigit hc]; simp), afterSign.eq_def]
      split
      · rename_i heq
        cases heq
        cases hc
      · rename_i heq
        cases heq
        cases hc
      · rfl
  | negSucc n => exact ⟨n + 1, rfl⟩

/-- There is a number in what is printed. -/
lemma numberEnd_ofInt (i : ℤ) : numberEnd (Numeral.ofInt i) ≠ Numeral.ofInt i := by
  obtain ⟨n, hsign⟩ := afterSign_ofInt i
  have htake : (Nat.toDigits 10 n).takeWhile Char.isDigit = Nat.toDigits 10 n :=
    List.takeWhile_eq_self_iff.mpr fun _ => isDigit_of_toDigits
  have hdrop : (Nat.toDigits 10 n).dropWhile Char.isDigit = [] :=
    List.dropWhile_eq_nil_iff.mpr fun _ => isDigit_of_toDigits
  rw [numberEnd, hsign, htake, hdrop, isEmpty_toDigits]
  exact (ofInt_ne_nil i).symm

/-! ## Tokens -/

lemma findIdx?_eq_dropWhile (stop : Char → Bool) (tail : List Char) :
    (tail.dropWhile (fun c => !stop c) = [] → tail.findIdx? stop = none) ∧
      (tail.dropWhile (fun c => !stop c) ≠ [] →
        tail.findIdx? stop = some (tail.takeWhile fun c => !stop c).length) := by
  induction tail with
  | nil => simp
  | cons c tail ih =>
    cases hc : stop c with
    | true => simp [List.findIdx?_cons, hc]
    | false =>
      constructor
      · intro h
        rw [List.findIdx?_cons, hc, ih.1 (by simpa [hc] using h)]
        rfl
      · intro h
        rw [List.findIdx?_cons, hc, ih.2 (by simpa [hc] using h)]
        simp [hc]

lemma find_eq_none (h : (memory.drop offset).dropWhile (fun c => !stop c) = []) :
    find stop memory offset = none := by
  rw [find, (findIdx?_eq_dropWhile stop _).1 h]
  rfl

/-- The search passes what comes before the first character that stops it. -/
lemma find_eq_some (stop : Char → Bool) {rest : List Char}
    (h : (memory.drop offset).dropWhile (fun c => !stop c) = c :: rest) :
    find stop memory offset =
        some (offset + ((memory.drop offset).takeWhile fun c => !stop c).length) ∧
      memory.drop (offset + ((memory.drop offset).takeWhile fun c => !stop c).length) =
        c :: rest := by
  constructor
  · rw [find, (findIdx?_eq_dropWhile stop _).2 (by simp [h])]
    rfl
  · rw [← List.drop_drop]
    calc (memory.drop offset).drop ((memory.drop offset).takeWhile fun c => !stop c).length
        = ((memory.drop offset).takeWhile (fun c => !stop c) ++
            (memory.drop offset).dropWhile fun c => !stop c).drop
              ((memory.drop offset).takeWhile fun c => !stop c).length := by
          rw [List.takeWhile_append_dropWhile]
      _ = (memory.drop offset).dropWhile fun c => !stop c := List.drop_left
      _ = c :: rest := h

/-- The next token of the text that is left, and what is left behind it; no NUL ends the text. -/
def nextToken (delim : Char) (tail : List Char) : Option (Option (List Char) × List Char) :=
  match tail.dropWhile (· == delim) with
  | [] => none
  | c :: cs =>
    if c = nul then some (none, c :: cs)
    else
      match (c :: cs).dropWhile (fun c => !ends delim c) with
      | [] => none
      | d :: rest =>
        some ((c :: cs).takeWhile (fun c => !ends delim c), if d = nul then d :: rest else rest)

/-- A token is behind `s`, and the next one is looked for behind it. -/
lemma strtok_some {delim : Char} {memory memory' : List Char} {s p last : ℕ}
    (h : strtok delim memory s = some (some p, memory', last)) :
    memory'.length = memory.length ∧ s < last ∧ s < memory.length := by
  unfold strtok at h
  simp only [Option.bind_eq_bind, Option.bind_eq_some_iff] at h
  obtain ⟨start, hstart, h⟩ := h
  have hle := (find_some hstart).1
  have hlt := find_lt hstart
  split_ifs at h with hnul
  · cases h
  obtain ⟨stop, hstop, h⟩ := Option.bind_eq_some_iff.1 h
  have hle' := (find_some hstop).1
  split_ifs at h with hend
  · cases h
    refine ⟨rfl, ?_, by omega⟩
    have : p ≠ last := by
      rintro rfl
      exact hnul hend
    omega
  · cases h
    exact ⟨List.length_set, by omega, by omega⟩

/-- What `strtok` does with the text at `s`: it finds no end, no token, or this one. -/
def Tokenises (delim : Char) (memory : List Char) (s : ℕ) : Prop :=
  match nextToken delim (memory.drop s) with
  | none => strtok delim memory s = none
  | some (none, tail) => ∃ last, strtok delim memory s = some (none, memory, last) ∧
      memory.drop last = tail
  | some (some token, tail) => ∃ p memory' last rest,
      strtok delim memory s = some (some p, memory', last) ∧ memory'.drop last = tail ∧
        memory'.drop p = token ++ nul :: rest ∧ nul ∉ token

/-- **The tokens are those of the text**: `strtok` cuts the first one off. -/
theorem tokenises {delim : Char} (hdelim : delim ≠ nul) (memory : List Char) (s : ℕ) :
    Tokenises delim memory s := by
  have hskip : (fun c => !(!(c == delim) || c == nul)) = (· == delim) := by
    funext c
    by_cases hc : c = delim
    · simp [hc, hdelim]
    · simp [hc]
  unfold Tokenises nextToken
  cases hskipped : (memory.drop s).dropWhile (· == delim) with
  | nil =>
    have hfind : skip (· == delim) memory s = none := find_eq_none (by rwa [hskip])
    simp only [strtok, hfind]
    rfl
  | cons c cs =>
    obtain ⟨hfind, hstart⟩ :=
      find_eq_some (fun c => !(c == delim) || c == nul) (by rwa [hskip])
    set start := s + ((memory.drop s).takeWhile fun c => !(!(c == delim) || c == nul)).length
      with hs
    have hc : memory[start]? = some c := by
      rw [← List.head?_drop, hstart]
      rfl
    by_cases hnul : c = nul
    · subst hnul
      refine ⟨start, ?_, hstart⟩
      simp only [strtok, skip, hfind, Option.bind_eq_bind, Option.bind_some, hc, if_true]
      rfl
    · simp only [if_neg hnul]
      have hne : ¬ some c = some nul := fun h => hnul (Option.some.inj h)
      rw [← hstart]
      cases hrest : (memory.drop start).dropWhile (fun c => !ends delim c) with
      | nil =>
        simp only [strtok, skip, hfind, Option.bind_eq_bind, Option.bind_some, hc, hne, if_false,
          find_eq_none hrest]
        rfl
      | cons d rest =>
        obtain ⟨hfind', hstop⟩ := find_eq_some _ hrest
        set token := (memory.drop start).takeWhile fun c => !ends delim c with htoken
        set stop := start + token.length with hstopdef
        have hd : memory[stop]? = some d := by
          rw [← List.head?_drop, hstop]
          rfl
        have happend : memory.drop start = token ++ d :: rest := by
          rw [← hrest, htoken, List.takeWhile_append_dropWhile]
        have htokenNul : nul ∉ token := by
          intro hmem
          have := List.mem_takeWhile_imp hmem
          simp [ends] at this
        by_cases hdnul : d = nul
        · subst hdnul
          refine ⟨start, memory, stop, rest, ?_, by simpa using hstop, happend, htokenNul⟩
          simp only [strtok, skip, hfind, Option.bind_eq_bind, Option.bind_some, hc, hne, if_false,
            hfind', hd, if_true]
          rfl
        · have hne' : ¬ some d = some nul := fun h => hdnul (Option.some.inj h)
          refine ⟨start, memory.set stop nul, stop + 1, rest, ?_, ?_, ?_, htokenNul⟩
          · simp only [strtok, skip, hfind, Option.bind_eq_bind, Option.bind_some, hc, hne,
              if_false, hfind', hd, hne']
            rfl
          · rw [List.drop_set_of_lt (by omega), if_neg hdnul, ← List.drop_drop, hstop]
            rfl
          · rw [List.drop_set, if_neg (by omega), happend, hstopdef, Nat.add_sub_cancel_left,
              List.set_append_right _ _ (Nat.le_refl _), Nat.sub_self]
            rfl

lemma not_mem_dropWhile {p : Char → Bool} {c : Char} {tail : List Char} (h : p c = false) :
    c ∈ tail.dropWhile p ↔ c ∈ tail := by
  conv_rhs => rw [← List.takeWhile_append_dropWhile (p := p) (l := tail)]
  rw [List.mem_append]
  refine ⟨.inr, fun hmem => hmem.resolve_left fun htake => ?_⟩
  rw [List.mem_takeWhile_imp htake] at h
  cases h

/-- A NUL that is in the text is found, and tokens leave it there. -/
lemma nextToken_nul {delim : Char} (hdelim : delim ≠ nul) (tail : List Char) :
    match nextToken delim tail with
    | none => nul ∉ tail
    | some (none, _) => nul ∈ tail
    | some (some _, tail') => nul ∈ tail' ↔ nul ∈ tail := by
  have hskip : nul ∈ tail.dropWhile (· == delim) ↔ nul ∈ tail :=
    not_mem_dropWhile (by simpa using hdelim.symm)
  unfold nextToken
  cases htail : tail.dropWhile (· == delim) with
  | nil => simpa [htail] using hskip
  | cons c cs =>
    rw [htail] at hskip
    by_cases hc : c = nul
    · subst hc
      simpa using hskip
    · have hrest : nul ∈ (c :: cs).dropWhile (fun c => !ends delim c) ↔
          nul ∈ c :: cs := not_mem_dropWhile (by simp [ends])
      simp only [if_neg hc]
      cases hdrop : (c :: cs).dropWhile (fun c => !ends delim c) with
      | nil =>
        rw [hdrop] at hrest
        exact fun hmem => List.not_mem_nil (hrest.2 (hskip.2 hmem))
      | cons d rest =>
        rw [hdrop] at hrest
        dsimp only
        rw [← hskip, ← hrest]
        split_ifs with hd
        · rfl
        · rw [List.mem_cons, or_iff_right (Ne.symm hd)]

end CString
