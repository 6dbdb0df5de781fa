import Mathlib.Data.List.Basic
import Mathlib.Data.List.Forall2
import Mathlib.Data.Nat.Basic
import Mathlib.Tactic.SplitIfs

/-!
# JSON texts

A decoder of JSON texts in UTF-8.  A text is the list of its bytes, each as the character with its
number, and so is a decoded string; the decoder checks the UTF-8 of the strings.

`PlainText` is what may stand between quotes as it is.  A text between quotes that decodes to itself
is plain (`string_eq_some_iff`), so a program that writes its strings without escapes is right about
the plain ones only; `value_string_iff` and the lemmas on `members` and `elements` take such a text
apart.
-/

namespace Json

inductive Value where
  | null
  | bool (value : Bool)
  /-- a number, as it is written -/
  | number (text : List Char)
  | string (text : List Char)
  | array (elements : List Value)
  | object (members : List (List Char × Value))

/-! ## Characters of a string -/

/-- The bytes that may follow a leading byte. -/
def continuation (lead : ℕ) : Option (List (ℕ × ℕ)) :=
  if 0xC2 ≤ lead ∧ lead ≤ 0xDF then some [(0x80, 0xBF)]
  else if lead = 0xE0 then some [(0xA0, 0xBF), (0x80, 0xBF)]
  else if lead = 0xED then some [(0x80, 0x9F), (0x80, 0xBF)]
  else if 0xE1 ≤ lead ∧ lead ≤ 0xEF then some [(0x80, 0xBF), (0x80, 0xBF)]
  else if lead = 0xF0 then some [(0x90, 0xBF), (0x80, 0xBF), (0x80, 0xBF)]
  else if lead = 0xF4 then some [(0x80, 0x8F), (0x80, 0xBF), (0x80, 0xBF)]
  else if 0xF1 ≤ lead ∧ lead ≤ 0xF3 then some [(0x80, 0xBF), (0x80, 0xBF), (0x80, 0xBF)]
  else none

/-- Bytes of these ranges, and what is behind them. -/
def takeRanges : List (ℕ × ℕ) → List Char → Option (List Char × List Char)
  | [], text => some ([], text)
  | _ :: _, [] => none
  | (low, high) :: ranges, c :: text =>
    if low ≤ c.toNat ∧ c.toNat ≤ high then
      (takeRanges ranges text).map fun (bytes, rest) => (c :: bytes, rest)
    else
      none

/-- A character of several bytes. -/
def multibyte (c : Char) (text : List Char) : Option (List Char × List Char) :=
  (continuation c.toNat).bind fun ranges =>
    (takeRanges ranges text).map fun (bytes, rest) => (c :: bytes, rest)

/-- The UTF-8 of a code point. -/
def utf8 (n : ℕ) : List Char :=
  (if n < 0x80 then [n]
  else if n < 0x800 then [0xC0 + n / 0x40, 0x80 + n % 0x40]
  else if n < 0x10000 then [0xE0 + n / 0x1000, 0x80 + n / 0x40 % 0x40, 0x80 + n % 0x40]
  else [0xF0 + n / 0x40000, 0x80 + n / 0x1000 % 0x40, 0x80 + n / 0x40 % 0x40, 0x80 + n % 0x40]).map
    Char.ofNat

def hexDigit (c : Char) : Option ℕ :=
  if '0' ≤ c ∧ c ≤ '9' then some (c.toNat - 48)
  else if 'A' ≤ c ∧ c ≤ 'F' then some (c.toNat - 55)
  else if 'a' ≤ c ∧ c ≤ 'f' then some (c.toNat - 87)
  else none

/-- So many digits behind the number read so far. -/
def hexDigits : ℕ → ℕ → List Char → Option (ℕ × List Char)
  | 0, value, text => some (value, text)
  | _ + 1, _, [] => none
  | n + 1, value, c :: text =>
    (hexDigit c).bind fun digit => hexDigits n (16 * value + digit) text

/-- Behind `\u`: a code unit, or two of them for a code point beyond the first plane. -/
def unicodeEscape (text : List Char) : Option (List Char × List Char) :=
  (hexDigits 4 0 text).bind fun (unit, rest) =>
    if 0xD800 ≤ unit ∧ unit ≤ 0xDBFF then
      match rest with
      | '\\' :: 'u' :: rest =>
        (hexDigits 4 0 rest).bind fun (low, rest) =>
          if 0xDC00 ≤ low ∧ low ≤ 0xDFFF then
            some (utf8 (0x10000 + (unit - 0xD800) * 0x400 + (low - 0xDC00)), rest)
          else
            none
      | _ => none
    else if 0xDC00 ≤ unit ∧ unit ≤ 0xDFFF then none
    else some (utf8 unit, rest)

/-- The escapes of one character. -/
def escapes : List (Char × Char) :=
  [('"', '"'), ('\\', '\\'), ('/', '/'), ('b', '\x08'), ('f', '\x0c'), ('n', '\n'), ('r', '\r'),
    ('t', '\t')]

/-- Behind a backslash. -/
def escape : List Char → Option (List Char × List Char)
  | [] => none
  | c :: text =>
    if c = 'u' then unicodeEscape text else (escapes.lookup c).map fun decoded => ([decoded], text)

/-- The next character of a string, decoded. -/
def character : List Char → Option (List Char × List Char)
  | [] => none
  | c :: text =>
    if c = '"' ∨ c.toNat < 0x20 then none
    else if c = '\\' then escape text
    else if c.toNat < 0x80 then some ([c], text)
    else multibyte c text

/-- The string up to its closing quote, of at most so many characters. -/
def characters : ℕ → List Char → Option (List Char × List Char)
  | 0, _ => none
  | fuel + 1, text =>
    if text.head? = some '"' then some ([], text.tail)
    else
      (character text).bind fun (decoded, rest) =>
        (characters fuel rest).map fun (string, rest) => (decoded ++ string, rest)

/-- The string behind its opening quote. -/
def string (text : List Char) : Option (List Char × List Char) := characters text.length text

/-! ## Values -/

def isWhitespace (c : Char) : Bool := c = ' ' || c = '\t' || c = '\n' || c = '\r'

def skip (text : List Char) : List Char := text.dropWhile isWhitespace

/-- The text behind this character and the whitespace before it. -/
def expect (c : Char) (text : List Char) : Option (List Char) :=
  match skip text with
  | [] => none
  | c' :: rest => if c' = c then some rest else none

def digits (text : List Char) : Option (List Char × List Char) :=
  let digits := text.takeWhile Char.isDigit
  if digits = [] then none else some (digits, text.drop digits.length)

/-- What is there, or nothing. -/
def optional (read : List Char → Option (Option (List Char × List Char))) (text : List Char) :
    Option (List Char × List Char) :=
  (read text).map fun found => found.getD ([], text)

/-- A fraction; `none` when the point has no digits. -/
def fraction : List Char → Option (Option (List Char × List Char))
  | '.' :: text => (digits text).map fun (read, rest) => some ('.' :: read, rest)
  | _ => some none

def exponent : List Char → Option (Option (List Char × List Char))
  | c :: text =>
    if c = 'e' ∨ c = 'E' then
      let (sign, text) := match text with
        | '+' :: text => (['+'], text)
        | '-' :: text => (['-'], text)
        | text => ([], text)
      (digits text).map fun (read, rest) => some (c :: sign ++ read, rest)
    else
      some none
  | [] => some none

def number (text : List Char) : Option (List Char × List Char) :=
  let (sign, text) := match text with
    | '-' :: text => (['-'], text)
    | text => ([], text)
  (digits text).bind fun (whole, rest) =>
    if whole.length ≠ 1 ∧ whole.head? = some '0' then none
    else
      (optional fraction rest).bind fun (frac, rest) =>
        (optional exponent rest).map fun (exp, rest) => (sign ++ whole ++ frac ++ exp, rest)

/-- A name for a value. -/
def literal (name : String) (value : Value) (text : List Char) : Option (Value × List Char) :=
  if name.toList.isPrefixOf text then some (value, text.drop name.toList.length) else none

mutual

/-- A value of at most this depth and length. -/
def value : ℕ → List Char → Option (Value × List Char)
  | 0, _ => none
  | fuel + 1, text =>
    match skip text with
    | [] => none
    | c :: text =>
      if c = '{' then
        if (skip text).head? = some '}' then some (.object [], (skip text).tail)
        else (members fuel text).map fun (members, rest) => (.object members, rest)
      else if c = '[' then
        if (skip text).head? = some ']' then some (.array [], (skip text).tail)
        else (elements fuel text).map fun (elements, rest) => (.array elements, rest)
      else if c = '"' then (string text).map fun (string, rest) => (.string string, rest)
      else if c = 't' then literal "true" (.bool true) (c :: text)
      else if c = 'f' then literal "false" (.bool false) (c :: text)
      else if c = 'n' then literal "null" .null (c :: text)
      else (number (c :: text)).map fun (number, rest) => (.number number, rest)

/-- The members of an object, with its closing brace. -/
def members : ℕ → List Char → Option (List (List Char × Value) × List Char)
  | 0, _ => none
  | fuel + 1, text =>
    (expect '"' text).bind fun rest =>
      (string rest).bind fun (name, rest) =>
        (expect ':' rest).bind fun rest =>
          (value fuel rest).bind fun (value, rest) =>
            if (skip rest).head? = some '}' then some ([(name, value)], (skip rest).tail)
            else
              (expect ',' rest).bind fun rest =>
                (members fuel rest).map fun (members, rest) => ((name, value) :: members, rest)

/-- The elements of an array, with its closing bracket. -/
def elements : ℕ → List Char → Option (List Value × List Char)
  | 0, _ => none
  | fuel + 1, text =>
    (value fuel text).bind fun (value, rest) =>
      if (skip rest).head? = some ']' then some ([value], (skip rest).tail)
      else
        (expect ',' rest).bind fun rest =>
          (elements fuel rest).map fun (elements, rest) => (value :: elements, rest)

end

/-- The value of a whole text. -/
def decode (text : List Char) : Option Value :=
  (value (text.length + 1) text).bind fun (value, rest) =>
    if skip rest = [] then some value else none

/-! ## Plain texts -/

def InRange (range : ℕ × ℕ) (c : Char) : Prop := range.1 ≤ c.toNat ∧ c.toNat ≤ range.2

/-- Unescaped characters: ASCII but no control character, quote or backslash, and UTF-8. -/
inductive PlainText : List Char → Prop
  | nil : PlainText []
  | ascii {c : Char} {text : List Char} (hcontrol : 0x20 ≤ c.toNat) (hascii : c.toNat < 0x80)
      (hquote : c ≠ '"') (hbackslash : c ≠ '\\') (h : PlainText text) : PlainText (c :: text)
  | multibyte {c : Char} {ranges : List (ℕ × ℕ)} {bytes text : List Char}
      (hranges : continuation c.toNat = some ranges) (hbytes : List.Forall₂ InRange ranges bytes)
      (h : PlainText text) : PlainText (c :: (bytes ++ text))

lemma plainText_of_forall {text : List Char}
    (h : ∀ c ∈ text, 0x20 ≤ c.toNat ∧ c.toNat < 0x80 ∧ c ≠ '"' ∧ c ≠ '\\') : PlainText text := by
  induction text with
  | nil => exact .nil
  | cons c text ih =>
    obtain ⟨hcontrol, hascii, hquote, hbackslash⟩ := h c List.mem_cons_self
    exact .ascii hcontrol hascii hquote hbackslash
      (ih fun c' hc' => h c' (List.mem_cons_of_mem c hc'))

variable {c : Char} {text rest raw decoded bytes : List Char} {ranges : List (ℕ × ℕ)} {n : ℕ}

lemma continuation_spec (h : continuation n = some ranges) :
    0x80 ≤ n ∧ ∀ range ∈ ranges, 0x80 ≤ range.1 := by
  rw [continuation] at h
  split_ifs at h <;> obtain rfl := Option.some.inj h <;> exact ⟨by omega, by simp⟩

lemma takeRanges_eq_some_iff : takeRanges ranges text = some (bytes, rest) ↔
    text = bytes ++ rest ∧ List.Forall₂ InRange ranges bytes := by
  induction ranges generalizing text bytes with
  | nil =>
    rw [takeRanges, Option.some.injEq, Prod.mk.injEq, List.forall₂_nil_left_iff]
    constructor
    · rintro ⟨rfl, rfl⟩
      exact ⟨rfl, rfl⟩
    · rintro ⟨rfl, rfl⟩
      exact ⟨rfl, rfl⟩
  | cons range ranges ih =>
    cases text with
    | nil =>
      simp only [takeRanges, reduceCtorEq, false_iff]
      rintro ⟨hnil, hbytes⟩
      obtain ⟨rfl, -⟩ := List.append_eq_nil_iff.mp hnil.symm
      cases hbytes
    | cons c text =>
      rw [takeRanges]
      constructor
      · intro h
        split_ifs at h with hrange
        obtain ⟨⟨bytes', rest'⟩, htake, heq⟩ := Option.map_eq_some_iff.mp h
        obtain ⟨rfl, rfl⟩ := Prod.mk.inj heq
        obtain ⟨rfl, hbytes⟩ := ih.mp htake
        exact ⟨rfl, List.Forall₂.cons hrange hbytes⟩
      · rintro ⟨heq, hbytes⟩
        cases hbytes with
        | cons hrange hbytes =>
          obtain ⟨rfl, htext⟩ := List.cons_eq_cons.mp heq
          have htake := ih.mpr ⟨htext, hbytes⟩
          rw [if_pos (by exact hrange), htake]
          rfl

lemma multibyte_eq_some_iff : multibyte c text = some (decoded, rest) ↔
    ∃ ranges bytes, continuation c.toNat = some ranges ∧ List.Forall₂ InRange ranges bytes ∧
      decoded = c :: bytes ∧ text = bytes ++ rest := by
  rw [multibyte, Option.bind_eq_some_iff]
  constructor
  · rintro ⟨ranges, hranges, h⟩
    obtain ⟨⟨bytes, rest'⟩, htake, heq⟩ := Option.map_eq_some_iff.mp h
    obtain ⟨rfl, rfl⟩ := Prod.mk.inj heq
    obtain ⟨htext, hbytes⟩ := takeRanges_eq_some_iff.mp htake
    exact ⟨ranges, bytes, hranges, hbytes, rfl, htext⟩
  · rintro ⟨ranges, bytes, hranges, hbytes, rfl, htext⟩
    exact ⟨ranges, hranges, by rw [takeRanges_eq_some_iff.mpr ⟨htext, hbytes⟩]; rfl⟩

lemma quote_not_mem_of_inRange (hranges : ∀ range ∈ ranges, 0x80 ≤ range.1)
    (h : List.Forall₂ InRange ranges bytes) : '"' ∉ bytes := by
  induction h with
  | nil => simp
  | cons hrange _ ih =>
    refine List.not_mem_cons_of_ne_of_not_mem ?_
      (ih fun range hr => hranges range (List.mem_cons_of_mem _ hr))
    rintro rfl
    have hlow := hranges _ List.mem_cons_self
    have hhigh := hrange.1
    have : '"'.toNat = 34 := rfl
    omega

lemma quote_not_mem_of_plain (h : PlainText text) : '"' ∉ text := by
  induction h with
  | nil => simp
  | ascii _ _ hquote _ _ ih => exact List.not_mem_cons_of_ne_of_not_mem (Ne.symm hquote) ih
  | @multibyte c ranges bytes text hranges hbytes _ ih =>
    have hlead := (continuation_spec hranges).1
    refine List.not_mem_cons_of_ne_of_not_mem ?_ (fun hmem => ?_)
    · rintro rfl
      exact absurd hlead (by decide)
    · exact (List.mem_append.mp hmem).elim
        (quote_not_mem_of_inRange (continuation_spec hranges).2 hbytes) ih

lemma length_utf8 (n : ℕ) : (utf8 n).length ≤ 4 := by
  rw [utf8]
  split_ifs <;> simp

lemma hexDigits_spec : ∀ {n value value' : ℕ} {text : List Char},
    hexDigits n value text = some (value', rest) →
    ∃ raw, text = raw ++ rest ∧ raw.length = n ∧ '"' ∉ raw
  | 0, _, _, _, h => ⟨[], by simpa using (Prod.mk.inj (Option.some.inj h)).2, rfl, by simp⟩
  | _ + 1, _, _, [], h => by cases h
  | n + 1, _, _, c :: text, h => by
    obtain ⟨digit, hdigit, h⟩ := Option.bind_eq_some_iff.mp h
    obtain ⟨raw, rfl, rfl, hquote⟩ := hexDigits_spec h
    refine ⟨c :: raw, rfl, rfl, List.not_mem_cons_of_ne_of_not_mem ?_ hquote⟩
    rintro rfl
    simp [hexDigit] at hdigit

/-- What `character` reads and decodes. -/
structure Reads (raw decoded : List Char) : Prop where
  pos : 0 < raw.length
  plain : (decoded = raw ∧ ∀ text, PlainText text → PlainText (raw ++ text)) ∨
    decoded.length < raw.length
  quote : '"' ∈ raw → raw = ['\\', '"'] ∧ decoded = ['"']

lemma unicodeEscape_spec (h : unicodeEscape text = some (decoded, rest)) :
    ∃ raw, text = raw ++ rest ∧ decoded.length < raw.length + 2 ∧ '"' ∉ raw := by
  rw [unicodeEscape, Option.bind_eq_some_iff] at h
  obtain ⟨⟨unit, rest'⟩, hunit, hunits⟩ := h
  obtain ⟨raw, rfl, hlength, hquote⟩ := hexDigits_spec hunit
  simp only at hunits
  split_ifs at hunits
  · split at hunits
    · obtain ⟨⟨low, rest''⟩, hlow, hpair⟩ := Option.bind_eq_some_iff.mp hunits
      obtain ⟨raw', rfl, hlength', hquote'⟩ := hexDigits_spec hlow
      simp only at hpair
      split_ifs at hpair
      obtain ⟨rfl, rfl⟩ := Prod.mk.inj (Option.some.inj hpair)
      refine ⟨raw ++ '\\' :: 'u' :: raw', by simp, ?_, by simp [hquote, hquote']⟩
      have := length_utf8 (0x10000 + (unit - 0xD800) * 0x400 + (low - 0xDC00))
      simp only [List.length_append, List.length_cons]
      omega
    · cases hunits
  · obtain ⟨rfl, rfl⟩ := Prod.mk.inj (Option.some.inj hunits)
    have := length_utf8 unit
    exact ⟨raw, rfl, by omega, hquote⟩

lemma escape_spec (h : escape text = some (decoded, rest)) :
    ∃ raw, text = raw ++ rest ∧ Reads ('\\' :: raw) decoded := by
  cases text with
  | nil => cases h
  | cons c text =>
    rw [escape] at h
    split_ifs at h with hu
    · obtain ⟨raw, rfl, hlength, hquote⟩ := unicodeEscape_spec h
      have hshorter : decoded.length < ('\\' :: c :: raw).length := by
        simp only [List.length_cons]
        omega
      refine ⟨c :: raw, rfl, by simp, Or.inr hshorter, fun hmem => ?_⟩
      subst hu
      simp [hquote] at hmem
    · obtain ⟨d, hlookup, heq⟩ := Option.map_eq_some_iff.mp h
      obtain ⟨rfl, rfl⟩ := Prod.mk.inj heq
      refine ⟨[c], rfl, by simp, Or.inr (by simp), fun hmem => ?_⟩
      obtain rfl : c = '"' := by simpa [eq_comm] using hmem
      obtain rfl : '"' = d := by simpa [escapes] using hlookup
      exact ⟨rfl, rfl⟩

lemma character_spec (h : character text = some (decoded, rest)) :
    ∃ raw, text = raw ++ rest ∧ Reads raw decoded := by
  cases text with
  | nil => cases h
  | cons c text =>
    rw [character] at h
    split_ifs at h with hbad hbackslash hascii
    · subst hbackslash
      obtain ⟨raw, rfl, hreads⟩ := escape_spec h
      exact ⟨'\\' :: raw, rfl, hreads⟩
    · obtain ⟨rfl, rfl⟩ := Prod.mk.inj (Option.some.inj h)
      refine ⟨[c], rfl, by simp, Or.inl ⟨rfl, fun text => ?_⟩, fun hmem => ?_⟩
      · exact PlainText.ascii (by omega) hascii (fun hq => hbad (Or.inl hq)) hbackslash
      · exact absurd (Or.inl (by simpa [eq_comm] using hmem)) hbad
    · obtain ⟨ranges, bytes, hranges, hbytes, rfl, rfl⟩ := multibyte_eq_some_iff.mp h
      refine ⟨c :: bytes, rfl, by simp, Or.inl ⟨rfl, fun text => ?_⟩, fun hmem => ?_⟩
      · exact PlainText.multibyte hranges hbytes
      · refine absurd hmem (List.not_mem_cons_of_ne_of_not_mem (fun hq => hbad (Or.inl hq.symm)) ?_)
        exact quote_not_mem_of_inRange (continuation_spec hranges).2 hbytes

/-! ## Strings -/

variable {fuel : ℕ}

/-- A decoded string is no longer than its text, and the text is plain if it is as long.  A quote in
the text is escaped, so that one comes earlier in the string. -/
lemma characters_spec : ∀ {fuel : ℕ} {text decoded : List Char},
    characters fuel text = some (decoded, rest) → ∃ raw, text = raw ++ '"' :: rest ∧
      decoded.length ≤ raw.length ∧
      (decoded.length = raw.length → decoded = raw ∧ PlainText raw) ∧
      ('"' ∈ raw → decoded.idxOf '"' < raw.idxOf '"') := by
  intro fuel
  induction fuel with
  | zero => exact nofun
  | succ fuel ih =>
    intro text decoded h
    rw [characters] at h
    split_ifs at h with hend
    · obtain ⟨rfl, rfl⟩ := Prod.mk.inj (Option.some.inj h)
      refine ⟨[], ?_, le_rfl, fun _ => ⟨rfl, .nil⟩, by simp⟩
      cases text with
      | nil => cases hend
      | cons c text =>
        obtain rfl := Option.some.inj hend
        rfl
    · obtain ⟨⟨d, rest'⟩, hcharacter, hstring⟩ := Option.bind_eq_some_iff.mp h
      obtain ⟨raw, rfl, hpos, hplain, hquote⟩ := character_spec hcharacter
      obtain ⟨⟨decoded', rest''⟩, hcharacters, heq⟩ := Option.map_eq_some_iff.mp hstring
      obtain ⟨rfl, rfl⟩ := Prod.mk.inj heq
      obtain ⟨raw', rfl, hle, heq', hquote'⟩ := ih hcharacters
      refine ⟨raw ++ raw', by simp, ?_, fun hlength => ?_, fun hmem => ?_⟩
      · have : d.length ≤ raw.length := hplain.elim
          (fun h => Nat.le_of_eq (congrArg _ h.1)) Nat.le_of_lt
        simp only [List.length_append]
        omega
      · simp only [List.length_append] at hlength
        rcases hplain with ⟨rfl, happend⟩ | hlt
        · obtain ⟨rfl, hplain'⟩ := heq' (by omega)
          exact ⟨rfl, happend _ hplain'⟩
        · omega
      · by_cases hraw : '"' ∈ raw
        · obtain ⟨rfl, rfl⟩ := hquote hraw
          simp
        · have hlt := hquote' ((List.mem_append.mp hmem).resolve_left hraw)
          have hle : d.length ≤ raw.length :=
            hplain.elim (fun h => Nat.le_of_eq (congrArg _ h.1)) Nat.le_of_lt
          rw [List.idxOf_append_of_notMem hraw]
          by_cases hd : '"' ∈ d
          · have := List.idxOf_lt_length_iff.mpr hd
            rw [List.idxOf_append_of_mem hd]
            omega
          · rw [List.idxOf_append_of_notMem hd]
            omega

lemma characters_of_plain (h : PlainText text) : ∀ {fuel : ℕ}, text.length < fuel →
    characters fuel (text ++ '"' :: rest) = some (text, rest) := by
  induction h with
  | nil =>
    intro fuel hfuel
    cases fuel with
    | zero => cases hfuel
    | succ fuel => rfl
  | @ascii c text hcontrol hascii hquote hbackslash _ ih =>
    intro fuel hfuel
    cases fuel with
    | zero => cases hfuel
    | succ fuel =>
      have hcharacter : character (c :: (text ++ '"' :: rest)) =
          some ([c], text ++ '"' :: rest) := by
        rw [character, if_neg (by rintro (h | h) <;> [exact hquote h; omega]), if_neg hbackslash,
          if_pos hascii]
      rw [List.cons_append, characters, if_neg (by simpa using hquote), hcharacter]
      simp [ih (by simpa using hfuel)]
  | @multibyte c ranges bytes text hranges hbytes _ ih =>
    intro fuel hfuel
    cases fuel with
    | zero => cases hfuel
    | succ fuel =>
      have hlead := (continuation_spec hranges).1
      have hquote : c ≠ '"' := by
        rintro rfl
        exact absurd hlead (by decide)
      have hbackslash : c ≠ '\\' := by
        rintro rfl
        exact absurd hlead (by decide)
      have hcharacter : character (c :: (bytes ++ (text ++ '"' :: rest))) =
          some (c :: bytes, text ++ '"' :: rest) := by
        rw [character, if_neg (by rintro (h | h) <;> [exact hquote h; omega]), if_neg hbackslash,
          if_neg (by omega)]
        exact multibyte_eq_some_iff.mpr ⟨ranges, bytes, hranges, hbytes, rfl, rfl⟩
      rw [List.cons_append, List.append_assoc, characters, if_neg (by simpa using hquote),
        hcharacter]
      have hlength : text.length < fuel := by
        simp only [List.length_cons, List.length_append] at hfuel
        omega
      simp [ih hlength]

/-- **A text between quotes decodes to itself exactly when it is plain.** -/
theorem string_eq_some_iff {rest' : List Char} :
    string (text ++ '"' :: rest) = some (text, rest') ↔ PlainText text ∧ rest' = rest := by
  constructor
  · intro h
    obtain ⟨raw, heq, hle, hplain, hquote⟩ := characters_spec h
    rcases List.append_eq_append_iff.mp heq with ⟨l, rfl, hl⟩ | ⟨l, rfl, hl⟩
    · cases l with
      | nil =>
        rw [List.append_nil] at hplain
        exact ⟨(hplain rfl).2, (List.cons_eq_cons.mp hl).2.symm⟩
      | cons c l =>
        -- the closing quote was escaped, so an earlier one was
        obtain ⟨rfl, -⟩ := List.cons_eq_cons.mp hl
        have hlt := hquote (by simp)
        by_cases hmem : '"' ∈ text
        · rw [List.idxOf_append_of_mem hmem] at hlt
          exact absurd hlt (lt_irrefl _)
        · rw [List.idxOf_append_of_notMem hmem, List.idxOf_of_notMem hmem] at hlt
          simp at hlt
    · cases l with
      | nil =>
        rw [List.append_nil] at hplain ⊢
        exact ⟨(hplain rfl).2, (List.cons_eq_cons.mp hl).2⟩
      | cons c l =>
        simp only [List.length_append, List.length_cons] at hle
        omega
  · rintro ⟨hplain, rfl⟩
    exact characters_of_plain hplain (by simp)

/-! ## Members and elements -/

variable {name : List Char} {v : Value} {ms : List (List Char × Value)} {vs : List Value}

lemma skip_cons (h : isWhitespace c = false) : skip (c :: text) = c :: text := by
  rw [skip, List.dropWhile_cons_of_neg (by simp [h])]

lemma expect_cons (h : isWhitespace c = false) : expect c (c :: text) = some text := by
  rw [expect, skip_cons h]
  simp

lemma value_space (fuel : ℕ) (text : List Char) : value fuel (' ' :: text) = value fuel text := by
  cases fuel with
  | zero => rfl
  | succ fuel => rfl

/-- A value that reads as this text between quotes. -/
lemma value_string_iff {rest' : List Char} :
    value (fuel + 1) ('"' :: (text ++ '"' :: rest)) = some (.string text, rest') ↔
      PlainText text ∧ rest' = rest := by
  rw [← string_eq_some_iff, value, skip_cons rfl]
  simp only [Char.reduceEq, if_false, if_true]
  constructor
  · intro h
    obtain ⟨⟨text', rest''⟩, hstring, heq⟩ := Option.map_eq_some_iff.mp h
    obtain ⟨htext, rfl⟩ := Prod.mk.inj heq
    obtain rfl := Value.string.inj htext
    exact hstring
  · intro h
    rw [h]
    rfl

/-- A member by its name and value. -/
lemma members_eq (hname : PlainText name) :
    members (fuel + 1) ('"' :: (name ++ '"' :: ':' :: text)) =
      (value fuel text).bind fun (v, rest) =>
        if (skip rest).head? = some '}' then some ([(name, v)], (skip rest).tail)
        else (expect ',' rest).bind fun rest =>
          (members fuel rest).map fun (ms, rest) => ((name, v) :: ms, rest) := by
  rw [members, expect_cons rfl, Option.bind_some, string_eq_some_iff.mpr ⟨hname, rfl⟩,
    Option.bind_some]
  exact congrArg (Option.bind · _) (expect_cons rfl)

lemma members_head (hname : PlainText name)
    (h : members (fuel + 1) ('"' :: (name ++ '"' :: ':' :: text)) = some (ms, rest)) :
    ∃ v rest' ms', value fuel text = some (v, rest') ∧ ms = (name, v) :: ms' := by
  rw [members_eq hname] at h
  obtain ⟨⟨v, rest'⟩, hvalue, h⟩ := Option.bind_eq_some_iff.mp h
  simp only at h
  split_ifs at h
  · obtain ⟨rfl, -⟩ := Prod.mk.inj (Option.some.inj h)
    exact ⟨v, rest', [], hvalue, rfl⟩
  · obtain ⟨rest'', -, hmembers⟩ := Option.bind_eq_some_iff.mp h
    obtain ⟨⟨ms', _⟩, -, heq⟩ := Option.map_eq_some_iff.mp hmembers
    obtain ⟨rfl, -⟩ := Prod.mk.inj heq
    exact ⟨v, rest', ms', hvalue, rfl⟩

lemma members_comma (hname : PlainText name) (hvalue : value fuel text = some (v, ',' :: rest)) :
    members (fuel + 1) ('"' :: (name ++ '"' :: ':' :: text)) =
      (members fuel rest).map fun (ms, rest) => ((name, v) :: ms, rest) := by
  rw [members_eq hname, hvalue, Option.bind_some]
  simp only [skip_cons (c := ',') rfl, expect_cons (c := ',') rfl, List.head?_cons,
    Option.some.injEq, Char.reduceEq, if_false, Option.bind_some]

lemma members_brace (hname : PlainText name) (hvalue : value fuel text = some (v, '}' :: rest)) :
    members (fuel + 1) ('"' :: (name ++ '"' :: ':' :: text)) = some ([(name, v)], rest) := by
  rw [members_eq hname, hvalue]
  rfl

lemma elements_head (h : elements (fuel + 1) text = some (vs, rest)) :
    ∃ v rest' vs', value fuel text = some (v, rest') ∧ vs = v :: vs' := by
  rw [elements] at h
  obtain ⟨⟨v, rest'⟩, hvalue, h⟩ := Option.bind_eq_some_iff.mp h
  simp only at h
  split_ifs at h
  · obtain ⟨rfl, -⟩ := Prod.mk.inj (Option.some.inj h)
    exact ⟨v, rest', [], hvalue, rfl⟩
  · obtain ⟨rest'', -, helements⟩ := Option.bind_eq_some_iff.mp h
    obtain ⟨⟨vs', _⟩, -, heq⟩ := Option.map_eq_some_iff.mp helements
    obtain ⟨rfl, -⟩ := Prod.mk.inj heq
    exact ⟨v, rest', vs', hvalue, rfl⟩

lemma elements_comma (hvalue : value fuel text = some (v, ',' :: rest)) :
    elements (fuel + 1) text =
      (elements fuel rest).map fun (vs, rest) => (v :: vs, rest) := by
  rw [elements, hvalue, Option.bind_some]
  simp only [skip_cons (c := ',') rfl, expect_cons (c := ',') rfl, List.head?_cons,
    Option.some.injEq, Char.reduceEq, if_false, Option.bind_some]

lemma elements_bracket (hvalue : value fuel text = some (v, ']' :: rest)) :
    elements (fuel + 1) text = some ([v], rest) := by
  rw [elements, hvalue]
  rfl

/-- An object that is not empty is its members. -/
lemma value_brace (text : List Char) (fuel : ℕ) : value (fuel + 1) ('{' :: '"' :: text) =
    (members fuel ('"' :: text)).map fun (ms, rest) => (.object ms, rest) := rfl

lemma value_bracket (text : List Char) (fuel : ℕ) : value (fuel + 1) ('[' :: '{' :: text) =
    (elements fuel ('{' :: text)).map fun (vs, rest) => (.array vs, rest) := rfl

end Json
