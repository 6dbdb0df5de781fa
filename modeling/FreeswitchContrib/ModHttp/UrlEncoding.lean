import FreeswitchContrib.ModHttp.JsonResponse
import Mathlib.Data.List.Basic

/-!
# URL encoding, byte by byte

`url_encode` and `url_decode` on memory: a read behind the end of the string's memory and a write
behind the end of the output buffer are `none`.  The buffer is as large as `malloc` is asked for and
holds anything; that there is no memory is not modelled, and positions are natural numbers, since no
caller has a text of 2 GiB.

`url_decode` takes three characters for a percent sign and looks at the length only before it, so a
percent sign at the very end has it read behind the NUL.

* `urlDecode_urlEncode`: decoding undoes encoding, for all bytes;
* `urlDecode_safe_iff`: the strings that are decoded without reading behind them.
-/

namespace FreeswitchContrib.ModHttp.UrlEncoding

/-! ## Bytes -/

def toByte (c : Char) : UInt8 := UInt8.ofNat c.toNat

def toChar (c : UInt8) : Char := Char.ofNat c.toNat

def percent : UInt8 := toByte '%'

/-- The bytes that `url_encode` encodes. -/
def isReserved (c : UInt8) : Bool :=
  decide (c ≤ 31) || decide (127 ≤ c) || (urlReserved.map toByte).contains c

/-- `%X`, of a number below 16. -/
def hexDigit (n : UInt8) : UInt8 := if n < 10 then toByte '0' + n else toByte 'A' + (n - 10)

/-- What is printed for a byte. -/
def encodeByte (c : UInt8) : List UInt8 :=
  if isReserved c then [percent, hexDigit (c >>> 4), hexDigit (c &&& 15)] else [c]

def toupper (c : UInt8) : UInt8 := if toByte 'a' ≤ c ∧ c ≤ toByte 'z' then c - 32 else c

/-- `d0` and `d1` at the end: a character that is no digit is left as it is.  A byte from 128 on is
negative, and in no range either. -/
def hexValue (d : UInt8) : UInt8 :=
  let d := toupper d
  if toByte 'A' ≤ d ∧ d ≤ toByte 'F' then d - toByte 'A' + 10
  else if toByte '0' ≤ d ∧ d ≤ toByte '9' then d - toByte '0'
  else d

/-- The byte that two characters stand for. -/
def decodePair (d1 d0 : UInt8) : UInt8 := (hexValue d1 <<< 4) + hexValue d0

/-! ## Memory -/

/-- A buffer of this size, which is not initialised. -/
def malloc (fresh : ℕ → UInt8) (size : ℕ) : List UInt8 := (List.range size).map fresh

/-- The buffer after these bytes are written at this place. -/
def write (buf : List UInt8) (j : ℕ) (bytes : List UInt8) : Option (List UInt8) :=
  if j + bytes.length ≤ buf.length then
    some (buf.take j ++ (bytes ++ buf.drop (j + bytes.length)))
  else
    none

/-- The loop of `url_encode`: `j` and the buffer at its end.  `sprintf` writes a NUL as well. -/
def urlEncodeLoop (url : List UInt8) (l i j : ℕ) (buf : List UInt8) :
    Option (ℕ × List UInt8) :=
  if _h : i < l then do
    let c ← url[i]?
    if isReserved c then
      let buf ← write buf j [percent, hexDigit (c >>> 4), hexDigit (c &&& 15), 0]
      urlEncodeLoop url l (i + 1) (j + 3) buf
    else
      let buf ← write buf j [c]
      urlEncodeLoop url l (i + 1) (j + 1) buf
  else
    some (j, buf)
termination_by l - i

def urlEncode (fresh : ℕ → UInt8) (url : List UInt8) (l : ℕ) : Option (List UInt8) := do
  let (j, buf) ← urlEncodeLoop url l 0 0 (malloc fresh (l * 3 + 1))
  write buf j [0]

/-- The loop of `url_decode`. -/
def urlDecodeLoop (url : List UInt8) (l i j : ℕ) (buf : List UInt8) :
    Option (ℕ × List UInt8) :=
  if _h : i < l then do
    let c ← url[i]?
    if c = percent then
      let d0 ← url[i + 2]?
      let d1 ← url[i + 1]?
      let buf ← write buf j [decodePair d1 d0]
      urlDecodeLoop url l (i + 3) (j + 1) buf
    else
      let buf ← write buf j [c]
      urlDecodeLoop url l (i + 1) (j + 1) buf
  else
    some (j, buf)
termination_by l - i

def urlDecode (fresh : ℕ → UInt8) (url : List UInt8) (l : ℕ) : Option (List UInt8) := do
  let (j, buf) ← urlDecodeLoop url l 0 0 (malloc fresh (l + 1))
  write buf j [0]

/-! ## One byte -/

variable {fresh : ℕ → UInt8} {x bytes out junk more : List UInt8} {c : UInt8} {l i j : ℕ}
  {buf : List UInt8}

lemma forall_byte {p : UInt8 → Prop} (h : ∀ n : Fin 256, p (UInt8.ofFin n)) (c : UInt8) : p c :=
  h c.toFin

/-- Both hexadecimal digits together are the byte. -/
lemma decodePair_hexDigit (c : UInt8) :
    decodePair (hexDigit (c >>> 4)) (hexDigit (c &&& 15)) = c := by
  revert c
  exact forall_byte (by decide +kernel)

lemma zero_notMem_encodeByte (c : UInt8) : 0 ∉ encodeByte c := by
  revert c
  exact forall_byte (by decide +kernel)

lemma toChar_encodeByte (c : UInt8) : (encodeByte c).map toChar = ModHttp.urlEncode [toChar c] := by
  revert c
  exact forall_byte (by decide +kernel)

lemma encodeByte_of_reserved (hc : isReserved c = true) :
    encodeByte c = [percent, hexDigit (c >>> 4), hexDigit (c &&& 15)] := by
  rw [encodeByte, if_pos hc]

lemma encodeByte_of_not_reserved (hc : isReserved c = false) : encodeByte c = [c] := by
  rw [encodeByte, hc, if_neg Bool.false_ne_true]

lemma ne_percent (hc : isReserved c = false) : c ≠ percent := by
  rintro rfl
  exact absurd hc (by decide)

lemma length_encodeByte (c : UInt8) : 1 ≤ (encodeByte c).length ∧ (encodeByte c).length ≤ 3 := by
  cases hc : isReserved c with
  | true =>
    rw [encodeByte_of_reserved hc]
    exact ⟨Nat.succ_pos 2, le_rfl⟩
  | false =>
    rw [encodeByte_of_not_reserved hc]
    exact ⟨le_rfl, Nat.succ_pos 2⟩

lemma length_encode (x : List UInt8) :
    x.length ≤ (x.flatMap encodeByte).length ∧ (x.flatMap encodeByte).length ≤ 3 * x.length := by
  induction x with
  | nil => exact ⟨le_rfl, le_rfl⟩
  | cons c x ih =>
    have hc := length_encodeByte c
    rw [List.flatMap_cons, List.length_append, List.length_cons]
    omega

/-- What is written is the text of the reply's body. -/
lemma toChar_encode (x : List UInt8) :
    (x.flatMap encodeByte).map toChar = ModHttp.urlEncode (x.map toChar) := by
  induction x with
  | nil => rfl
  | cons c x ih =>
    have hc := toChar_encodeByte c
    rw [ModHttp.urlEncode, List.flatMap_singleton] at hc
    rw [List.flatMap_cons, List.map_append, ih, hc]
    rfl

/-! ## Writing -/

lemma length_malloc (fresh : ℕ → UInt8) (size : ℕ) : (malloc fresh size).length = size := by
  rw [malloc, List.length_map, List.length_range]

/-- Bytes that are written behind others take the place of what is there. -/
lemma write_append (hroom : bytes.length ≤ junk.length) :
    write (out ++ junk) out.length bytes = some (out ++ (bytes ++ junk.drop bytes.length)) := by
  rw [write, if_pos (by rw [List.length_append]; omega), List.take_left,
    List.drop_length_add_append]

lemma write_of_le (hroom : j + bytes.length ≤ buf.length) :
    ∃ buf', write buf j bytes = some buf' ∧ buf'.length = buf.length := by
  refine ⟨_, if_pos hroom, ?_⟩
  simp only [List.length_append, List.length_take, List.length_drop]
  omega

/-! ## One turn of a loop -/

lemma urlEncodeLoop_of_reserved (hi : i < l) (hget : x[i]? = some c) (hc : isReserved c = true) :
    urlEncodeLoop x l i j buf
      = (write buf j [percent, hexDigit (c >>> 4), hexDigit (c &&& 15), 0]).bind
          (urlEncodeLoop x l (i + 1) (j + 3)) := by
  rw [urlEncodeLoop, dif_pos hi, hget]
  exact if_pos hc

lemma urlEncodeLoop_of_not_reserved (hi : i < l) (hget : x[i]? = some c)
    (hc : isReserved c = false) : urlEncodeLoop x l i j buf
      = (write buf j [c]).bind (urlEncodeLoop x l (i + 1) (j + 1)) := by
  rw [urlEncodeLoop, dif_pos hi, hget]
  exact if_neg (by rw [hc]; exact Bool.false_ne_true)

lemma urlDecodeLoop_of_percent {d1 d0 : UInt8} (hi : i < l) (hget : x[i]? = some percent)
    (h1 : x[i + 1]? = some d1) (h0 : x[i + 2]? = some d0) : urlDecodeLoop x l i j buf
      = (write buf j [decodePair d1 d0]).bind (urlDecodeLoop x l (i + 3) (j + 1)) := by
  rw [urlDecodeLoop, dif_pos hi, hget, Option.bind_eq_bind, Option.bind_some, if_pos rfl, h1, h0]
  rfl

lemma urlDecodeLoop_of_outside (hi : i < l) (hget : x[i]? = some percent)
    (h0 : x[i + 2]? = none) : urlDecodeLoop x l i j buf = none := by
  rw [urlDecodeLoop, dif_pos hi, hget, Option.bind_eq_bind, Option.bind_some, if_pos rfl, h0]
  rfl

lemma urlDecodeLoop_of_ne (hi : i < l) (hget : x[i]? = some c) (hc : c ≠ percent) :
    urlDecodeLoop x l i j buf = (write buf j [c]).bind (urlDecodeLoop x l (i + 1) (j + 1)) := by
  rw [urlDecodeLoop, dif_pos hi, hget]
  exact if_neg hc

/-! ## The round trip -/

/-- **The loop of `url_encode`** writes the encoded bytes, with room for a NUL behind them. -/
theorem urlEncodeLoop_eq : ∀ (x before out junk : List UInt8), 3 * x.length < junk.length →
    ∃ junk', junk'.length + (x.flatMap encodeByte).length = junk.length ∧
      urlEncodeLoop (before ++ x) (before ++ x).length before.length out.length (out ++ junk)
        = some ((out ++ x.flatMap encodeByte).length, out ++ x.flatMap encodeByte ++ junk')
  | [], before, out, junk, _ => by
    refine ⟨junk, rfl, ?_⟩
    rw [urlEncodeLoop, dif_neg (by simp), List.flatMap_nil, List.append_nil]
  | c :: x, before, out, junk, hroom => by
    rw [List.length_cons] at hroom
    have hi : before.length < (before ++ c :: x).length := by simp
    have hget : (before ++ c :: x)[before.length]? = some c := by simp
    have hnext : before ++ [c] ++ x = before ++ c :: x := by simp
    have hout : out ++ (c :: x).flatMap encodeByte
        = out ++ encodeByte c ++ x.flatMap encodeByte := by simp
    have hlen : ((c :: x).flatMap encodeByte).length
        = (encodeByte c).length + (x.flatMap encodeByte).length := by simp
    rw [hout, hlen]
    have hpos : (before ++ [c]).length = before.length + 1 := by simp
    have hj : (out ++ encodeByte c).length = out.length + (encodeByte c).length := by simp
    cases hc : isReserved c with
    | true =>
      have hbyte := encodeByte_of_reserved hc
      have hthree : (encodeByte c).length = 3 := by rw [hbyte]; rfl
      obtain ⟨junk', hjunk, ih⟩ := urlEncodeLoop_eq x (before ++ [c]) (out ++ encodeByte c)
        (0 :: junk.drop 4) (by rw [List.length_cons, List.length_drop]; omega)
      rw [List.length_cons, List.length_drop] at hjunk
      refine ⟨junk', by omega, ?_⟩
      have hwrite : write (out ++ junk) out.length
            [percent, hexDigit (c >>> 4), hexDigit (c &&& 15), 0]
          = some (out ++ encodeByte c ++ 0 :: junk.drop 4) := by
        rw [write_append (by simp only [List.length_cons, List.length_nil]; omega), hbyte]
        simp
      rw [urlEncodeLoop_of_reserved hi hget hc, hwrite, Option.bind_some, ← ih, hnext, hpos, hj,
        hthree]
    | false =>
      have hbyte := encodeByte_of_not_reserved hc
      have hone : (encodeByte c).length = 1 := by rw [hbyte]; rfl
      obtain ⟨junk', hjunk, ih⟩ := urlEncodeLoop_eq x (before ++ [c]) (out ++ encodeByte c)
        (junk.drop 1) (by rw [List.length_drop]; omega)
      rw [List.length_drop] at hjunk
      refine ⟨junk', by omega, ?_⟩
      have hwrite : write (out ++ junk) out.length [c]
          = some (out ++ encodeByte c ++ junk.drop 1) := by
        rw [write_append (by simp only [List.length_cons, List.length_nil]; omega), hbyte]
        simp
      rw [urlEncodeLoop_of_not_reserved hi hget hc, hwrite, Option.bind_some, ← ih, hnext, hpos, hj,
        hone]

/-- **The loop of `url_decode`** on encoded bytes. -/
theorem urlDecodeLoop_encoded (l : ℕ) : ∀ (x before more out junk : List UInt8),
    l = before.length + (x.flatMap encodeByte).length → x.length ≤ junk.length →
    urlDecodeLoop (before ++ (x.flatMap encodeByte ++ more)) l before.length out.length
        (out ++ junk)
      = some ((out ++ x).length, out ++ x ++ junk.drop x.length)
  | [], before, more, out, junk, hl, _ => by
    rw [urlDecodeLoop, dif_neg (by simp [hl])]
    simp
  | c :: x, before, more, out, junk, hl, hroom => by
    rw [List.length_cons] at hroom
    have hsplit : (c :: x).flatMap encodeByte = encodeByte c ++ x.flatMap encodeByte := rfl
    rw [hsplit, List.length_append] at hl
    have ih := urlDecodeLoop_encoded l x (before ++ encodeByte c) more (out ++ [c]) (junk.drop 1)
      (by rw [List.length_append]; omega) (by rw [List.length_drop]; omega)
    have hwrite : write (out ++ junk) out.length [c] = some (out ++ [c] ++ junk.drop 1) := by
      rw [write_append (by rw [List.length_singleton]; omega), List.append_assoc]
      rfl
    have hnext : before ++ encodeByte c ++ (x.flatMap encodeByte ++ more)
        = before ++ (encodeByte c ++ x.flatMap encodeByte ++ more) := by simp
    have hend : (out ++ [c] ++ x).length = (out ++ c :: x).length ∧
        out ++ [c] ++ x ++ (junk.drop 1).drop x.length
          = out ++ c :: x ++ junk.drop (c :: x).length := by
      simp
    rw [hend.1, hend.2, hnext, List.length_append, List.length_append] at ih
    rw [hsplit, ← ih]
    cases hc : isReserved c with
    | true =>
      have hbyte := encodeByte_of_reserved hc
      rw [hbyte] at hl ⊢
      rw [List.length_cons] at hl
      set url := before ++
        ([percent, hexDigit (c >>> 4), hexDigit (c &&& 15)] ++ x.flatMap encodeByte ++ more)
        with hurl
      have h : url[before.length]? = some percent := by simp [hurl]
      have h1 : url[before.length + 1]? = some (hexDigit (c >>> 4)) := by simp [hurl]
      have h0 : url[before.length + 2]? = some (hexDigit (c &&& 15)) := by simp [hurl]
      rw [urlDecodeLoop_of_percent (by omega) h h1 h0, decodePair_hexDigit, hwrite,
        Option.bind_some]
      rfl
    | false =>
      have hbyte := encodeByte_of_not_reserved hc
      rw [hbyte] at hl ⊢
      rw [List.length_singleton] at hl
      rw [urlDecodeLoop_of_ne (by omega) (by simp) (ne_percent hc), hwrite, Option.bind_some]
      rfl

/-- The length of the string in a buffer. -/
def strlen (buf : List UInt8) : ℕ := (buf.takeWhile (· ≠ 0)).length

lemma zero_notMem_encode (x : List UInt8) : 0 ∉ x.flatMap encodeByte := by
  intro hmem
  obtain ⟨c, -, hc⟩ := List.mem_flatMap.mp hmem
  exact zero_notMem_encodeByte c hc

lemma strlen_append (hzero : 0 ∉ bytes) (rest : List UInt8) :
    strlen (bytes ++ 0 :: rest) = bytes.length := by
  have hall : ∀ c ∈ bytes, decide (c ≠ 0) = true := by
    intro c hc
    exact decide_eq_true fun heq => hzero (heq ▸ hc)
  rw [strlen, List.takeWhile_append_of_pos hall]
  simp

/-- **Encoding** fits its buffer, and is the encoded bytes and a NUL. -/
theorem urlEncode_eq (fresh : ℕ → UInt8) (x : List UInt8) :
    ∃ rest, urlEncode fresh x x.length = some (x.flatMap encodeByte ++ 0 :: rest) ∧
      (x.flatMap encodeByte ++ 0 :: rest).length = 3 * x.length + 1 := by
  have hlen := length_malloc fresh (x.length * 3 + 1)
  obtain ⟨junk, hjunk, hloop⟩ := urlEncodeLoop_eq x [] [] (malloc fresh (x.length * 3 + 1))
    (by omega)
  have hle := length_encode x
  rw [List.nil_append, List.nil_append, List.nil_append, List.length_nil] at hloop
  refine ⟨junk.drop 1, ?_, ?_⟩
  · rw [urlEncode, hloop, Option.bind_eq_bind, Option.bind_some]
    simp only
    rw [write_append (by rw [List.length_singleton]; omega)]
    rfl
  · rw [List.length_append, List.length_cons, List.length_drop]
    omega

/-- **Decoding undoes encoding.**  For all bytes, whatever the buffers held before: the encoded
string fits its buffer and has no NUL before its end, and decoding it gives the bytes back, with a
NUL behind them. -/
theorem urlDecode_urlEncode (fresh fresh' : ℕ → UInt8) (x : List UInt8) :
    ∃ e rest, urlEncode fresh x x.length = some (e ++ 0 :: rest) ∧ 0 ∉ e ∧
      (e ++ 0 :: rest).length = 3 * x.length + 1 ∧
      ∃ rest', urlDecode fresh' (e ++ 0 :: rest) (strlen (e ++ 0 :: rest))
          = some (x ++ 0 :: rest') ∧
        (x ++ 0 :: rest').length = e.length + 1 := by
  obtain ⟨rest, hencode, hlen⟩ := urlEncode_eq fresh x
  have hzero := zero_notMem_encode x
  refine ⟨x.flatMap encodeByte, rest, hencode, hzero, hlen, ?_⟩
  rw [strlen_append hzero]
  set e := x.flatMap encodeByte with he
  have hmalloc := length_malloc fresh' (e.length + 1)
  have hle : x.length ≤ e.length := (length_encode x).1
  have hloop := urlDecodeLoop_encoded e.length x [] (0 :: rest) [] (malloc fresh' (e.length + 1))
    (by rw [List.length_nil, Nat.zero_add]) (by omega)
  rw [List.nil_append, List.nil_append, List.nil_append, List.length_nil, ← he] at hloop
  refine ⟨((malloc fresh' (e.length + 1)).drop x.length).drop 1, ?_, ?_⟩
  · rw [urlDecode, hloop, Option.bind_eq_bind, Option.bind_some]
    simp only
    rw [write_append (by rw [List.length_singleton, List.length_drop]; omega)]
    rfl
  · rw [List.length_append, List.length_cons, List.length_drop, List.length_drop]
    omega

/-! ## Any string -/

/-- Whether the last character is a percent sign that the loop comes to, behind so many characters
that belong to the percent sign before them. -/
def endsInPercent : ℕ → List UInt8 → Bool
  | _, [] => false
  | 0, c :: rest =>
    if c = percent then rest.isEmpty || endsInPercent 2 rest else endsInPercent 0 rest
  | skip + 1, _ :: rest => endsInPercent skip rest

lemma endsInPercent_drop : ∀ (skip : ℕ) (s : List UInt8),
    endsInPercent skip s = endsInPercent 0 (s.drop skip)
  | 0, _ => rfl
  | skip + 1, [] => by rw [List.drop_nil]; rfl
  | skip + 1, _ :: s => endsInPercent_drop skip s

/-- **The loop of `url_decode`** on any string: it reads behind the NUL only after such a percent
sign, and never writes behind the buffer. -/
theorem urlDecodeLoop_safe (s : List UInt8) : ∀ (n i j : ℕ) (buf : List UInt8), s.length - i ≤ n →
    j ≤ i → j ≤ s.length → buf.length = s.length + 1 →
    match urlDecodeLoop (s ++ [0]) s.length i j buf with
    | some (j', buf') => endsInPercent 0 (s.drop i) = false ∧ j' ≤ s.length ∧
        buf'.length = s.length + 1
    | none => endsInPercent 0 (s.drop i) = true := by
  intro n
  induction n with
  | zero =>
    intro i j buf hn hji hj hbuf
    rw [urlDecodeLoop, dif_neg (by omega), List.drop_of_length_le (by omega)]
    exact ⟨rfl, hj, hbuf⟩
  | succ n ih =>
    intro i j buf hn hji hj hbuf
    by_cases hi : i < s.length
    · have hget : (s ++ [0])[i]? = some s[i] := by
        rw [List.getElem?_append_left hi, List.getElem?_eq_getElem hi]
      have hdrop : s.drop i = s[i] :: s.drop (i + 1) := List.drop_eq_getElem_cons hi
      have hroom : ∀ c, ∃ buf', write buf j [c] = some buf' ∧ buf'.length = buf.length := by
        intro c
        have hle : j + [c].length ≤ buf.length := by
          rw [List.length_singleton]
          omega
        exact write_of_le hle
      by_cases hc : s[i] = percent
      · rw [hc] at hget hdrop
        rw [hdrop, endsInPercent, if_pos rfl, endsInPercent_drop 2, List.drop_drop]
        by_cases hlast : i + 1 < s.length
        · -- two more characters, the second of which may be the NUL
          obtain ⟨d1, h1⟩ : ∃ d1, (s ++ [0])[i + 1]? = some d1 :=
            ⟨_, List.getElem?_eq_getElem (by simp; omega)⟩
          obtain ⟨d0, h0⟩ : ∃ d0, (s ++ [0])[i + 2]? = some d0 :=
            ⟨_, List.getElem?_eq_getElem (by simp; omega)⟩
          obtain ⟨buf', hwrite, hlen⟩ := hroom (decodePair d1 d0)
          have hrest : (s.drop (i + 1)).isEmpty = false := by
            rw [List.isEmpty_eq_false_iff, ne_eq, List.drop_eq_nil_iff]
            omega
          rw [urlDecodeLoop_of_percent hi hget h1 h0, hwrite, Option.bind_some, hrest,
            Bool.false_or]
          exact ih (i + 3) (j + 1) buf' (by omega) (by omega) (by omega) (by omega)
        · have h0 : (s ++ [0])[i + 2]? = none := by
            rw [List.getElem?_eq_none_iff, List.length_append, List.length_singleton]
            omega
          have hrest : (s.drop (i + 1)).isEmpty = true := by
            rw [List.isEmpty_iff, List.drop_eq_nil_iff]
            omega
          rw [urlDecodeLoop_of_outside hi hget h0, hrest]
          exact Bool.true_or _
      · obtain ⟨buf', hwrite, hlen⟩ := hroom s[i]
        rw [urlDecodeLoop_of_ne hi hget hc, hwrite, Option.bind_some, hdrop, endsInPercent,
          if_neg hc]
        exact ih (i + 1) (j + 1) buf' (by omega) (by omega) (by omega) (by omega)
    · rw [urlDecodeLoop, dif_neg hi, List.drop_of_length_le (by omega)]
      exact ⟨rfl, hj, hbuf⟩

/-- **Which strings are decoded in bounds.**  The loop ends for every string, and writes in its
buffer only; it reads no more than the string and its NUL exactly when the string does not end in a
percent sign that the loop comes to. -/
theorem urlDecode_safe_iff (fresh : ℕ → UInt8) (s : List UInt8) :
    (urlDecode fresh (s ++ [0]) s.length).isSome = true ↔ endsInPercent 0 s = false := by
  have hloop := urlDecodeLoop_safe s s.length 0 0 (malloc fresh (s.length + 1)) (Nat.sub_le _ _)
    le_rfl (Nat.zero_le _) (length_malloc _ _)
  rw [List.drop_zero] at hloop
  rw [urlDecode]
  cases hresult : urlDecodeLoop (s ++ [0]) s.length 0 0 (malloc fresh (s.length + 1)) with
  | none =>
    rw [hresult] at hloop
    simp only at hloop
    rw [hloop]
    exact iff_of_false Bool.false_ne_true Bool.noConfusion
  | some result =>
    rw [hresult] at hloop
    obtain ⟨hends, hj, hbuf⟩ := hloop
    have hroom : result.1 + [(0 : UInt8)].length ≤ result.2.length := by
      rw [List.length_singleton]
      omega
    obtain ⟨buf', hwrite, -⟩ := write_of_le hroom
    refine iff_of_true ?_ hends
    rw [Option.bind_eq_bind, Option.bind_some]
    exact Option.isSome_iff_exists.mpr ⟨buf', hwrite⟩

/-- A percent sign alone: the character behind its NUL is read. -/
theorem not_urlDecode_safe : ¬∀ (fresh : ℕ → UInt8) (s : List UInt8), 0 ∉ s →
    (urlDecode fresh (s ++ [0]) s.length).isSome = true := by
  intro h
  have hsome := h (fun _ => 0) [percent] (by decide)
  have hi : 0 < [percent].length := Nat.succ_pos 0
  rw [urlDecode, urlDecodeLoop_of_outside hi rfl rfl] at hsome
  exact Bool.false_ne_true hsome

end FreeswitchContrib.ModHttp.UrlEncoding
