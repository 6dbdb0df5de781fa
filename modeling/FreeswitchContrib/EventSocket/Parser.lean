import FreeswitchContrib.Library.Numeral
import FreeswitchContrib.Library.Replaying
import Mathlib.Data.List.DropRight

/-!
# The event socket parser

`Parser` of the C# event socket collects the received pieces in a buffer.  `ParseOne` looks for the
empty line behind the headers, then for the empty line behind the body, and compares the size it
finds with the `Content-Length`; what it removes from the buffer ends where an empty line begins.

The string parser is given by what is left of its text; a call that may throw is an `Except`.
-/

namespace FreeswitchContrib.EventSocket

open Numeral Replaying

/-- The exceptions of `int.Parse` and of `StringBuilder.CopyTo`. -/
inductive ParseError where
  | format
  | overflow
  | argument
deriving DecidableEq, Repr

/-! ## The string parser -/

def isWS (c : Char) : Bool :=
  c == '\t' || c == ' '

def isEOL (c : Char) : Bool :=
  c == '\r' || c == '\n'

/-- What is read without the blanks at its end, when the position is at a blank. -/
def trimEnd (read rest : List Char) : List Char :=
  match rest with
  | [] => read
  | c :: _ => if isWS c then read.rdropWhile isWS else read

/-- Behind the new line characters. -/
def skipNewLine : List Char → List Char
  | '\r' :: '\n' :: rest => rest
  | '\r' :: rest => rest
  | '\n' :: rest => rest
  | rest => rest

/-- `ReadLine(true)`: the line and what is left. -/
def readLine (rest : List Char) : List Char × List Char :=
  let fromLine := rest.dropWhile isWS
  let line := fromLine.takeWhile fun c => !isEOL c
  let atEnd := fromLine.dropWhile fun c => !isEOL c
  (trimEnd line atEnd, skipNewLine atEnd)

/-- `Read(delimiter, true)`: what stands before the delimiter and what is left, nothing being read
when there is no delimiter. -/
def read (delimiter : Char) (rest : List Char) : List Char × List Char :=
  let fromStart := rest.dropWhile isWS
  match fromStart.dropWhile (· != delimiter) with
  | [] => ([], fromStart)
  | _ :: rest' =>
    ((trimEnd (fromStart.takeWhile (· != delimiter) ++ [delimiter]) rest').dropLast, rest')

/-- `EOL`: whether an empty line is next. -/
def atEmptyLine : List Char → Bool
  | '\n' :: _ => true
  | '\r' :: '\n' :: _ :: _ => true
  | _ => false

/-! ## Headers -/

structure PlainEventMsg where
  contentType : List Char
  contentLength : ℤ
  body : List Char
deriving DecidableEq, Repr

def PlainEventMsg.new : PlainEventMsg :=
  ⟨[], -1, []⟩

def isWhite (c : Char) : Bool :=
  c == ' ' || (9 ≤ c.toNat && c.toNat ≤ 13)

/-- `int.Parse`: white space around, an optional sign, 32 bits. -/
def intParse (s : List Char) : Except ParseError ℤ :=
  match signedDecimal ((s.dropWhile isWhite).rdropWhile isWhite) with
  | none => .error .format
  | some n => if -2147483648 ≤ n ∧ n ≤ 2147483647 then .ok n else .error .overflow

/-- What is done about a header of which the name was read. -/
def parseHeader (msg : PlainEventMsg) (name rest : List Char) :
    Except ParseError (PlainEventMsg × List Char) :=
  if name = "Content-Length".toList then
    match intParse (readLine rest).1 with
    | .error e => .error e
    | .ok n => .ok ({ msg with contentLength := n }, (readLine rest).2)
  else if name = "Content-Type".toList then
    .ok ({ msg with contentType := (readLine rest).1 }, (readLine rest).2)
  else if name = "Reply-Text".toList then
    .ok ({ msg with body := (readLine rest).1 }, (readLine rest).2)
  else
    .ok (msg, rest)

lemma skipNewLine_length (rest : List Char) : (skipNewLine rest).length ≤ rest.length := by
  fun_cases skipNewLine <;> grind

lemma readLine_length (rest : List Char) : (readLine rest).2.length ≤ rest.length := by
  rw [readLine]
  refine (skipNewLine_length _).trans ?_
  exact (List.dropWhile_suffix _).length_le.trans (List.dropWhile_suffix _).length_le

lemma parseHeader_length {msg msg' : PlainEventMsg} {name rest rest' : List Char}
    (h : parseHeader msg name rest = .ok (msg', rest')) : rest'.length ≤ rest.length := by
  rw [parseHeader] at h
  have hline := readLine_length rest
  split_ifs at h
  · split at h
    · cases h
    · obtain ⟨-, rfl⟩ := Prod.mk.inj (Except.ok.inj h)
      exact hline
  · obtain ⟨-, rfl⟩ := Prod.mk.inj (Except.ok.inj h)
    exact hline
  · obtain ⟨-, rfl⟩ := Prod.mk.inj (Except.ok.inj h)
    exact hline
  · obtain ⟨-, rfl⟩ := Prod.mk.inj (Except.ok.inj h)
    exact Nat.le_refl _

lemma read_length {delimiter : Char} {rest : List Char} (h : (read delimiter rest).1 ≠ []) :
    (read delimiter rest).2.length < rest.length := by
  have hsuffix := ((rest.dropWhile isWS).dropWhile_suffix (· != delimiter)).length_le
  have hsuffix' := (rest.dropWhile_suffix isWS).length_le
  rw [read] at h ⊢
  cases hdrop : (rest.dropWhile isWS).dropWhile (· != delimiter) with
  | nil => simp [hdrop] at h
  | cons c rest' =>
    rw [hdrop, List.length_cons] at hsuffix
    simp only
    omega

/-- The loop over the names of the headers. -/
def parseHeaders (msg : PlainEventMsg) (rest : List Char) : Except ParseError PlainEventMsg :=
  if _hname : (read ':' rest).1 = [] then
    .ok msg
  else
    match _hheader : parseHeader msg (read ':' rest).1 (read ':' rest).2 with
    | .error e => .error e
    | .ok (msg', rest') => if atEmptyLine rest' then .ok msg' else parseHeaders msg' rest'
termination_by rest.length
decreasing_by exact (parseHeader_length ‹_›).trans_lt (read_length ‹_›)

/-! ## The parser -/

structure Parser where
  text : List Char
  piecesToAppend : List (List Char)
deriving DecidableEq, Repr

namespace Parser

def new : Parser :=
  ⟨[], []⟩

def append (p : Parser) (piece : List Char) : Parser :=
  { p with piecesToAppend := p.piecesToAppend ++ [piece] }

def appendPieces (p : Parser) : Parser :=
  ⟨p.text ++ p.piecesToAppend.flatten, []⟩

end Parser

def ignoreEmptyLines (text : List Char) (index : ℕ) : ℕ :=
  index + ((text.drop index).takeWhile (· == '\n')).length

/-- How far the first empty line is. -/
def emptyLineAt : List Char → Option ℕ
  | [] => none
  | '\n' :: '\n' :: _ => some 0
  | _ :: rest => (emptyLineAt rest).map (· + 1)

/-- The index of the next empty line, or the same index without one. -/
def findEmptyLine (text : List Char) (index : ℕ) : ℕ :=
  index + (emptyLineAt (text.drop index)).getD 0

def findHeaders (text : List Char) (index : ℕ) : Except ParseError (Option PlainEventMsg × ℕ) :=
  let start := ignoreEmptyLines text index
  let index := findEmptyLine text start
  if start = index then
    .ok (none, index)
  else
    match parseHeaders .new ((text.drop start).take (index - start)) with
    | .error e => .error e
    | .ok msg => .ok (some msg, index)

/-- The size that was found is corrected to the reported one when the buffer ends with the body, or
when more follows a body that ends with a new line. -/
def validSize (text : List Char) (contentLength start size : ℕ) : ℕ :=
  if size = contentLength then
    size
  else if text.length = contentLength + start then
    contentLength
  else if contentLength + start < text.length ∧ text[contentLength + start - 1]? = some '\n' then
    contentLength
  else
    size

/-- The body of a message whose headers end at `index`. -/
def parseBody (text : List Char) (msg : PlainEventMsg) (index : ℕ) :
    Except ParseError (Option PlainEventMsg × Parser) :=
  let start := ignoreEmptyLines text index
  let index := findEmptyLine text start
  let size := validSize text msg.contentLength.toNat start (index - start + 2)
  if text.length < start + size then
    .error .argument
  else
    .ok (some { msg with body := (text.drop start).take size }, ⟨text.drop index, []⟩)

/-- The body is complete when so many characters follow the headers, the empty line included. -/
def parseMessage (text : List Char) (msg : PlainEventMsg) (index : ℕ) :
    Except ParseError (Option PlainEventMsg × Parser) :=
  if msg.contentLength ≤ 0 then
    .ok (some msg, ⟨text.drop index, []⟩)
  else if (text.length : ℤ) - index < msg.contentLength then
    .ok (none, ⟨text, []⟩)
  else
    parseBody text msg index

namespace Parser

def parseOne (p : Parser) : Except ParseError (Option PlainEventMsg × Parser) :=
  let text := p.appendPieces.text
  match findHeaders text 0 with
  | .error e => .error e
  | .ok (none, _) => .ok (none, ⟨text, []⟩)
  | .ok (some msg, index) => parseMessage text msg index

end Parser

/-! ## What is left in the buffer -/

variable {text rest : List Char} {index i : ℕ} {msg : PlainEventMsg} {p p' : Parser}
  {result : Option PlainEventMsg}

lemma emptyLineAt_lt : ∀ {text : List Char} {i : ℕ}, emptyLineAt text = some i → i < text.length
  | [], _, h => by simp [emptyLineAt] at h
  | c :: text, i, h => by
    rw [emptyLineAt.eq_def] at h
    split at h
    · cases ‹c :: text = []›
    · obtain rfl : 0 = i := by simpa using h
      simp
    · next rest _ heq =>
      obtain ⟨rfl, rfl⟩ := List.cons.inj heq
      obtain ⟨i', hi', rfl⟩ := Option.map_eq_some_iff.mp h
      have := emptyLineAt_lt hi'
      simp only [List.length_cons]
      omega

/-- An empty line that is found is inside the text. -/
lemma findEmptyLine_cases (text : List Char) (index : ℕ) :
    findEmptyLine text index = index ∨
      (index ≤ findEmptyLine text index ∧ findEmptyLine text index < text.length) := by
  rw [findEmptyLine]
  cases hline : emptyLineAt (text.drop index) with
  | none => exact Or.inl rfl
  | some i =>
    have hlt := emptyLineAt_lt hline
    rw [List.length_drop] at hlt
    simp only [Option.getD_some]
    omega

lemma findHeaders_some {index' : ℕ} (h : findHeaders text index = .ok (some msg, index')) :
    0 < index' ∧ index' < text.length := by
  rw [findHeaders] at h
  have hcases := findEmptyLine_cases text (ignoreEmptyLines text index)
  split_ifs at h with hnone
  · simp at h
  · split at h
    · cases h
    · obtain ⟨-, rfl⟩ := Prod.mk.inj (Except.ok.inj h)
      omega

lemma validSize_pos (text : List Char) {contentLength size : ℕ} (start : ℕ)
    (hlength : 0 < contentLength) (hsize : 0 < size) :
    0 < validSize text contentLength start size := by
  rw [validSize]
  split_ifs <;> assumption

/-- A body is read only where there is one: what is removed is less than the text. -/
lemma parseBody_some (hlength : 0 < msg.contentLength)
    (h : parseBody text msg index = .ok (result, p')) :
    ∃ i, index ≤ i ∧ i < text.length ∧ p' = ⟨text.drop i, []⟩ ∧ result ≠ none := by
  rw [parseBody] at h
  split_ifs at h with hshort
  obtain ⟨hresult, rfl⟩ := Prod.mk.inj (Except.ok.inj h)
  refine ⟨_, ?_, ?_, rfl, by simp [← hresult]⟩
  · exact (Nat.le_add_right _ _).trans (Nat.le_add_right _ _)
  · have hpos : 0 < validSize text msg.contentLength.toNat (ignoreEmptyLines text index)
        (findEmptyLine text (ignoreEmptyLines text index) - ignoreEmptyLines text index + 2) :=
      validSize_pos text _ (by omega) (by omega)
    rcases findEmptyLine_cases text (ignoreEmptyLines text index) with hsame | hlt
    · rw [hsame] at hshort hpos ⊢
      omega
    · exact hlt.2

/-- **What a call removes.**  Nothing without a message, and never the whole text. -/
lemma parseOne_ok (h : p.parseOne = .ok (result, p')) :
    (result = none ∧ p' = p.appendPieces) ∨
      (result ≠ none ∧ ∃ i, 0 < i ∧ i < p.appendPieces.text.length ∧
        p' = ⟨p.appendPieces.text.drop i, []⟩) := by
  rw [Parser.parseOne] at h
  split at h
  · cases h
  · obtain ⟨rfl, rfl⟩ := Prod.mk.inj (Except.ok.inj h)
    exact Or.inl ⟨rfl, rfl⟩
  · next msg index hheaders =>
    obtain ⟨hpos, hlt⟩ := findHeaders_some hheaders
    rw [parseMessage] at h
    split_ifs at h with hlength
    · obtain ⟨rfl, rfl⟩ := Prod.mk.inj (Except.ok.inj h)
      exact Or.inr ⟨by simp, index, hpos, hlt, rfl⟩
    · obtain ⟨rfl, rfl⟩ := Prod.mk.inj (Except.ok.inj h)
      exact Or.inl ⟨rfl, rfl⟩
    · obtain ⟨i, hle, hi, rfl, hsome⟩ := parseBody_some (by omega) h
      exact Or.inr ⟨hsome, i, by omega, hi, rfl⟩

/-- `ParseOne` is called until there is no message. -/
def Parser.parseAll (p : Parser) : Run Parser PlainEventMsg ParseError :=
  match _h : p.parseOne with
  | .error e => .fail e
  | .ok (none, p') => .stop p'
  | .ok (some msg, p') => p'.parseAll.after [msg]
termination_by p.appendPieces.text.length
decreasing_by
  rcases parseOne_ok ‹_› with ⟨hnone, -⟩ | ⟨-, i, hpos, hlt, rfl⟩
  · cases hnone
  · simp only [Parser.appendPieces, List.flatten_nil, List.append_nil, List.length_drop] at hlt ⊢
    omega

/-- The pieces are appended one after the other, and what is complete is parsed. -/
def Parser.receive (p : Parser) : List (List Char) → Run Parser PlainEventMsg ParseError
  | [] => .stop p
  | piece :: pieces => (p.append piece).parseAll.andThen fun p' => p'.receive pieces

end FreeswitchContrib.EventSocket
