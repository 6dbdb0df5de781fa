import FreeswitchContrib.Library.Numeral
import FreeswitchContrib.Library.Replaying
import Mathlib.Data.List.DropRight
import Mathlib.Logic.Function.Basic

/-!
# The event socket frame decoder

`EslFrameDecoder` of the Java event socket client reads header lines up to an empty one, and then
the body if there is a `Content-Length`.  It is a `ReplayingDecoder`: a read that runs out of bytes
abandons the call, and the bytes from the last checkpoint on are offered again later, while
`currentMessage` keeps the header lines that were read before it.

`EslFrameDecoder.decoder` is the decoder with the laws that make it replayable.
-/

namespace FreeswitchContrib.Esl

open Numeral Replaying

/-- `(char) b` for a byte: the sign is extended to the 16 bits of a character. -/
def charOfByte (b : UInt8) : Char :=
  if b.toNat < 128 then Char.ofNat b.toNat else Char.ofNat (0xFF00 + b.toNat)

def LF : UInt8 := 10

/-- `Character.isWhitespace`, for the characters that come from bytes. -/
def isWhitespace (c : Char) : Bool :=
  c == ' ' || (9 ≤ c.toNat && c.toNat ≤ 13) || (28 ≤ c.toNat && c.toNat ≤ 31)

/-! ## Headers -/

inductive Name where
  | contentType | contentLength | replyText | jobUuid | socketMode | control
deriving DecidableEq, Repr

namespace Name

def literal : Name → String
  | contentType => "Content-Type"
  | contentLength => "Content-Length"
  | replyText => "Reply-Text"
  | jobUuid => "Job-UUID"
  | socketMode => "Socket-Mode"
  | control => "Control"

def values : List Name :=
  [contentType, contentLength, replyText, jobUuid, socketMode, control]

/-- `String.equalsIgnoreCase`, for the characters that come from bytes. -/
def equalsIgnoreCase (s t : List Char) : Bool :=
  s.map Char.toLower == t.map Char.toLower

def fromLiteral (s : List Char) : Option Name :=
  values.find? fun name => equalsIgnoreCase name.literal.toList s

end Name

def inHeaderName (c : Char) : Bool :=
  !(c == ':' || isWhitespace c)

/-- The name and the value of a header line: the name ends at a colon or a whitespace, the value
starts behind the first colon after it, both without whitespace around them. -/
def splitHeader (sb : List Char) : List Char × List Char :=
  let fromName := sb.dropWhile isWhitespace
  let fromColon := (fromName.dropWhile inHeaderName).dropWhile (· != ':')
  (fromName.takeWhile inHeaderName,
    ((fromColon.drop 1).dropWhile isWhitespace).rdropWhile isWhitespace)

/-- A text without whitespace around it. -/
def trim (s : List Char) : List Char :=
  (s.dropWhile isWhitespace).rdropWhile isWhitespace

lemma isWhitespace_of_inHeaderName {c : Char} (h : inHeaderName c = true) :
    isWhitespace c = false := by
  simp only [inHeaderName, Bool.not_eq_true', Bool.or_eq_false_iff] at h
  exact h.2

/-- A line `Name: value` is split into its name and its value. -/
lemma splitHeader_nameValue {name : List Char} (hname : ∀ c ∈ name, inHeaderName c = true)
    (value : List Char) : splitHeader (name ++ ':' :: ' ' :: value) = (name, trim value) := by
  have hnospace : (name ++ ':' :: ' ' :: value).dropWhile isWhitespace =
      name ++ ':' :: ' ' :: value := by
    rcases name with _ | ⟨c, name⟩
    · rfl
    · have hc := isWhitespace_of_inHeaderName (hname c List.mem_cons_self)
      rw [List.cons_append, List.dropWhile_cons_of_neg (by simp [hc])]
  have htake : (name ++ ':' :: ' ' :: value).takeWhile inHeaderName = name := by
    rw [List.takeWhile_append_of_pos hname, List.takeWhile_cons_of_neg (by decide), List.append_nil]
  have hdrop : (name ++ ':' :: ' ' :: value).dropWhile inHeaderName = ':' :: ' ' :: value := by
    rw [List.dropWhile_append_of_pos hname, List.dropWhile_cons_of_neg (by decide)]
  have hspace : (' ' :: value).dropWhile isWhitespace = value.dropWhile isWhitespace :=
    List.dropWhile_cons_of_pos (by decide)
  simp only [splitHeader, hnospace, htake, hdrop, List.dropWhile_cons_of_neg (p := (· != ':'))
    (show ¬ ((':' != ':') = true) by decide), List.drop_one, List.tail_cons, hspace, trim]

/-! ## Messages -/

inductive DecodeError where
  | tooLongFrame (message : String)
  | illegalState (message : String)
  | numberFormat (literal : String)
  | negativeLength (length : ℤ)
  | nullPointer
deriving DecidableEq, Repr

/-- `Integer.valueOf`: a decimal number of 32 bits. -/
def integerValueOf (s : List Char) : Option ℤ :=
  (signedDecimal s).filter fun n => -2147483648 ≤ n && n ≤ 2147483647

/-- The headers are a map that permits the key `null`, which is the name of a header line that was
taken as a body line. -/
structure EslMessage where
  headers : Option Name → Option (List Char)
  body : List (List Char)
  contentLength : Option ℤ

namespace EslMessage

def new : EslMessage :=
  ⟨fun _ => none, [], none⟩

def addHeader (m : EslMessage) (name : Option Name) (value : List Char) : EslMessage :=
  { m with headers := Function.update m.headers name (some value) }

def addBodyLine (m : EslMessage) (line : List Char) : EslMessage :=
  { m with body := m.body ++ [line] }

def hasContentLength (m : EslMessage) : Bool :=
  (m.headers (some .contentLength)).isSome

/-- The length, or `null`, and the message with the length cached. -/
def getContentLength (m : EslMessage) : Except DecodeError (Option ℤ × EslMessage) :=
  match m.contentLength, m.headers (some .contentLength) with
  | some n, _ => .ok (some n, m)
  | none, none => .ok (none, m)
  | none, some value =>
    match integerValueOf value with
    | some n => .ok (some n, { m with contentLength := some n })
    | none => .error (.numberFormat (String.ofList value))

end EslMessage

/-! ## Lines -/

inductive LineRead where
  | missing
  | tooLong
  | line (text : List Char) (rest : List UInt8)

/-- The characters `sb` of the line were read before. -/
def readToLineFeedOrFail (maxLineLength : ℕ) : List Char → List UInt8 → LineRead
  | _, [] => .missing
  | sb, nextByte :: buffer =>
    if nextByte = LF then
      .line sb buffer
    else if maxLineLength ≤ sb.length then
      .tooLong
    else
      readToLineFeedOrFail maxLineLength (sb ++ [charOfByte nextByte]) buffer

def readLine (maxLineLength : ℕ) : List Char → List UInt8 →
    Except DecodeError (List Char × List UInt8)
  | sb, [] => .ok (sb, [])
  | sb, nextByte :: buffer =>
    if nextByte = LF then
      .ok (sb, buffer)
    else if maxLineLength ≤ sb.length then
      .error (.tooLongFrame ("ESL message line is longer than " ++ toString maxLineLength
        ++ " bytes."))
    else
      readLine maxLineLength (sb ++ [charOfByte nextByte]) buffer

lemma readToLineFeedOrFail_length {maxLineLength : ℕ} {text : List Char} {rest : List UInt8} :
    ∀ {sb : List Char} {buffer : List UInt8},
      readToLineFeedOrFail maxLineLength sb buffer = .line text rest → rest.length < buffer.length
  | _, [], h => by simp [readToLineFeedOrFail] at h
  | sb, b :: buffer, h => by
    rw [readToLineFeedOrFail] at h
    split_ifs at h with hlf hlen
    · obtain ⟨rfl, rfl⟩ : sb = text ∧ buffer = rest := by simpa using h
      simp
    · exact (readToLineFeedOrFail_length h).trans (by simp)

/-- What is read of a line before its end. -/
lemma readToLineFeedOrFail_bytes (maxLineLength : ℕ) (rest : List UInt8) :
    ∀ (line : List UInt8) (sb : List Char), LF ∉ line → sb.length + line.length ≤ maxLineLength →
      readToLineFeedOrFail maxLineLength sb (line ++ rest) =
        readToLineFeedOrFail maxLineLength (sb ++ line.map charOfByte) rest
  | [], sb, _, _ => by simp
  | b :: line, sb, hline, hlen => by
    obtain ⟨hb, hline⟩ := not_or.mp (mt List.mem_cons.mpr hline)
    rw [List.length_cons] at hlen
    have ih := readToLineFeedOrFail_bytes maxLineLength rest line (sb ++ [charOfByte b]) hline
      (by rw [List.length_append, List.length_singleton]; omega)
    rw [List.cons_append, readToLineFeedOrFail, if_neg (Ne.symm hb), if_neg (by omega), ih,
      List.append_assoc, List.singleton_append, List.map_cons]

lemma readLine_length {maxLineLength : ℕ} {text : List Char} {rest : List UInt8} :
    ∀ {sb : List Char} {buffer : List UInt8}, buffer ≠ [] →
      readLine maxLineLength sb buffer = .ok (text, rest) → rest.length < buffer.length
  | _, [], hne, _ => absurd rfl hne
  | sb, b :: buffer, _, h => by
    rw [readLine] at h
    split_ifs at h with hlf hlen
    · obtain ⟨rfl, rfl⟩ : sb = text ∧ buffer = rest := by simpa using h
      simp
    · rcases buffer with _ | ⟨b', buffer⟩
      · obtain ⟨-, rfl⟩ : sb ++ [charOfByte b] = text ∧ [] = rest := by simpa [readLine] using h
        simp
      · exact (readLine_length (by simp) h).trans (by simp)

/-- The lines of the body, which `readLine` never finds too long for the length of the body. -/
def readBodyLines (contentLength : ℕ) (m : EslMessage) (bodyBytes : List UInt8) :
    Except DecodeError EslMessage :=
  if _h : bodyBytes = [] then
    .ok m
  else
    match _h : readLine contentLength [] bodyBytes with
    | .error e => .error e
    | .ok (bodyLine, rest) => readBodyLines contentLength (m.addBodyLine bodyLine) rest
termination_by bodyBytes.length
decreasing_by exact readLine_length ‹_› ‹_›

/-! ## The decoder -/

inductive State where
  | readHeader | readBody
deriving DecidableEq, Repr

/-- What the constructor fixes: a maximum header size that is positive, and whether a line whose
name is unknown goes to the body. -/
structure EslFrameDecoder where
  maxHeaderSize : ℕ
  treatUnknownHeadersAsBody : Bool
  maxHeaderSize_pos : 0 < maxHeaderSize

/-- What changes from call to call. -/
structure DecoderState where
  state : State
  currentMessage : Option EslMessage

def DecoderState.initial : DecoderState :=
  ⟨.readHeader, none⟩

abbrev DecodeOutcome :=
  Outcome DecoderState UInt8 EslMessage DecodeError

namespace EslFrameDecoder

variable (d : EslFrameDecoder)

def addHeaderLine (m : EslMessage) (headerLine : List Char) : Except DecodeError EslMessage :=
  let headerParts := splitHeader headerLine
  match Name.fromLiteral headerParts.1 with
  | some headerName => .ok (m.addHeader headerName headerParts.2)
  | none =>
    if d.treatUnknownHeadersAsBody then
      .ok ((m.addBodyLine headerLine).addHeader none headerParts.2)
    else
      .error (.illegalState ("Unhandled ESL header [" ++ String.ofList headerParts.1 ++ "]"))

/-- All headers are read: a message without a content length is complete. -/
def endOfHeaders (m : EslMessage) (buffer : List UInt8) : DecodeOutcome :=
  if m.hasContentLength then
    .done ⟨.readBody, some m⟩ buffer none
  else
    .done ⟨.readHeader, none⟩ buffer (some m)

/-- The loop over the header lines, with a checkpoint behind each of them. -/
def readHeaders (m : EslMessage) (buffer : List UInt8) : DecodeOutcome :=
  match _h : readToLineFeedOrFail d.maxHeaderSize [] buffer with
  | .missing => .replay ⟨.readHeader, some m⟩ buffer
  | .tooLong => .error (.tooLongFrame ("ESL header line is longer than "
      ++ toString d.maxHeaderSize ++ " bytes."))
  | .line headerLine rest =>
    if headerLine.isEmpty then
      endOfHeaders m rest
    else
      match d.addHeaderLine m headerLine with
      | .error e => .error e
      | .ok m' => readHeaders m' rest
termination_by buffer.length
decreasing_by exact readToLineFeedOrFail_length ‹_›

def readBody (currentMessage : Option EslMessage) (buffer : List UInt8) : DecodeOutcome :=
  match currentMessage with
  | none => .error .nullPointer
  | some m =>
    match m.getContentLength with
    | .error e => .error e
    | .ok (none, _) => .error .nullPointer
    | .ok (some contentLength, m) =>
      if contentLength < 0 then
        .error (.negativeLength contentLength)
      else if buffer.length < contentLength.toNat then
        .replay ⟨.readBody, some m⟩ buffer
      else
        match readBodyLines contentLength.toNat m (buffer.take contentLength.toNat) with
        | .error e => .error e
        | .ok m' => .done ⟨.readHeader, none⟩ (buffer.drop contentLength.toNat) (some m')

def decode (s : DecoderState) (buffer : List UInt8) : DecodeOutcome :=
  match s.state with
  | .readHeader => d.readHeaders (s.currentMessage.getD .new) buffer
  | .readBody => readBody s.currentMessage buffer

end EslFrameDecoder

/-! ## Replaying a call -/

variable {d : EslFrameDecoder} {m m' : EslMessage} {s s' : DecoderState}
  {buffer rest : List UInt8} {text : List Char} {message : Option EslMessage} {e : DecodeError}

lemma readToLineFeedOrFail_append_of_line {maxLineLength : ℕ} (ys : List UInt8) :
    ∀ {sb : List Char} {buffer : List UInt8},
      readToLineFeedOrFail maxLineLength sb buffer = .line text rest →
      readToLineFeedOrFail maxLineLength sb (buffer ++ ys) = .line text (rest ++ ys)
  | _, [], h => by simp [readToLineFeedOrFail] at h
  | sb, b :: buffer, h => by
    rw [readToLineFeedOrFail] at h
    rw [List.cons_append, readToLineFeedOrFail]
    split_ifs at h ⊢ with hlf hlen
    · obtain ⟨rfl, rfl⟩ : sb = text ∧ buffer = rest := by simpa using h
      rfl
    · exact readToLineFeedOrFail_append_of_line ys h

lemma readToLineFeedOrFail_append_of_tooLong {maxLineLength : ℕ} (ys : List UInt8) :
    ∀ {sb : List Char} {buffer : List UInt8},
      readToLineFeedOrFail maxLineLength sb buffer = .tooLong →
      readToLineFeedOrFail maxLineLength sb (buffer ++ ys) = .tooLong
  | _, [], h => by simp [readToLineFeedOrFail] at h
  | sb, b :: buffer, h => by
    rw [readToLineFeedOrFail] at h
    rw [List.cons_append, readToLineFeedOrFail]
    split_ifs at h ⊢ with hlf hlen
    · rfl
    · exact readToLineFeedOrFail_append_of_tooLong ys h

lemma EslMessage.getContentLength_cached {n : Option ℤ} (h : m.getContentLength = .ok (n, m')) :
    m'.getContentLength = .ok (n, m') := by
  rw [getContentLength] at h
  split at h
  · next n' hn =>
    obtain ⟨rfl, rfl⟩ : some n' = n ∧ m = m' := by simpa using h
    rw [getContentLength, hn]
  · next hn hheader =>
    obtain ⟨rfl, rfl⟩ : none = n ∧ m = m' := by simpa using h
    rw [getContentLength, hn, hheader]
  · split at h
    · next n' hn =>
      obtain ⟨rfl, rfl⟩ : some n' = n ∧ { m with contentLength := some n' } = m' := by
        simpa using h
      rfl
    · cases h

namespace EslFrameDecoder

/-- What the loop over the header lines does, by the next line. -/
lemma readHeaders_eq (d : EslFrameDecoder) (m : EslMessage) (buffer : List UInt8) :
    d.readHeaders m buffer =
      match readToLineFeedOrFail d.maxHeaderSize [] buffer with
      | .missing => .replay ⟨.readHeader, some m⟩ buffer
      | .tooLong => .error (.tooLongFrame ("ESL header line is longer than "
          ++ toString d.maxHeaderSize ++ " bytes."))
      | .line headerLine rest =>
        if headerLine.isEmpty then
          endOfHeaders m rest
        else
          match d.addHeaderLine m headerLine with
          | .error e => .error e
          | .ok m' => d.readHeaders m' rest := by
  rw [readHeaders]
  split <;> simp_all

/-- How the loop over the header lines ends, and what it would do on a longer buffer. -/
lemma readHeaders_append (m : EslMessage) (buffer ys : List UInt8) :
    match d.readHeaders m buffer with
    | .replay s rest =>
      d.readHeaders m (buffer ++ ys) = d.readHeaders (s.currentMessage.getD .new) (rest ++ ys)
        ∧ s.state = .readHeader
    | .done s rest message =>
      d.readHeaders m (buffer ++ ys) = .done s (rest ++ ys) message ∧ rest.length < buffer.length
    | .error e => d.readHeaders m (buffer ++ ys) = .error e := by
  rw [readHeaders_eq d m buffer]
  cases h : readToLineFeedOrFail d.maxHeaderSize [] buffer with
  | missing => exact ⟨rfl, rfl⟩
  | tooLong => simp only [readHeaders_eq d m (buffer ++ ys),
      readToLineFeedOrFail_append_of_tooLong ys h]
  | line headerLine rest =>
    have hlt := readToLineFeedOrFail_length h
    rw [readHeaders_eq d m (buffer ++ ys), readToLineFeedOrFail_append_of_line ys h]
    by_cases hline : headerLine.isEmpty
    · simp only [hline, if_true, endOfHeaders]
      split_ifs <;> exact ⟨rfl, hlt⟩
    · simp only [hline, Bool.false_eq_true, if_false]
      cases hadd : d.addHeaderLine m headerLine with
      | error e => rfl
      | ok m' =>
        have ih := readHeaders_append m' rest ys
        simp only
        cases hread : d.readHeaders m' rest with
        | replay s rest' => simpa only [hread] using ih
        | done s rest' message =>
          simp only [hread] at ih
          exact ⟨ih.1, ih.2.trans hlt⟩
        | error e => simpa only [hread] using ih
termination_by buffer.length

/-- How the reading of a body ends, and what it would do on a longer buffer. -/
lemma readBody_append (currentMessage : Option EslMessage) (buffer ys : List UInt8) :
    match readBody currentMessage buffer with
    | .replay s rest =>
      readBody currentMessage (buffer ++ ys) = readBody s.currentMessage (rest ++ ys)
        ∧ s.state = .readBody
    | .done s rest message =>
      readBody currentMessage (buffer ++ ys) = .done s (rest ++ ys) message
        ∧ s.state = .readHeader ∧ rest.length ≤ buffer.length
    | .error e => readBody currentMessage (buffer ++ ys) = .error e := by
  rcases currentMessage with _ | m
  · rfl
  simp only [readBody]
  cases hlength : m.getContentLength with
  | error e => rfl
  | ok p =>
    obtain ⟨_ | contentLength, m⟩ := p
    · rfl
    simp only
    by_cases hneg : contentLength < 0
    · simp only [if_pos hneg]
    by_cases hmissing : buffer.length < contentLength.toNat
    · simp only [if_neg hneg, if_pos hmissing, EslMessage.getContentLength_cached hlength]
      trivial
    have henough : ¬ (buffer ++ ys).length < contentLength.toNat := by
      rw [List.length_append]
      omega
    simp only [if_neg hneg, if_neg hmissing, if_neg henough,
      List.take_append_of_le_length (Nat.le_of_not_lt hmissing),
      List.drop_append_of_le_length (Nat.le_of_not_lt hmissing)]
    cases hlines : readBodyLines contentLength.toNat m (buffer.take contentLength.toNat) with
    | error e => rfl
    | ok m' => exact ⟨rfl, rfl, by simp⟩

/-- A pending body counts one byte: reading it need not read any. -/
def size (s : DecoderState) (buffer : List UInt8) : ℕ :=
  2 * buffer.length + if s.state = .readBody then 1 else 0

variable (d)

/-- **The decoder can be replayed.** -/
def decoder : Decoder DecoderState UInt8 EslMessage DecodeError where
  decode := d.decode
  size := size
  size_lt := by
    intro s buffer s' rest message h
    obtain ⟨_ | _, currentMessage⟩ := s
    · have hread := readHeaders_append (d := d) (currentMessage.getD .new) buffer []
      simp only [decode] at h
      simp only [h] at hread
      simp only [size]
      split_ifs <;> omega
    · have hread := readBody_append currentMessage buffer []
      simp only [decode] at h
      simp only [h] at hread
      simp only [size, hread.2.1]
      have hlength := hread.2.2
      simp only [reduceCtorEq, if_false, if_true]
      omega
  decode_append_of_done := by
    intro s buffer s' rest message h ys
    obtain ⟨_ | _, currentMessage⟩ := s
    · have hread := readHeaders_append (d := d) (currentMessage.getD .new) buffer ys
      simp only [decode] at h ⊢
      simp only [h] at hread
      exact hread.1
    · have hread := readBody_append currentMessage buffer ys
      simp only [decode] at h ⊢
      simp only [h] at hread
      exact hread.1
  decode_append_of_error := by
    intro s buffer e h ys
    obtain ⟨_ | _, currentMessage⟩ := s
    · have hread := readHeaders_append (d := d) (currentMessage.getD .new) buffer ys
      simp only [decode] at h ⊢
      simpa only [h] using hread
    · have hread := readBody_append currentMessage buffer ys
      simp only [decode] at h ⊢
      simpa only [h] using hread
  decode_append_of_replay := by
    intro s buffer s' rest h ys
    obtain ⟨_ | _, currentMessage⟩ := s
    · have hread := readHeaders_append (d := d) (currentMessage.getD .new) buffer ys
      simp only [decode] at h
      simp only [h] at hread
      simp only [decode, hread.1, hread.2]
    · have hread := readBody_append currentMessage buffer ys
      simp only [decode] at h
      simp only [h] at hread
      simp only [decode, hread.1, hread.2]

end EslFrameDecoder

end FreeswitchContrib.Esl
