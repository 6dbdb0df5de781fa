import FreeswitchContrib.Library.CString
import Mathlib.Data.List.DropRight

/-!
# Reading from the event socket in PHP

`sock_get` reads lines with `fgets`, which returns at most one byte less than its buffer size and
ends behind a new line.  The body is read in the same way, until as many bytes as were announced
have been read, or more.

The bytes that are still to come are a list; at its end `fgets` returns false.
-/

namespace FreeswitchContrib.FsSock

abbrev Text := List Char

/-! ## The language -/

/-- A string, or null. -/
inductive Value where
  | null
  | string (s : Text)
deriving DecidableEq, Repr

namespace Value

/-- `.=`, for which null is the empty string. -/
def append : Value → Text → Value
  | null, s => string s
  | string t, s => string (t ++ s)

/-- The number that a string is compared as: the one that it begins with. -/
def number : Value → ℤ
  | null => 0
  | string s => CString.leadingInt s

end Value

/-- What an array has under its keys. -/
abbrev Event := Text → Option Value

/-- The characters that `trim` removes. -/
def blank (c : Char) : Bool :=
  c ∈ [' ', '\t', '\n', '\r', '\x00', '\x0b']

def trim (s : Text) : Text :=
  (s.dropWhile blank).rdropWhile blank

/-- As a condition, the empty string and zero are false. -/
def truthy (s : Text) : Bool :=
  s != [] && s != ['0']

/-- At most so many bytes, up to and with the first new line; and what is left. -/
def upToNewline : ℕ → Text → Text × Text
  | 0, rest => ([], rest)
  | _, [] => ([], [])
  | n + 1, c :: rest =>
    if c = '\n' then
      ([c], rest)
    else
      (c :: (upToNewline n rest).1, (upToNewline n rest).2)

def fgets (bufferSize : ℕ) (stream : Text) : Option (Text × Text) :=
  if stream = [] then none else some (upToNewline (bufferSize - 1) stream)

/-! ## The socket -/

variable (bufferSize : ℕ)

/-- The loop of `sock_get_length`; each round reads a byte or is the last one. -/
def lengthLoop (contentLen : Value) : ℕ → ℕ → Value → Text → Value × Text
  | 0, _, content, stream => (content, stream)
  | fuel + 1, len, content, stream =>
    match fgets bufferSize stream with
    | none => (content, stream)
    | some (line, rest) =>
      if truthy line then
        let len := len + line.length
        let content := content.append line
        if contentLen.number ≤ len then (content, rest)
        else lengthLoop contentLen fuel len content rest
      else
        (content, rest)

def sockGetLength (contentLen : Value) (stream : Text) : Value × Text :=
  lengthLoop bufferSize contentLen (stream.length + 1) 0 .null stream

/-- A line with a colon is a header: what is before the first colon, and what is between it and the
next one. -/
def addHeader (event : Event) (line : Text) : Event :=
  if ':' ∈ line then
    let split := line.splitOn ':'
    Function.update event (trim (split.getD 0 [])) (some (.string (trim (split.getD 1 []))))
  else
    event

/-- The loop of `sock_get`. -/
def getLoop : ℕ → Event → Text → Event × Text
  | 0, event, stream => (event, stream)
  | fuel + 1, event, stream =>
    match fgets bufferSize stream with
    | none => (event, stream)
    | some (line, rest) =>
      if truthy line then
        if trim line ≠ [] then
          getLoop fuel (addHeader event (trim line)) rest
        else
          match event "Content-Length".toList with
          | some contentLen =>
            let body := sockGetLength bufferSize contentLen rest
            (Function.update event "Body".toList (some body.1), body.2)
          | none => (event, rest)
      else
        (event, rest)

/-- The event that is returned, and what is left to be read. -/
def sockGet (stream : Text) : Event × Text :=
  getLoop bufferSize (stream.length + 1) (fun _ => none) stream

end FreeswitchContrib.FsSock
