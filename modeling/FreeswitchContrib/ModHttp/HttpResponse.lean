import FreeswitchContrib.ModHttp.Lexer
import Mathlib.Data.Int.Basic

/-!
# The response parser of mod_http

`httpParseResponse` reads the status line token by token, counts the headers in a first pass over
the rest, extracts them in a second pass, and takes what is left for the body.  The second pass
finds the end of a value that is no plain phrase by hand, and continues at `j + 2`.

A string of the result is the list of its characters before its NUL.  The buffer of the only caller
holds at most 65535 characters, so the positions are natural numbers.
-/

namespace FreeswitchContrib.ModHttp

/-- `http_header_t`. -/
structure HttpHeader where
  fieldName : List Char
  value : List Char
deriving DecidableEq

/-- `http_response_t`. -/
structure HttpResponse where
  version : List Char
  statusCode : ℤ
  phrase : List Char
  headers : List HttpHeader
  headerLen : ℕ
  body : List Char
  bodyLen : ℤ
deriving DecidableEq

/-- The calls of `malloc`, each of which may fail. -/
inductive Allocation where
  | version
  | phrase
  | headers
  | fieldName (i : ℕ)
  | value (i : ℕ)
  | body
deriving DecidableEq

def statusCodeLen : ℕ := 4

/-- What `strncpy` copies of the buffer: at most `size` characters, up to a NUL. -/
def strncpy (buf : List Char) (pos size : ℕ) : List Char :=
  ((buf.drop pos).take size).takeWhile fun c => decide (c ≠ '\x00')

def isspace (c : Char) : Bool :=
  decide (c = ' ') || (decide (9 ≤ c.toNat) && decide (c.toNat ≤ 13))

/-- The value of a run of digits. -/
def decimalValue (digits : List Char) : ℕ :=
  digits.foldl (fun value c => 10 * value + (c.toNat - 48)) 0

def atoi (s : List Char) : ℤ :=
  match s.dropWhile isspace with
  | '-' :: digits => -decimalValue (digits.takeWhile isdigit)
  | '+' :: digits => decimalValue (digits.takeWhile isdigit)
  | digits => decimalValue (digits.takeWhile isdigit)

/-- `malloc` for `size` characters and a NUL, then `strncpy`. -/
def copyField (malloc : Allocation → Bool) (site : Allocation) (buf : List Char) (pos : ℕ)
    (size : ℤ) : Except Failure (List Char) :=
  if size < 0 then .error .fault
  else if !malloc site then .error .error
  else if buf.length < pos then .error .fault
  else .ok (strncpy buf pos size.toNat)

/-- The loop that looks for the end of a line; without one it reads past the buffer. -/
def findCrlf : List Char → Option ℕ
  | [] => none
  | c :: cs => if c = '\r' ∧ cs.head? = some '\n' then some 0 else (findCrlf cs).map (· + 1)

/-- A token that has to come next; any other is an `ERROR`. -/
def expectToken (buf : List Char) (want : Token) (sm : StateMachine) :
    Except Failure StateMachine := do
  let (token, sm) ← getNextToken buf sm
  if token ≠ want then .error .error else .ok sm

/-- The status line: the version with its blank, the status code and the phrase. -/
def parseStatusLine (malloc : Allocation → Bool) (buf : List Char) (sm : StateMachine) :
    Except Failure (List Char × ℤ × List Char × StateMachine) := do
  let pos := sm.pos
  let sm ← expectToken buf .version sm
  let version ← copyField malloc .version buf pos (sm.pos - pos)
  let pos := sm.pos
  let sm ← expectToken buf .statusCode sm
  let statusCode := atoi (strncpy buf pos (statusCodeLen - 1))
  let pos := sm.pos
  let sm ← expectToken buf .phrase sm
  let phrase ← copyField malloc .phrase buf pos (sm.pos - pos - 2)
  return (version, statusCode, phrase, sm)

/-- The first pass: a header and the token behind it count as one, whatever that token is. -/
def countHeaders (buf : List Char) : ℕ → StateMachine → Bool → ℕ →
    Except Failure (ℕ × StateMachine)
  | 0, _, _, _ => .error .fault
  | fuel + 1, sm, f, nt => do
    let (token, sm) ← getNextToken buf sm
    match token with
    | .phrase | .statusCode => countHeaders buf fuel sm false nt
    | .header =>
      if f then countHeaders buf fuel sm false nt else countHeaders buf fuel sm true (nt + 1)
    | .version | .newline => return (nt, sm)
    | .syntaxError => throw .error

/-- The value of header `i`: up to its token's end, or, for a value that is a `HEADER` or
`STATUS_CODE` token, up to the end of the line. -/
def parseValue (malloc : Allocation → Bool) (buf : List Char) (i : ℕ) (sm : StateMachine) :
    Except Failure (List Char × StateMachine) := do
  let pos := sm.pos
  let (token, sm) ← getNextToken buf sm
  let (size, sm) ←
    if token = .header ∨ token = .statusCode then
      match findCrlf (buf.drop pos) with
      | none => throw .fault
      | some j => pure ((j : ℤ), { sm with pos := j + 2 })
    else pure ((sm.pos : ℤ) - pos - 2, sm)
  let value ← copyField malloc (.value i) buf pos size
  return (value, sm)

/-- The second pass, from header `i` on. -/
def parseHeaders (malloc : Allocation → Bool) (buf : List Char) : ℕ → ℕ → StateMachine →
    Except Failure (List HttpHeader × StateMachine)
  | _, 0, sm => return ([], sm)
  | i, nt + 1, sm => do
    let pos := sm.pos
    let (_, sm) ← getNextToken buf { sm with state := .start, stop := false }
    let fieldName ← copyField malloc (.fieldName i) buf pos (sm.pos - pos - 2)
    let (value, sm) ← parseValue malloc buf i sm
    let (headers, sm) ← parseHeaders malloc buf (i + 1) nt sm
    return (⟨fieldName, value⟩ :: headers, sm)

/-- The blank line and the body. -/
def parseBody (malloc : Allocation → Bool) (buf : List Char) (sm : StateMachine) :
    Except Failure (List Char × ℤ) := do
  let sm ← expectToken buf .newline sm
  let bodyLen : ℤ := buf.length - sm.pos
  if bodyLen < 0 then .error .fault
  else if !malloc .body then .error .error
  else .ok (buf.drop sm.pos, bodyLen)

/-- The array of the headers is not allocated when there are none. -/
def mallocHeaders (malloc : Allocation → Bool) (nt : ℕ) : Except Failure Unit :=
  if nt ≠ 0 ∧ malloc .headers = false then .error .error else .ok ()

/-- `http_parse_response`. -/
def httpParseResponse (malloc : Allocation → Bool) (buf : List Char) :
    Except Failure HttpResponse := do
  let (version, statusCode, phrase, sm) ← parseStatusLine malloc buf .init
  let oldPos := sm.pos
  let (nt, sm) ← countHeaders buf (buf.length + 1) sm false 0
  mallocHeaders malloc nt
  let (headers, sm) ← parseHeaders malloc buf 0 nt { sm with pos := oldPos }
  let (body, bodyLen) ← parseBody malloc buf sm
  return { version, statusCode, phrase, headers, headerLen := nt, body, bodyLen }

end FreeswitchContrib.ModHttp
