import FreeswitchContrib.JsonC.JsonObject
import FreeswitchContrib.Library.CString

/-!
# The tokener

`json_tokener_parse_ex` is a state machine with a stack of levels.  It looks at a character in its
state, and either goes on to the next one (`break`), looks at the same one again (`goto redo_char`)
or ends (`goto out`).  A value that is complete is handed to the level below in a look of its own, so
that one character can take several looks; `looksPerChar` is how many it is given.
-/

namespace FreeswitchContrib.JsonC

open CString (nul isspace)

inductive TokenerState where
  | eatws
  | start
  | finish
  | null
  | commentStart
  | comment
  | commentEol
  | commentEnd
  | string
  | stringEscape
  | escapeUnicode
  | boolean
  | number
  | array
  | arrayAdd
  | arraySep
  | objectFieldStart
  | objectField
  | objectFieldEnd
  | objectValue
  | objectValueAdd
  | objectSep
  deriving DecidableEq

inductive TokenerError where
  | depth
  | parseEof
  | parseUnexpected
  | parseNull
  | parseBoolean
  | parseNumber
  | parseArray
  | parseObjectKeyName
  | parseObjectKeySep
  | parseObjectValueSep
  | parseString
  | parseComment
  deriving DecidableEq

/-- `JSON_TOKENER_MAX_DEPTH`. -/
def jsonTokenerMaxDepth : ℕ := 32

/-- `struct json_tokener_srec`. -/
structure Srec (δ : Type) where
  state : TokenerState
  savedState : TokenerState
  current : JsonObject δ
  objFieldName : Option (List Char)

/-- `struct json_tokener` with the level at `depth` and those below it, and the variable `obj`. -/
structure Tokener (δ : Type) where
  pb : List Char
  isDouble : Bool
  stPos : ℕ
  ucsChar : ℕ
  quoteChar : Char
  obj : JsonObject δ
  top : Srec δ
  below : List (Srec δ)

variable {δ : Type}

/-- `json_tokener_reset_level`. -/
def Srec.reset : Srec δ := ⟨.eatws, .start, .null, none⟩

namespace Tokener

/-- `json_tokener_new`. -/
def new : Tokener δ := ⟨[], false, 0, 0, nul, .null, .reset, []⟩

def depth (tok : Tokener δ) : ℕ := tok.below.length

/-- `state = …`. -/
def goto (tok : Tokener δ) (state : TokenerState) : Tokener δ :=
  { tok with top := { tok.top with state } }

/-- `saved_state = …; state = json_tokener_state_eatws`. -/
def await (tok : Tokener δ) (savedState : TokenerState) : Tokener δ :=
  { tok with top := { tok.top with savedState, state := .eatws } }

/-- `current = …`. -/
def setCurrent (tok : Tokener δ) (current : JsonObject δ) : Tokener δ :=
  { tok with top := { tok.top with current } }

/-- A value is complete. -/
def complete (tok : Tokener δ) (v : JsonObject δ) : Tokener δ := (tok.setCurrent v).await .finish

/-- `printbuf_reset`. -/
def resetBuf (tok : Tokener δ) : Tokener δ := { tok with pb := [] }

/-- `printbuf_memappend`. -/
def append (tok : Tokener δ) (s : List Char) : Tokener δ := { tok with pb := tok.pb ++ s }

end Tokener

/-- What a look at a character comes to. -/
inductive Look (δ : Type) where
  /-- `break` -/
  | next (tok : Tokener δ)
  /-- `goto redo_char` -/
  | redo (tok : Tokener δ)
  /-- `goto out`, with an error or without -/
  | out (tok : Tokener δ) (err : Option TokenerError)
  /-- a pointer is followed that is null or points to a value of another type -/
  | fault

def jsonNullStr : List Char := ['n', 'u', 'l', 'l']

def jsonTrueStr : List Char := ['t', 'r', 'u', 'e']

def jsonFalseStr : List Char := ['f', 'a', 'l', 's', 'e']

/-- `strncasecmp(s, t, n) == 0`. -/
def strncasecmp (s t : List Char) (n : ℕ) : Bool :=
  (s.take n).map Char.toLower == ((t ++ [nul]).take n).map Char.toLower

/-- `hexdigit`, as an `unsigned int`. -/
def hexdigit (c : Char) : ℕ :=
  if c ≤ '9' then (2 ^ 32 + c.toNat - '0'.toNat) % 2 ^ 32 else (c.toNat &&& 7) + 9

/-- The bytes of a character of sixteen bits. -/
def utfOut (ucsChar : ℕ) : List Char :=
  (if ucsChar < 0x80 then [ucsChar]
  else if ucsChar < 0x800 then [0xc0 ||| (ucsChar >>> 6), 0x80 ||| (ucsChar &&& 0x3f)]
  else [0xe0 ||| (ucsChar >>> 12), 0x80 ||| ((ucsChar >>> 6) &&& 0x3f),
    0x80 ||| (ucsChar &&& 0x3f)]).map fun byte => Char.ofNat (byte % 256)

/-- `sscanf("%d")`, if there is a number. -/
def sscanfInt (s : List Char) : Option Int32 :=
  if CString.numberEnd s = s then none else some (Int32.ofInt (CString.strtol s))

/-- A C string in a buffer. -/
def cString (buf : List Char) : List Char := buf.takeWhile (· ≠ nul)

/-- The looks that begin a value. -/
def lookStart (tok : Tokener δ) (c : Char) : Look δ :=
  if c = '\x7b' then .next ((tok.setCurrent (.object [])).await .objectFieldStart)
  else if c = '[' then .next ((tok.setCurrent (.array [])).await .array)
  else if c = 'N' ∨ c = 'n' then .redo { tok.goto .null with pb := [], stPos := 0 }
  else if c = '"' ∨ c = '\'' then .next { tok.goto .string with pb := [], quoteChar := c }
  else if c = 'T' ∨ c = 't' ∨ c = 'F' ∨ c = 'f' then
    .redo { tok.goto .boolean with pb := [], stPos := 0 }
  else if c.isDigit ∨ c = '-' then .redo { tok.goto .number with pb := [], isDouble := false }
  else .out tok (some .parseUnexpected)

/-- A value that is complete is handed to the level below. -/
def lookFinish (tok : Tokener δ) : Look δ :=
  match tok.below with
  | [] => .out tok none
  | level :: below => .redo { tok with obj := tok.top.current, top := level, below }

def lookNull (tok : Tokener δ) (c : Char) : Look δ :=
  let tok := tok.append [c]
  if strncasecmp jsonNullStr tok.pb (min (tok.stPos + 1) jsonNullStr.length) then
    if tok.stPos = jsonNullStr.length then .redo (tok.complete .null)
    else .next { tok with stPos := tok.stPos + 1 }
  else .out tok (some .parseNull)

def lookBoolean (tok : Tokener δ) (c : Char) : Look δ :=
  let tok := tok.append [c]
  if strncasecmp jsonTrueStr tok.pb (min (tok.stPos + 1) jsonTrueStr.length) then
    if tok.stPos = jsonTrueStr.length then .redo (tok.complete (.boolean true))
    else .next { tok with stPos := tok.stPos + 1 }
  else if strncasecmp jsonFalseStr tok.pb (min (tok.stPos + 1) jsonFalseStr.length) then
    if tok.stPos = jsonFalseStr.length then .redo (tok.complete (.boolean false))
    else .next { tok with stPos := tok.stPos + 1 }
  else .out tok (some .parseBoolean)

def lookNumber (d : Doubles δ) (tok : Tokener δ) (c : Char) : Look δ :=
  if c ∈ jsonNumberChars then
    .next { tok.append [c] with isDouble := tok.isDouble || (c == '.' || c == 'e') }
  else if tok.isDouble then
    match d.scan (cString tok.pb) with
    | some x => .redo (tok.complete (.double x))
    | none => .out tok (some .parseNumber)
  else
    match sscanfInt (cString tok.pb) with
    | some i => .redo (tok.complete (.int i))
    | none => .out tok (some .parseNumber)

def lookStringEscape (tok : Tokener δ) (c : Char) : Look δ :=
  if c = '"' ∨ c = '\\' ∨ c = '/' then .next ((tok.append [c]).goto tok.top.savedState)
  else if c = 'b' then .next ((tok.append ['\x08']).goto tok.top.savedState)
  else if c = 'n' then .next ((tok.append ['\n']).goto tok.top.savedState)
  else if c = 'r' then .next ((tok.append ['\r']).goto tok.top.savedState)
  else if c = 't' then .next ((tok.append ['\t']).goto tok.top.savedState)
  else if c = 'u' then .next { tok.goto .escapeUnicode with ucsChar := 0, stPos := 0 }
  else .out tok (some .parseString)

def lookEscapeUnicode (tok : Tokener δ) (c : Char) : Look δ :=
  -- strchr finds the NUL at the end of the string as well
  if c ∈ jsonHexChars ∨ c = nul then
    let ucsChar := (tok.ucsChar + (hexdigit c <<< ((3 - tok.stPos) * 4))) % 2 ^ 32
    let tok := { tok with ucsChar, stPos := tok.stPos + 1 }
    if tok.stPos = 4 then .next ((tok.append (utfOut ucsChar)).goto tok.top.savedState)
    else .next tok
  else .out tok (some .parseString)

/-- A new level, for a value in a container. -/
def push (tok : Tokener δ) (state : TokenerState) : Look δ :=
  if jsonTokenerMaxDepth - 1 ≤ tok.depth then .out tok (some .depth)
  else .redo { tok with top := .reset, below := { tok.top with state } :: tok.below }

def lookArrayAdd (tok : Tokener δ) : Look δ :=
  match tok.top.current with
  | .array elements => .redo ((tok.setCurrent (.array (elements ++ [tok.obj]))).await .arraySep)
  | _ => .fault

def lookObjectValueAdd (tok : Tokener δ) : Look δ :=
  match tok.top.current, tok.top.objFieldName with
  | .object members, some key =>
    let tok := tok.setCurrent (.object (addMember members key tok.obj))
    .redo ({ tok with top := { tok.top with objFieldName := none } }.await .objectSep)
  | _, _ => .fault

/-- The body of the `switch`. -/
def look (d : Doubles δ) (tok : Tokener δ) (c : Char) : Look δ :=
  match tok.top.state with
  | .eatws =>
    if isspace c then .next tok
    else if c = '/' then .next ((tok.resetBuf.append [c]).goto .commentStart)
    else .redo (tok.goto tok.top.savedState)
  | .start => lookStart tok c
  | .finish => lookFinish tok
  | .null => lookNull tok c
  | .commentStart =>
    if c = '*' then .next ((tok.goto .comment).append [c])
    else if c = '/' then .next ((tok.goto .commentEol).append [c])
    else .out tok (some .parseComment)
  | .comment => .next ((if c = '*' then tok.goto .commentEnd else tok).append [c])
  | .commentEol => .next (if c = '\n' then tok.goto .eatws else tok.append [c])
  | .commentEnd => .next ((tok.append [c]).goto (if c = '/' then .eatws else .comment))
  | .string =>
    if c = tok.quoteChar then .next (tok.complete (.string (cString tok.pb)))
    else if c = '\\' then
      .next { tok with top := { tok.top with savedState := .string, state := .stringEscape } }
    else .next (tok.append [c])
  | .stringEscape => lookStringEscape tok c
  | .escapeUnicode => lookEscapeUnicode tok c
  | .boolean => lookBoolean tok c
  | .number => lookNumber d tok c
  | .array => if c = ']' then .next (tok.await .finish) else push tok .arrayAdd
  | .arrayAdd => lookArrayAdd tok
  | .arraySep =>
    if c = ']' then .next (tok.await .finish)
    else if c = ',' then .next (tok.await .array)
    else .out tok (some .parseArray)
  | .objectFieldStart =>
    if c = '\x7d' then .next (tok.await .finish)
    else if c = '"' ∨ c = '\'' then .next { tok.goto .objectField with quoteChar := c, pb := [] }
    else .out tok (some .parseObjectKeyName)
  | .objectField =>
    if c = tok.quoteChar then
      .next ({ tok with top := { tok.top with objFieldName := some (cString tok.pb) } }.await
        .objectFieldEnd)
    else if c = '\\' then
      .next { tok with top := { tok.top with savedState := .objectField, state := .stringEscape } }
    else .next (tok.append [c])
  | .objectFieldEnd =>
    if c = ':' then .next (tok.await .objectValue) else .out tok (some .parseObjectKeySep)
  | .objectValue => push tok .objectValueAdd
  | .objectValueAdd => lookObjectValueAdd tok
  | .objectSep =>
    if c = '\x7d' then .next (tok.await .finish)
    else if c = ',' then .next (tok.await .objectFieldStart)
    else .out tok (some .parseObjectValueSep)

/-- What some characters come to. -/
inductive Outcome (δ : Type) where
  /-- they are read -/
  | more (tok : Tokener δ)
  | out (tok : Tokener δ) (err : Option TokenerError)
  | fault
  /-- too many looks at one of them -/
  | stuck

/-- At most so many looks at a character. -/
def parseChar (d : Doubles δ) : ℕ → Tokener δ → Char → Outcome δ
  | 0, _, _ => .stuck
  | n + 1, tok, c =>
    match look d tok c with
    | .next tok => .more tok
    | .redo tok => parseChar d n tok c
    | .out tok err => .out tok err
    | .fault => .fault

def looksPerChar : ℕ := 6

def parseChars (d : Doubles δ) (tok : Tokener δ) : List Char → Outcome δ
  | [] => .more tok
  | c :: str =>
    match parseChar d looksPerChar tok c with
    | .more tok => parseChars d tok str
    | o => o

/-- Why there is no value. -/
inductive NoValue where
  | err (err : TokenerError)
  | fault
  | loops
  deriving DecidableEq

/-- `json_tokener_parse_ex` on a string to its NUL. -/
def jsonTokenerParseEx (d : Doubles δ) (tok : Tokener δ) (str : List Char) :
    Except NoValue (JsonObject δ) :=
  match parseChars d tok (str ++ [nul]) with
  | .more tok =>
    if tok.top.state ≠ .finish ∧ tok.top.savedState ≠ .finish then .error (.err .parseEof)
    else .ok tok.top.current
  | .out tok none => .ok tok.top.current
  | .out _ (some err) => .error (.err err)
  | .fault => .error .fault
  | .stuck => .error .loops

def jsonTokenerParse (d : Doubles δ) (str : List Char) : Except NoValue (JsonObject δ) :=
  jsonTokenerParseEx d .new str

end FreeswitchContrib.JsonC
