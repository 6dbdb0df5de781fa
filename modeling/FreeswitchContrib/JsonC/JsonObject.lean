import FreeswitchContrib.Library.CString

/-!
# JSON values and their texts

The values of `json_object.c` and `json_object_to_json_string`.  A null pointer is `null`, which is
what the value `null` is parsed to.  The members of an object are the entries of its table, in the
order of their list.

`printf` and `sscanf` of a double are parameters (`Doubles`).
-/

namespace FreeswitchContrib.JsonC

open CString (nul)

/-- `struct json_object`, or a null pointer. -/
inductive JsonObject (δ : Type) where
  | null
  | boolean (b : Bool)
  | double (x : δ)
  | int (i : Int32)
  | object (members : List (List Char × JsonObject δ))
  | array (elements : List (JsonObject δ))
  | string (s : List Char)

/-- `"%lf"`, printed and scanned. -/
structure Doubles (δ : Type) where
  print : δ → List Char
  scan : List Char → Option δ

variable {δ : Type}

/-! ## Printing -/

def jsonNumberChars : List Char :=
  ['0', '1', '2', '3', '4', '5', '6', '7', '8', '9', '.', '+', '-', 'e']

def jsonHexChars : List Char :=
  ['0', '1', '2', '3', '4', '5', '6', '7', '8', '9', 'a', 'b', 'c', 'd', 'e', 'f']

/-- What is printed for a character of a string. -/
def escapeChar (c : Char) : List Char :=
  if c = '\x08' then ['\\', 'b']
  else if c = '\n' then ['\\', 'n']
  else if c = '\r' then ['\\', 'r']
  else if c = '\t' then ['\\', 't']
  else if c = '"' then ['\\', '"']
  else if c = '\\' then ['\\', '\\']
  else if c = '/' then ['\\', '/']
  else if c.toNat < 32 then
    ['\\', 'u', '0', '0', jsonHexChars.getD (c.toNat / 16) nul, jsonHexChars.getD (c.toNat % 16) nul]
  else [c]

def jsonEscapeStr (s : List Char) : List Char := s.flatMap escapeChar

mutual

def jsonObjectToJsonString (d : Doubles δ) : JsonObject δ → List Char
  | .null => ['n', 'u', 'l', 'l']
  | .boolean true => ['t', 'r', 'u', 'e']
  | .boolean false => ['f', 'a', 'l', 's', 'e']
  | .double x => d.print x
  | .int i => Numeral.ofInt i.toInt
  | .object members => '\x7b' :: (memberTexts d false members ++ [' ', '\x7d'])
  | .array elements => '[' :: (elementTexts d false elements ++ [' ', ']'])
  | .string s => '"' :: (jsonEscapeStr s ++ ['"'])

/-- The loop over the members; `i` says that there has been one. -/
def memberTexts (d : Doubles δ) (i : Bool) : List (List Char × JsonObject δ) → List Char
  | [] => []
  | (key, val) :: members =>
    (if i then [','] else []) ++ [' ', '"'] ++ jsonEscapeStr key ++ ['"', ':', ' '] ++
      jsonObjectToJsonString d val ++ memberTexts d true members

/-- The loop over the elements; `i` says that there has been one. -/
def elementTexts (d : Doubles δ) (i : Bool) : List (JsonObject δ) → List Char
  | [] => []
  | val :: elements =>
    (if i then [',', ' '] else [' ']) ++ jsonObjectToJsonString d val ++ elementTexts d true elements

end

/-! ## Values -/

/-- Strings and keys are C strings, and an object has no key twice. -/
inductive Clean : JsonObject δ → Prop where
  | null : Clean .null
  | boolean (b : Bool) : Clean (.boolean b)
  | double (x : δ) : Clean (.double x)
  | int (i : Int32) : Clean (.int i)
  | object {members : List (List Char × JsonObject δ)} (keys : ∀ m ∈ members, nul ∉ m.1)
    (nodup : (members.map Prod.fst).Nodup) (values : ∀ m ∈ members, Clean m.2) :
    Clean (.object members)
  | array {elements : List (JsonObject δ)} (values : ∀ v ∈ elements, Clean v) :
    Clean (.array elements)
  | string {s : List Char} (nonul : nul ∉ s) : Clean (.string s)

mutual

/-- How many levels are in a value; an empty object or array has none. -/
def nesting : JsonObject δ → ℕ
  | .object members => memberNesting members
  | .array elements => elementNesting elements
  | _ => 0

def memberNesting : List (List Char × JsonObject δ) → ℕ
  | [] => 0
  | (_, val) :: members => max (nesting val + 1) (memberNesting members)

def elementNesting : List (JsonObject δ) → ℕ
  | [] => 0
  | val :: elements => max (nesting val + 1) (elementNesting elements)

end

/-- A double that is printed as a number and scanned back. -/
structure Exact (d : Doubles δ) (x : δ) : Prop where
  chars : ∀ c ∈ d.print x, c ∈ jsonNumberChars
  head : ∃ c rest, d.print x = c :: rest ∧ (c.isDigit = true ∨ c = '-')
  isDouble : '.' ∈ d.print x ∨ 'e' ∈ d.print x
  scan : d.scan (d.print x) = some x

/-- All doubles of a value are exact. -/
inductive ExactIn (d : Doubles δ) : JsonObject δ → Prop where
  | null : ExactIn d .null
  | boolean (b : Bool) : ExactIn d (.boolean b)
  | double {x : δ} (exact : Exact d x) : ExactIn d (.double x)
  | int (i : Int32) : ExactIn d (.int i)
  | object {members : List (List Char × JsonObject δ)} (values : ∀ m ∈ members, ExactIn d m.2) :
    ExactIn d (.object members)
  | array {elements : List (JsonObject δ)} (values : ∀ v ∈ elements, ExactIn d v) :
    ExactIn d (.array elements)
  | string (s : List Char) : ExactIn d (.string s)

/-- `json_object_object_add`: a member of this name is deleted, and the new one comes last. -/
def addMember (members : List (List Char × JsonObject δ)) (key : List Char) (val : JsonObject δ) :
    List (List Char × JsonObject δ) :=
  members.filter (fun m => m.1 ≠ key) ++ [(key, val)]

end FreeswitchContrib.JsonC
