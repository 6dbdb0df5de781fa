import Mathlib.Data.List.Basic
import Mathlib.Data.List.Nodup
import Mathlib.Tactic.Common

/-!
# XML documents

A reader of XML documents without a prolog: elements with their attributes, character data,
references, comments, CDATA sections and processing instructions, as XML 1.0 has them.  It goes over
the text one character at a time; `next` says what a character means where it stands, and `perform`
what that does to the open elements.

* `parse` — the document of a text, where the text is well-formed.
* `Reads` — the document that is read from here.
-/

namespace Xml

abbrev Text := List Char

/-! ## Characters -/

def isSpace (c : Char) : Bool := c = ' ' || c = '\t' || c = '\n' || c = '\r'

/-- A character that may stand in a document at all. -/
def isChar (c : Char) : Bool :=
  c = '\t' || c = '\n' || c = '\r' || (0x20 ≤ c.toNat && c.toNat ≤ 0xD7FF) ||
    (0xE000 ≤ c.toNat && c.toNat ≤ 0xFFFD) || 0x10000 ≤ c.toNat

def nameStartRanges : List (ℕ × ℕ) :=
  [(0x3A, 0x3A), (0x41, 0x5A), (0x5F, 0x5F), (0x61, 0x7A), (0xC0, 0xD6), (0xD8, 0xF6),
    (0xF8, 0x2FF), (0x370, 0x37D), (0x37F, 0x1FFF), (0x200C, 0x200D), (0x2070, 0x218F),
    (0x2C00, 0x2FEF), (0x3001, 0xD7FF), (0xF900, 0xFDCF), (0xFDF0, 0xFFFD), (0x10000, 0xEFFFF)]

def nameRanges : List (ℕ × ℕ) :=
  [(0x2D, 0x2E), (0x30, 0x39), (0xB7, 0xB7), (0x300, 0x36F), (0x203F, 0x2040)]

def inRanges (ranges : List (ℕ × ℕ)) (c : Char) : Bool :=
  ranges.any fun range => range.1 ≤ c.toNat && c.toNat ≤ range.2

def isNameStart (c : Char) : Bool := inRanges nameStartRanges c

def isNameChar (c : Char) : Bool := isNameStart c || inRanges nameRanges c

/-! ## References -/

def digitValue (c : Char) : Option ℕ :=
  if '0' ≤ c ∧ c ≤ '9' then some (c.toNat - 48)
  else if 'a' ≤ c ∧ c ≤ 'f' then some (c.toNat - 87)
  else if 'A' ≤ c ∧ c ≤ 'F' then some (c.toNat - 55)
  else none

/-- The number with these digits. -/
def number (base : ℕ) (digits : Text) : Option ℕ :=
  if digits = [] then none
  else
    digits.foldl (fun n c => n.bind fun n => (digitValue c).bind fun d =>
      if d < base then some (base * n + d) else none) (some 0)

/-- The character with this number. -/
def character (n : ℕ) : Option Char :=
  if n.isValidChar ∧ isChar (Char.ofNat n) then some (Char.ofNat n) else none

/-- What stands between `&` and `;`. -/
def reference : Text → Option Char
  | ['a', 'm', 'p'] => some '&'
  | ['l', 't'] => some '<'
  | ['g', 't'] => some '>'
  | ['a', 'p', 'o', 's'] => some '\''
  | ['q', 'u', 'o', 't'] => some '"'
  | '#' :: 'x' :: digits => (number 16 digits).bind character
  | '#' :: digits => (number 10 digits).bind character
  | _ => none

/-! ## Documents -/

inductive Node
  | char (c : Char)
  | element (name : Text) (attrs : List (Text × Text)) (children : List Node)

structure Element where
  name : Text
  attrs : List (Text × Text)
  children : List Node

namespace Element

def node (element : Element) : Node := .element element.name element.attrs element.children

/-- With more children at the end. -/
def append (element : Element) (nodes : List Node) : Element :=
  { element with children := element.children ++ nodes }

end Element

mutual

/-- The characters of a node. -/
def Node.text : Node → Text
  | .char c => [c]
  | .element _ _ children => textOf children

def textOf : List Node → Text
  | [] => []
  | node :: nodes => node.text ++ textOf nodes

end

namespace Element

/-- The elements among the nodes. -/
def among (nodes : List Node) : List Element :=
  nodes.filterMap fun
    | .char _ => none
    | .element name attrs children => some ⟨name, attrs, children⟩

def elements (element : Element) : List Element := among element.children

/-- The first child with this name. -/
def child? (element : Element) (name : Text) : Option Element :=
  element.elements.find? (·.name = name)

def attr? (element : Element) (name : Text) : Option Text :=
  (element.attrs.find? (·.1 = name)).map Prod.snd

def text (element : Element) : Text := textOf element.children

end Element

/-! ## What a character means -/

/-- The quotation mark around a value. -/
inductive Quote
  | single
  | double
deriving DecidableEq

def Quote.char : Quote → Char
  | single => '\''
  | double => '"'

/-- Where a character stands. -/
inductive Mode
  /-- in character data, behind so many `]` -/
  | content (brackets : ℕ)
  /-- in a reference in character data -/
  | reference (ref : Text)
  /-- behind `<` -/
  | markup
  | startName (name : Text)
  /-- in a start-tag, before an attribute or the end; whether there was white space -/
  | inTag (name : Text) (attrs : List (Text × Text)) (space : Bool)
  | attrName (name : Text) (attrs : List (Text × Text)) (attr : Text)
  /-- before `=` -/
  | attrEq (name : Text) (attrs : List (Text × Text)) (attr : Text)
  /-- before the quotation mark -/
  | attrQuote (name : Text) (attrs : List (Text × Text)) (attr : Text)
  | attrValue (name : Text) (attrs : List (Text × Text)) (attr : Text) (quote : Quote)
      (value : Text)
  | attrReference (name : Text) (attrs : List (Text × Text)) (attr : Text) (quote : Quote)
      (value ref : Text)
  /-- behind the `/` of an empty-element tag -/
  | emptyTag (name : Text) (attrs : List (Text × Text))
  | endName (name : Text)
  | endSpace (name : Text)
  /-- behind `<!` -/
  | declaration
  /-- behind `<!-` -/
  | commentOpen
  /-- in a comment, behind so many `-` -/
  | comment (dashes : ℕ)
  /-- behind `<![` and so many characters of `CDATA[` -/
  | cdataOpen (count : ℕ)
  /-- in a CDATA section, behind so many `]` that are not yet part of it -/
  | cdata (brackets : ℕ)
  | piTarget (target : Text)
  /-- behind the target and `?` -/
  | piClose
  /-- in a processing instruction; whether behind a `?` -/
  | pi (question : Bool)
deriving DecidableEq

/-- What a character does. -/
inductive Action
  | go (mode : Mode)
  /-- this is character data -/
  | write (text : Text) (mode : Mode)
  | startTag (name : Text) (attrs : List (Text × Text))
  | emptyTag (name : Text) (attrs : List (Text × Text))
  | endTag (name : Text)

/-- In character data. -/
def nextContent (brackets : ℕ) (c : Char) : Option Action :=
  if c = '<' then some (.go .markup)
  else if c = '&' then some (.go (.reference []))
  else if c = ']' then some (.write [c] (.content (min 2 (brackets + 1))))
  else if c = '>' ∧ brackets = 2 then none
  else some (.write [c] (.content 0))

/-- Behind the name of a start-tag or behind an attribute. -/
def nextInTag (name : Text) (attrs : List (Text × Text)) (space : Bool) (c : Char) : Option Action :=
  if isSpace c then some (.go (.inTag name attrs true))
  else if c = '>' then some (.startTag name attrs)
  else if c = '/' then some (.go (.emptyTag name attrs))
  else if space && isNameStart c then some (.go (.attrName name attrs [c]))
  else none

/-- Behind the name of an attribute. -/
def nextEq (name : Text) (attrs : List (Text × Text)) (attr : Text) (c : Char) : Option Action :=
  if isSpace c then some (.go (.attrEq name attrs attr))
  else if c = '=' then some (.go (.attrQuote name attrs attr))
  else none

/-- In a value; white space becomes a blank. -/
def nextValue (name : Text) (attrs : List (Text × Text)) (attr : Text) (quote : Quote)
    (value : Text) (c : Char) : Option Action :=
  if c = quote.char then some (.go (.inTag name (attrs ++ [(attr, value)]) false))
  else if c = '<' then none
  else if c = '&' then some (.go (.attrReference name attrs attr quote value []))
  else some (.go (.attrValue name attrs attr quote (value ++ [if isSpace c then ' ' else c])))

/-- Behind the name of an end-tag. -/
def nextEnd (name : Text) (c : Char) : Option Action :=
  if isSpace c then some (.go (.endSpace name))
  else if c = '>' then some (.endTag name)
  else none

/-- In a CDATA section. -/
def nextCdata (brackets : ℕ) (c : Char) : Option Action :=
  if c = ']' then
    if brackets = 2 then some (.write [c] (.cdata 2)) else some (.go (.cdata (brackets + 1)))
  else if c = '>' ∧ brackets = 2 then some (.go (.content 0))
  else some (.write (List.replicate brackets ']' ++ [c]) (.cdata 0))

/-- What a character means where it stands. -/
def next (mode : Mode) (c : Char) : Option Action :=
  match mode with
  | .content brackets => nextContent brackets c
  | .reference ref =>
    if c = ';' then (reference ref).map fun c => .write [c] (.content 0)
    else if isNameChar c || c = '#' then some (.go (.reference (ref ++ [c])))
    else none
  | .markup =>
    if c = '/' then some (.go (.endName []))
    else if c = '!' then some (.go .declaration)
    else if c = '?' then some (.go (.piTarget []))
    else if isNameStart c then some (.go (.startName [c]))
    else none
  | .startName name =>
    if isNameChar c then some (.go (.startName (name ++ [c]))) else nextInTag name [] false c
  | .inTag name attrs space => nextInTag name attrs space c
  | .attrName name attrs attr =>
    if isNameChar c then some (.go (.attrName name attrs (attr ++ [c])))
    else nextEq name attrs attr c
  | .attrEq name attrs attr => nextEq name attrs attr c
  | .attrQuote name attrs attr =>
    if isSpace c then some (.go (.attrQuote name attrs attr))
    else if c = '"' then some (.go (.attrValue name attrs attr .double []))
    else if c = '\'' then some (.go (.attrValue name attrs attr .single []))
    else none
  | .attrValue name attrs attr quote value => nextValue name attrs attr quote value c
  | .attrReference name attrs attr quote value ref =>
    if c = ';' then
      (reference ref).map fun c => .go (.attrValue name attrs attr quote (value ++ [c]))
    else if isNameChar c || c = '#' then
      some (.go (.attrReference name attrs attr quote value (ref ++ [c])))
    else none
  | .emptyTag name attrs => if c = '>' then some (.emptyTag name attrs) else none
  | .endName name =>
    if (if name = [] then isNameStart c else isNameChar c) then some (.go (.endName (name ++ [c])))
    else nextEnd name c
  | .endSpace name => nextEnd name c
  | .declaration =>
    if c = '-' then some (.go .commentOpen)
    else if c = '[' then some (.go (.cdataOpen 0))
    else none
  | .commentOpen => if c = '-' then some (.go (.comment 0)) else none
  | .comment dashes =>
    if dashes = 2 then if c = '>' then some (.go (.content 0)) else none
    else if c = '-' then some (.go (.comment (dashes + 1)))
    else some (.go (.comment 0))
  | .cdataOpen count =>
    if ['C', 'D', 'A', 'T', 'A', '['][count]? = some c then
      some (.go (if count = 5 then .cdata 0 else .cdataOpen (count + 1)))
    else none
  | .cdata brackets => nextCdata brackets c
  | .piTarget target =>
    if (if target = [] then isNameStart c else isNameChar c) then
      some (.go (.piTarget (target ++ [c])))
    else if target = [] ∨ target.map Char.toLower = ['x', 'm', 'l'] then none
    else if isSpace c then some (.go (.pi false))
    else if c = '?' then some (.go .piClose)
    else none
  | .piClose => if c = '>' then some (.go (.content 0)) else none
  | .pi question =>
    if c = '?' then some (.go (.pi true))
    else if c = '>' ∧ question then some (.go (.content 0))
    else some (.go (.pi false))

/-! ## What is read -/

structure State where
  mode : Mode
  /-- the innermost comes first -/
  openElements : List Element
  root : Option Element

namespace State

/-- Nothing is read yet. -/
def start : State := ⟨.content 0, [], none⟩

/-- Character data; around the root element there is only white space. -/
def write (text : Text) (mode : Mode) (state : State) : Option State :=
  match state.openElements with
  | [] => if text.all isSpace then some { state with mode := mode } else none
  | top :: rest =>
    some { state with mode := mode, openElements := top.append (text.map .char) :: rest }

/-- An element begins; there is one root element, and an attribute is given once. -/
def startTag (name : Text) (attrs : List (Text × Text)) (state : State) : Option State :=
  if (attrs.map Prod.fst).Nodup ∧ (state.openElements = [] → state.root.isNone) then
    some { state with mode := .content 0, openElements := ⟨name, attrs, []⟩ :: state.openElements }
  else none

/-- The innermost element ends. -/
def endTag (name : Text) (state : State) : Option State :=
  match state.openElements with
  | [] => none
  | top :: rest =>
    if top.name = name then
      match rest with
      | [] => some ⟨.content 0, [], some top⟩
      | parent :: rest => some ⟨.content 0, parent.append [top.node] :: rest, state.root⟩
    else none

/-- References and CDATA sections stand in elements. -/
def go (mode : Mode) (state : State) : Option State :=
  match mode, state.openElements with
  | .reference _, [] | .cdataOpen _, [] => none
  | mode, _ => some { state with mode := mode }

def perform (state : State) : Action → Option State
  | .go mode => state.go mode
  | .write text mode => state.write text mode
  | .startTag name attrs => state.startTag name attrs
  | .emptyTag name attrs => (state.startTag name attrs).bind (endTag name)
  | .endTag name => state.endTag name

def step (state : State) (c : Char) : Option State :=
  if isChar c then (next state.mode c).bind state.perform else none

def run (state : State) : Text → Option State
  | [] => some state
  | c :: text => (state.step c).bind fun state => state.run text

/-- The document, where it is complete. -/
def document (state : State) : Option Element :=
  match state with
  | ⟨.content _, [], root⟩ => root
  | _ => none

end State

/-- A line ends with a line feed. -/
def normalizeLines : Text → Text
  | [] => []
  | '\r' :: '\n' :: text => '\n' :: normalizeLines text
  | '\r' :: text => '\n' :: normalizeLines text
  | c :: text => c :: normalizeLines text

@[simp]
lemma normalizeLines_nil : normalizeLines [] = [] := by
  rw [normalizeLines]

/-- The document of this text, if it is well-formed. -/
def parse (text : Text) : Option Element :=
  (State.start.run (normalizeLines text)).bind State.document

/-! ## Reading on -/

variable {state state' : State} {text rest : Text} {doc top : Element} {es : List Element}
  {name name' : Text} {attrs : List (Text × Text)} {c : Char} {action : Action}

lemma Element.append_append (e : Element) (ms ns : List Node) :
    (e.append ms).append ns = e.append (ms ++ ns) :=
  congrArg (Element.mk e.name e.attrs) (List.append_assoc _ _ _)

lemma Element.append_nil (e : Element) : e.append [] = e :=
  congrArg (Element.mk e.name e.attrs) (List.append_nil _)

lemma Element.among_append (ms ns : List Node) : among (ms ++ ns) = among ms ++ among ns :=
  List.filterMap_append

/-- There are no elements in a text. -/
lemma Element.among_char (text : Text) : among (text.map .char) = [] := by
  induction text with
  | nil => rfl
  | cons c text ih => exact ih

lemma Element.among_node (e : Element) (nodes : List Node) :
    among (e.node :: nodes) = e :: among nodes := rfl

namespace State

/-- This is the document if the text is read from here. -/
def Reads (state : State) (text : Text) (doc : Element) : Prop :=
  (state.run text).bind document = some doc

lemma run_append (state : State) (text rest : Text) :
    state.run (text ++ rest) = (state.run text).bind fun state => state.run rest := by
  induction text generalizing state with
  | nil => rfl
  | cons c text ih =>
    rw [List.cons_append, run, run, Option.bind_assoc]
    exact Option.bind_congr fun state _ => ih state

lemma run_of_run (h : state.run text = some state') (rest : Text) :
    state.run (text ++ rest) = state'.run rest := by
  rw [run_append, h]
  rfl

lemma reads_append (h : state.run text = some state') :
    state.Reads (text ++ rest) doc ↔ state'.Reads rest doc := by
  rw [Reads, run_of_run h]
  rfl

lemma not_reads_append (h : state.run text = none) : ¬ state.Reads (text ++ rest) doc := by
  rw [Reads, run_append, h]
  exact fun h => nomatch h

/-- The first character. -/
lemma Reads.exists_next (h : state.Reads (c :: text) doc) :
    ∃ action state', isChar c ∧ next state.mode c = some action ∧
      state.perform action = some state' ∧ state'.Reads text doc := by
  rw [Reads, run, step] at h
  split_ifs at h with hc
  · cases hnext : next state.mode c with
    | none =>
      rw [hnext] at h
      cases h
    | some action =>
      cases hperform : state.perform action with
      | none =>
        rw [hnext, Option.bind_some, hperform] at h
        cases h
      | some state' =>
        rw [hnext, Option.bind_some, hperform] at h
        exact ⟨action, state', hc, rfl, hperform, h⟩
  · cases h

lemma Reads.of_nil (h : state.Reads [] doc) :
    (∃ brackets, state.mode = .content brackets) ∧ state.openElements = [] ∧
      state.root = some doc := by
  obtain ⟨mode, openElements, root⟩ := state
  cases mode with
  | content brackets =>
    cases openElements with
    | nil => exact ⟨⟨brackets, rfl⟩, rfl, h⟩
    | cons top es => cases h
  | _ => cases h

end State

/-! ## What becomes of the open elements -/

/-- The element is completed in these open elements, and this is the document in the end. -/
def Completes : List Element → Element → Element → Prop
  | [], element, doc => doc = element
  | parent :: rest, element, doc => ∃ more, Completes rest (parent.append (element.node :: more)) doc

namespace State

/-- What is read becomes part of the document. -/
def LeadsTo (state : State) (doc : Element) : Prop :=
  match state.openElements with
  | [] => ∀ root, state.root = some root → doc = root
  | top :: rest => ∃ more, Completes rest (top.append more) doc

/-- What becomes of the open elements at an end-tag. -/
lemma endTag_cases (h : state.endTag name = some state') :
    ∃ top rest, state.openElements = top :: rest ∧
      (rest = [] ∧ state' = ⟨.content 0, [], some top⟩ ∨
        ∃ parent es, rest = parent :: es ∧
          state' = ⟨.content 0, parent.append [top.node] :: es, state.root⟩) := by
  rw [endTag] at h
  cases hopen : state.openElements with
  | nil =>
    rw [hopen] at h
    cases h
  | cons top rest =>
    rw [hopen] at h
    dsimp only at h
    split_ifs at h
    refine ⟨top, rest, rfl, ?_⟩
    cases rest with
    | nil => exact Or.inl ⟨rfl, (Option.some_inj.mp h).symm⟩
    | cons parent es => exact Or.inr ⟨parent, es, rfl, (Option.some_inj.mp h).symm⟩

lemma LeadsTo.of_endTag (h : state.endTag name = some state') (hlead : state'.LeadsTo doc) :
    ∃ top rest, state.openElements = top :: rest ∧ top.name = name ∧ Completes rest top doc := by
  rw [endTag] at h
  cases hopen : state.openElements with
  | nil =>
    rw [hopen] at h
    cases h
  | cons top rest =>
    rw [hopen] at h
    dsimp only at h
    by_cases hname : top.name = name
    · refine ⟨top, rest, rfl, hname, ?_⟩
      rw [if_pos hname] at h
      cases rest with
      | nil =>
        cases h
        exact hlead top rfl
      | cons parent rest =>
        cases h
        obtain ⟨more, hmore⟩ := hlead
        rw [Element.append_append] at hmore
        exact ⟨more, hmore⟩
    · rw [if_neg hname] at h
      cases h

lemma leadsTo_of_completes (hopen : state.openElements = top :: es) (h : Completes es top doc) :
    state.LeadsTo doc := by
  rw [LeadsTo, hopen]
  exact ⟨[], by rwa [Element.append_nil]⟩

lemma LeadsTo.of_startTag (h : state.startTag name attrs = some state')
    (hlead : state'.LeadsTo doc) :
    (∃ more, Completes state.openElements ⟨name, attrs, more⟩ doc) ∧ state.LeadsTo doc := by
  rw [startTag] at h
  split_ifs at h with hcond
  cases h
  obtain ⟨more, hmore⟩ := hlead
  refine ⟨⟨more, hmore⟩, ?_⟩
  rw [LeadsTo]
  cases hopen : state.openElements with
  | nil =>
    intro root hroot
    have hnone := hcond.2 hopen
    rw [hroot] at hnone
    cases hnone
  | cons parent rest =>
    rw [hopen] at hmore
    obtain ⟨more', hmore'⟩ := hmore
    exact ⟨_, hmore'⟩

lemma go_eq_some {mode : Mode} (h : state.go mode = some state') :
    state' = { state with mode := mode } := by
  rw [go.eq_def] at h
  split at h
  case h_3 => exact (Option.some_inj.mp h).symm
  all_goals cases h

/-- **Nothing that is read is lost.** -/
lemma LeadsTo.of_perform (h : state.perform action = some state') (hlead : state'.LeadsTo doc) :
    state.LeadsTo doc := by
  cases action with
  | go mode =>
    rw [go_eq_some h] at hlead
    exact hlead
  | write text mode =>
    rw [perform, write] at h
    cases hopen : state.openElements with
    | nil =>
      rw [hopen] at h
      dsimp only at h
      split_ifs at h
      cases h
      rw [LeadsTo, hopen]
      exact fun root hroot => hlead root hroot
    | cons top rest =>
      rw [hopen] at h
      cases h
      obtain ⟨more, hmore⟩ := hlead
      rw [LeadsTo, hopen]
      rw [Element.append_append] at hmore
      exact ⟨_, hmore⟩
  | startTag name attrs => exact (hlead.of_startTag h).2
  | emptyTag name attrs =>
    obtain ⟨state'', hstart, hend⟩ := Option.bind_eq_some_iff.mp h
    obtain ⟨top, rest, hopen, -, hcompletes⟩ := hlead.of_endTag hend
    exact ((leadsTo_of_completes hopen hcompletes).of_startTag hstart).2
  | endTag name =>
    obtain ⟨top, rest, hopen, -, hcompletes⟩ := hlead.of_endTag h
    exact leadsTo_of_completes hopen hcompletes

lemma Reads.leadsTo (h : state.Reads text doc) : state.LeadsTo doc := by
  induction text generalizing state with
  | nil =>
    obtain ⟨-, hopen, hroot⟩ := h.of_nil
    rw [LeadsTo, hopen]
    intro root hroot'
    exact Option.some_inj.mp (hroot.symm.trans hroot')
  | cons c text ih =>
    obtain ⟨action, state', -, -, hperform, hreads⟩ := h.exists_next
    exact (ih hreads).of_perform hperform

end State

end Xml
