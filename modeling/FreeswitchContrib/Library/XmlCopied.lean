import FreeswitchContrib.Library.Xml
import Mathlib.Tactic.IntervalCases

/-!
# Texts copied into an XML document

What a program gets that puts a text into an attribute or into an element as it is, without
escaping anything.  A plain text is read as itself.  Any other text either makes the document
ill-formed or is read as something else, whatever stands behind it: where it is not plain first, a
character is read that is another one, or more characters are taken than are read.

* `PlainValue`, `run_value`, **`value_ne`** — in an attribute between double quotes.
* `PlainData`, `run_data`, **`data_ne`** — in an element, before what closes it.
-/

namespace Xml

open State

variable {state state' : State} {text rest : Text} {doc : Element} {es : List Element}
  {name attr value : Text} {attrs : List (Text × Text)} {c : Char} {action : Action} {mode : Mode}
  {root : Option Element}

/-! ## The rest of a start-tag -/

/-- The name and the attributes so far. -/
def Mode.tag? : Mode → Option (Text × List (Text × Text))
  | .inTag name attrs _ | .attrName name attrs _ | .attrEq name attrs _ | .attrQuote name attrs _
  | .attrValue name attrs _ _ _ | .attrReference name attrs _ _ _ _ | .emptyTag name attrs =>
    some (name, attrs)
  | _ => none

/-- The tag goes on, or ends with these attributes. -/
def Action.Keeps (name : Text) (attrs : List (Text × Text)) : Action → Prop
  | .go mode => ∃ more, mode.tag? = some (name, attrs ++ more)
  | .startTag name' attrs' | .emptyTag name' attrs' => name' = name ∧ attrs' = attrs
  | _ => False

lemma keeps_go (h : mode.tag? = some (name, attrs)) : (Action.go mode).Keeps name attrs :=
  ⟨[], by rw [h, List.append_nil]⟩

lemma keeps_nextInTag {space : Bool} (h : nextInTag name attrs space c = some action) :
    action.Keeps name attrs := by
  rw [nextInTag] at h
  split_ifs at h
  all_goals cases h
  · exact keeps_go rfl
  · exact ⟨rfl, rfl⟩
  · exact keeps_go rfl
  · exact keeps_go rfl

lemma keeps_nextEq (h : nextEq name attrs attr c = some action) : action.Keeps name attrs := by
  rw [nextEq] at h
  split_ifs at h
  all_goals cases h
  all_goals exact keeps_go rfl

lemma keeps_nextValue {quote : Quote} (h : nextValue name attrs attr quote value c = some action) :
    action.Keeps name attrs := by
  rw [nextValue] at h
  split_ifs at h
  all_goals cases h
  · exact ⟨_, rfl⟩
  all_goals exact keeps_go rfl

lemma keeps_next (htag : mode.tag? = some (name, attrs)) (h : next mode c = some action) :
    action.Keeps name attrs := by
  cases mode with
  | inTag name' attrs' space =>
    cases htag
    exact keeps_nextInTag h
  | attrName name' attrs' attr =>
    cases htag
    rw [next] at h
    split_ifs at h
    · cases h
      exact keeps_go rfl
    · exact keeps_nextEq h
  | attrEq name' attrs' attr =>
    cases htag
    exact keeps_nextEq h
  | attrQuote name' attrs' attr =>
    cases htag
    rw [next] at h
    split_ifs at h
    all_goals cases h
    all_goals exact keeps_go rfl
  | attrValue name' attrs' attr quote value =>
    cases htag
    exact keeps_nextValue h
  | attrReference name' attrs' attr quote value ref =>
    cases htag
    rw [next] at h
    split_ifs at h
    · obtain ⟨c, -, rfl⟩ := Option.map_eq_some_iff.mp h
      exact keeps_go rfl
    · cases h
      exact keeps_go rfl
  | emptyTag name' attrs' =>
    cases htag
    rw [next] at h
    split_ifs at h
    cases h
    exact ⟨rfl, rfl⟩
  | _ => cases htag

/-- **The element of a start-tag has the attributes that were read already.** -/
theorem State.Reads.completes_tag (htag : state.mode.tag? = some (name, attrs))
    (h : state.Reads text doc) :
    ∃ more children, Completes state.openElements ⟨name, attrs ++ more, children⟩ doc := by
  induction text generalizing state attrs with
  | nil =>
    obtain ⟨⟨brackets, hmode⟩, -⟩ := h.of_nil
    rw [hmode] at htag
    cases htag
  | cons c text ih =>
    obtain ⟨action, state', -, hnext, hperform, hreads⟩ := h.exists_next
    have hkeeps := keeps_next htag hnext
    cases action with
    | go mode =>
      obtain ⟨more, hmore⟩ := hkeeps
      have hstate := go_eq_some hperform
      rw [hstate] at hreads
      obtain ⟨more', children, hcompletes⟩ := ih hmore hreads
      rw [List.append_assoc] at hcompletes
      exact ⟨_, children, hcompletes⟩
    | startTag name' attrs' =>
      obtain ⟨rfl, rfl⟩ := hkeeps
      obtain ⟨⟨children, hcompletes⟩, -⟩ := hreads.leadsTo.of_startTag hperform
      exact ⟨[], children, by rwa [List.append_nil]⟩
    | emptyTag name' attrs' =>
      obtain ⟨rfl, rfl⟩ := hkeeps
      obtain ⟨state'', hstart, hend⟩ := Option.bind_eq_some_iff.mp hperform
      have hlead : state''.LeadsTo doc :=
        hreads.leadsTo.of_perform (show state''.perform (.endTag name') = some state' from hend)
      obtain ⟨⟨children, hcompletes⟩, -⟩ := hlead.of_startTag hstart
      exact ⟨[], children, by rwa [List.append_nil]⟩
    | write text mode => exact hkeeps.elim
    | endTag name' => exact hkeeps.elim

/-! ## In an attribute -/

/-- A character that stands for itself between double quotes. -/
def plainInValue (c : Char) : Bool :=
  isChar c && c ≠ '<' && c ≠ '&' && c ≠ '"' && (c = ' ' || !isSpace c)

def PlainValue (text : Text) : Prop := ∀ c ∈ text, plainInValue c

instance (text : Text) : Decidable (PlainValue text) := List.decidableBAll _ _

lemma next_value_plain (h : plainInValue c) (name : Text) (attrs : List (Text × Text))
    (attr value : Text) : isChar c ∧ next (.attrValue name attrs attr .double value) c =
      some (.go (.attrValue name attrs attr .double (value ++ [c]))) := by
  simp only [plainInValue, Bool.and_eq_true, decide_eq_true_eq] at h
  obtain ⟨⟨⟨⟨hchar, hless⟩, hamp⟩, hquote⟩, hspace⟩ := h
  refine ⟨hchar, ?_⟩
  rw [next, nextValue, if_neg (show c ≠ Quote.char .double from hquote), if_neg hless, if_neg hamp]
  by_cases hblank : c = ' '
  · rw [hblank]
    rfl
  · rw [decide_eq_false hblank, Bool.false_or, Bool.not_eq_true'] at hspace
    rw [hspace]
    rfl

lemma run_value (h : PlainValue text) (name : Text) (attrs : List (Text × Text))
    (attr value : Text) (es : List Element) (root : Option Element) :
    State.run ⟨.attrValue name attrs attr .double value, es, root⟩ text =
      some ⟨.attrValue name attrs attr .double (value ++ text), es, root⟩ := by
  induction text generalizing value with
  | nil => rw [List.append_nil, run]
  | cons c text ih =>
    obtain ⟨hc, htext⟩ := List.forall_mem_cons.mp h
    obtain ⟨hchar, hnext⟩ := next_value_plain hc name attrs attr value
    rw [run, step, if_pos hchar, hnext]
    exact (ih htext (value ++ [c])).trans (by rw [List.append_assoc]; rfl)

/-- The element has this attribute in the end, with something behind what is read of its value. -/
def Extended (es : List Element) (name : Text) (attrs : List (Text × Text)) (attr value : Text)
    (doc : Element) (p : Text → Prop) : Prop :=
  ∃ more attrs' children, p more ∧
    Completes es ⟨name, attrs ++ (attr, value ++ more) :: attrs', children⟩ doc

lemma Extended.cons {p q : Text → Prop}
    (h : Extended es name attrs attr (value ++ [c]) doc p) (hpq : ∀ more, p more → q (c :: more)) :
    Extended es name attrs attr value doc q := by
  obtain ⟨more, attrs', children, hmore, hcompletes⟩ := h
  refine ⟨c :: more, attrs', children, hpq more hmore, ?_⟩
  rwa [List.append_assoc] at hcompletes

/-- At a quotation mark the value ends. -/
lemma extended_of_quote {p : Text → Prop} (hp : p [])
    (h : Reads ⟨.attrValue name attrs attr .double value, es, root⟩ ('"' :: rest) doc) :
    Extended es name attrs attr value doc p := by
  obtain ⟨action, state', -, hnext, hperform, hreads⟩ := h.exists_next
  cases hnext
  cases hperform
  obtain ⟨more, children, hcompletes⟩ := hreads.completes_tag rfl
  refine ⟨[], more, children, hp, ?_⟩
  rwa [List.append_nil, List.append_cons]

/-- No more is read of the value than stands before the quotation mark, and in a reference the
semicolon is taken as well. -/
lemma extended_le (text : Text) (value : Text) :
    (Reads ⟨.attrValue name attrs attr .double value, es, root⟩ (text ++ '"' :: rest) doc →
      Extended es name attrs attr value doc (·.length ≤ text.length)) ∧
    ∀ ref, Reads ⟨.attrReference name attrs attr .double value ref, es, root⟩
        (text ++ '"' :: rest) doc →
      Extended es name attrs attr value doc (·.length ≤ text.length) := by
  induction text generalizing value with
  | nil =>
    refine ⟨extended_of_quote (Nat.le_refl _), fun ref h => ?_⟩
    obtain ⟨action, state', -, hnext, -⟩ := h.exists_next
    cases hnext
  | cons c text ih =>
    have hlonger (value : Text) (h : Extended es name attrs attr value doc
        (·.length ≤ text.length)) :
        Extended es name attrs attr value doc (·.length ≤ (c :: text).length) := by
      obtain ⟨more, attrs', children, hmore, hcompletes⟩ := h
      exact ⟨more, attrs', children, Nat.le_trans hmore (Nat.le_succ _), hcompletes⟩
    have hcons (value : Text) (d : Char)
        (h : Reads ⟨.attrValue name attrs attr .double (value ++ [d]), es, root⟩
          (text ++ '"' :: rest) doc) :
        Extended es name attrs attr value doc (·.length ≤ (c :: text).length) :=
      ((ih _).1 h).cons fun more hmore => Nat.succ_le_succ hmore
    constructor
    · intro h
      by_cases hquote : c = '"'
      · rw [hquote] at h
        exact extended_of_quote (Nat.zero_le _) h
      obtain ⟨action, state', -, hnext, hperform, hreads⟩ := h.exists_next
      rw [next, nextValue, if_neg (show c ≠ Quote.char .double from hquote)] at hnext
      by_cases hless : c = '<'
      · rw [if_pos hless] at hnext
        cases hnext
      rw [if_neg hless] at hnext
      by_cases hamp : c = '&'
      · rw [if_pos hamp] at hnext
        cases hnext
        cases hperform
        exact hlonger value ((ih value).2 [] hreads)
      · rw [if_neg hamp] at hnext
        cases hnext
        cases hperform
        exact hcons value _ hreads
    · intro ref h
      obtain ⟨action, state', -, hnext, hperform, hreads⟩ := h.exists_next
      rw [next] at hnext
      by_cases hend : c = ';'
      · rw [if_pos hend] at hnext
        obtain ⟨d, -, rfl⟩ := Option.map_eq_some_iff.mp hnext
        cases hperform
        exact hcons value d hreads
      · rw [if_neg hend] at hnext
        split_ifs at hnext
        cases hnext
        cases hperform
        exact hlonger value ((ih value).2 _ hreads)

lemma normalizeLines_cons (h : c ≠ '\r') (text : Text) :
    normalizeLines (c :: text) = c :: normalizeLines text := by
  rw [normalizeLines.eq_def]
  split
  case h_2 heq => exact absurd (List.cons.inj heq).1 h
  case h_3 heq => exact absurd (List.cons.inj heq).1 h
  case h_4 heq =>
    cases heq
    rfl
  case h_1 heq => cases heq

lemma normalizeLines_return_cons (h : ∀ text', text ≠ '\n' :: text') :
    normalizeLines ('\r' :: text) = '\n' :: normalizeLines text := by
  rw [normalizeLines.eq_def]
  split
  case h_2 heq => exact absurd (List.cons.inj heq).2 (h _)
  case h_3 heq =>
    cases heq
    rfl
  case h_4 hreturn heq => exact absurd (List.cons.inj heq).1.symm hreturn
  case h_1 heq => cases heq

lemma normalizeLines_append_left (h : '\r' ∉ text) (rest : Text) :
    normalizeLines (text ++ rest) = text ++ normalizeLines rest := by
  induction text with
  | nil => rfl
  | cons c text ih =>
    obtain ⟨hc, htext⟩ := not_or.mp (fun hmem => h (List.mem_cons.mpr hmem))
    rw [List.cons_append, normalizeLines_cons (Ne.symm hc), ih htext, List.cons_append]

lemma normalizeLines_append_cons (h : c ≠ '\n') (text rest : Text) :
    normalizeLines (text ++ c :: rest) = normalizeLines text ++ normalizeLines (c :: rest) := by
  fun_induction normalizeLines text with
  | case1 => rfl
  | case2 text ih => exact congrArg ('\n' :: ·) ih
  | case3 text hnext ih =>
    rw [List.cons_append, normalizeLines_return_cons]
    · exact congrArg ('\n' :: ·) ih
    · intro text' heq
      cases text with
      | nil => exact h (List.cons.inj heq).1
      | cons d text =>
        cases heq
        exact hnext _ rfl
  | case4 d text hnext hreturn ih =>
    rw [List.cons_append, normalizeLines_cons hreturn, ih, List.cons_append]

lemma normalizeLines_eq_self (h : '\r' ∉ text) : normalizeLines text = text := by
  have happend := normalizeLines_append_left h []
  rwa [List.append_nil, normalizeLines_nil, List.append_nil] at happend

lemma PlainValue.normalizeLines (h : PlainValue text) : normalizeLines text = text :=
  normalizeLines_eq_self fun hmem => absurd (h _ hmem) (by decide)

/-- A line end is not put together across what begins with another character. -/
lemma normalizeLines_append (h : rest.head? ≠ some '\n') (text : Text) :
    normalizeLines (text ++ rest) = normalizeLines text ++ normalizeLines rest := by
  cases rest with
  | nil => rw [List.append_nil, normalizeLines_nil, List.append_nil]
  | cons c rest => exact normalizeLines_append_cons (fun hc => h (congrArg some hc)) text rest

lemma length_normalizeLines (text : Text) : (normalizeLines text).length ≤ text.length := by
  fun_induction normalizeLines text with
  | case1 => exact Nat.le_refl _
  | case2 text ih => exact Nat.succ_le_succ (Nat.le_trans ih (Nat.le_succ _))
  | case3 text _ ih => exact Nat.succ_le_succ ih
  | case4 c text _ _ ih => exact Nat.succ_le_succ ih

lemma normalizeLines_return (text : Text) :
    ∃ text', normalizeLines ('\r' :: text) = '\n' :: text' := by
  rw [normalizeLines.eq_def]
  split
  case h_2 => exact ⟨_, rfl⟩
  case h_3 => exact ⟨_, rfl⟩
  case h_4 hreturn heq => exact absurd (List.cons.inj heq).1.symm hreturn
  case h_1 heq => cases heq

/-- A line end stays white space. -/
lemma normalizeLines_space (h : isSpace c) (text : Text) :
    ∃ d text', normalizeLines (c :: text) = d :: text' ∧ isSpace d := by
  by_cases hc : c = '\r'
  · obtain ⟨text', htext'⟩ := normalizeLines_return text
    exact ⟨'\n', text', by rw [hc, htext'], rfl⟩
  · exact ⟨c, _, normalizeLines_cons hc text, h⟩

/-- White space is read as a blank. -/
lemma extended_of_space {p : Text → Prop} (hc : isSpace c) (hp : ∀ more, p (' ' :: more))
    (h : Reads ⟨.attrValue name attrs attr .double value, es, root⟩ (c :: (text ++ '"' :: rest))
      doc) :
    Extended es name attrs attr value doc p := by
  obtain ⟨action, state', -, hnext, hperform, hreads⟩ := h.exists_next
  have hquote : c ≠ '"' := by
    rintro rfl
    cases hc
  have hless : c ≠ '<' := by
    rintro rfl
    cases hc
  have hamp : c ≠ '&' := by
    rintro rfl
    cases hc
  rw [next, nextValue, if_neg (show c ≠ Quote.char .double from hquote), if_neg hless,
    if_neg hamp, if_pos hc] at hnext
  cases hnext
  cases hperform
  exact ((extended_le text _).1 hreads).cons fun more _ => hp more

/-- **Any other text is read as something else.** -/
theorem value_ne (htext : ¬ PlainValue text)
    (h : Reads ⟨.attrValue name attrs attr .double value, es, root⟩
      (normalizeLines text ++ '"' :: rest) doc) :
    Extended es name attrs attr value doc (· ≠ text) := by
  induction text generalizing value with
  | nil => exact absurd (fun _ h => nomatch h) htext
  | cons c text ih =>
    by_cases hc : plainInValue c
    · -- up to here the text is read as itself
      have hreturn : c ≠ '\r' := by
        rintro rfl
        cases hc
      obtain ⟨-, hnext⟩ := next_value_plain hc name attrs attr value
      rw [normalizeLines_cons hreturn] at h
      obtain ⟨action, state', -, hnext', hperform, hreads⟩ := h.exists_next
      cases hnext'.symm.trans hnext
      cases hperform
      have hrest : ¬ PlainValue text := fun hplain => htext (List.forall_mem_cons.mpr ⟨hc, hplain⟩)
      exact (ih hrest hreads).cons fun more hmore heq => hmore (List.cons.inj heq).2
    by_cases hspace : isSpace c
    · obtain ⟨d, text', hnormal, hd⟩ := normalizeLines_space hspace text
      rw [hnormal] at h
      refine extended_of_space hd (fun more heq => hc ?_) h
      rw [← (List.cons.inj heq).1]
      rfl
    have hreturn : c ≠ '\r' := by
      rintro rfl
      exact hspace rfl
    rw [normalizeLines_cons hreturn] at h
    by_cases hquote : c = '"'
    · rw [hquote] at h
      exact extended_of_quote (fun heq => nomatch heq) h
    obtain ⟨action, state', hchar, hnext, hperform, hreads⟩ := h.exists_next
    rw [next, nextValue, if_neg (show c ≠ Quote.char .double from hquote)] at hnext
    by_cases hless : c = '<'
    · rw [if_pos hless] at hnext
      cases hnext
    by_cases hamp : c = '&'
    · -- a reference takes more characters than are read
      rw [if_neg hless, if_pos hamp] at hnext
      cases hnext
      cases hperform
      obtain ⟨more, attrs', children, hmore, hcompletes⟩ :=
        (extended_le (normalizeLines text) value).2 [] hreads
      refine ⟨more, attrs', children, ?_, hcompletes⟩
      rintro rfl
      have hlength := length_normalizeLines text
      rw [List.length_cons] at hmore
      omega
    · refine absurd ?_ hc
      rw [plainInValue, hchar, eq_false_of_ne_true hspace]
      simp [hless, hamp, hquote]

/-! ## In an element -/

/-- A character that stands for itself in character data. -/
def plainInData (c : Char) : Bool := isChar c && c ≠ '<' && c ≠ '&' && c ≠ '\r'

/-- A text of such characters, without the end of a CDATA section. -/
structure PlainData (text : Text) : Prop where
  plain : ∀ c ∈ text, plainInData c
  end_notIn : ¬ [']', ']', '>'] <:+: text

lemma PlainData.normalizeLines (h : PlainData text) : normalizeLines text = text :=
  normalizeLines_eq_self fun hmem => absurd (h.plain _ hmem) (by decide)

/-- How many `]` there are now. -/
def nextBrackets (brackets : ℕ) (c : Char) : ℕ := if c = ']' then min 2 (brackets + 1) else 0

/-- The rest of a plain text, behind so many `]`. -/
def PlainFrom : ℕ → Text → Prop
  | _, [] => True
  | brackets, c :: text =>
    (plainInData c ∧ ¬ (c = '>' ∧ brackets = 2)) ∧ PlainFrom (nextBrackets brackets c) text

/-- The end of a CDATA section behind so many `]`. -/
lemma end_infix_iff (brackets : ℕ) (hle : brackets ≤ 2) (c : Char) (text : Text) :
    [']', ']', '>'] <:+: List.replicate brackets ']' ++ c :: text ↔
      (c = '>' ∧ brackets = 2) ∨
        [']', ']', '>'] <:+: List.replicate (nextBrackets brackets c) ']' ++ text := by
  by_cases hbracket : c = ']'
  · rw [hbracket, nextBrackets, if_pos rfl]
    interval_cases brackets
    · simp
    · simp
    · simp [List.replicate_succ, List.infix_cons_iff]
  · rw [nextBrackets, if_neg hbracket]
    interval_cases brackets
    · simp [List.infix_cons_iff, Ne.symm hbracket]
    · simp [List.infix_cons_iff, Ne.symm hbracket]
    · simp [List.replicate_succ, List.infix_cons_iff, Ne.symm hbracket, eq_comm]

lemma plainFrom_iff (brackets : ℕ) (hle : brackets ≤ 2) (text : Text) :
    PlainFrom brackets text ↔ (∀ c ∈ text, plainInData c) ∧
      ¬ [']', ']', '>'] <:+: List.replicate brackets ']' ++ text := by
  induction text generalizing brackets with
  | nil =>
    refine iff_of_true trivial ⟨(fun _ h => nomatch h), fun h => ?_⟩
    have hmem : '>' ∈ List.replicate brackets ']' := by
      rw [List.append_nil] at h
      exact h.subset (by decide)
    exact absurd (List.eq_of_mem_replicate hmem) (by decide)
  | cons c text ih =>
    have hnext : nextBrackets brackets c ≤ 2 := by
      rw [nextBrackets]
      split_ifs
      · exact Nat.min_le_left _ _
      · exact Nat.zero_le _
    rw [PlainFrom, ih _ hnext, end_infix_iff brackets hle, List.forall_mem_cons, not_or]
    tauto

lemma plainFrom_zero_iff : PlainFrom 0 text ↔ PlainData text :=
  (plainFrom_iff 0 (Nat.zero_le _) text).trans ⟨fun h => ⟨h.1, h.2⟩, fun h => ⟨h.plain, h.end_notIn⟩⟩

lemma next_data_plain (brackets : ℕ) (h : plainInData c ∧ ¬ (c = '>' ∧ brackets = 2)) :
    isChar c ∧ next (.content brackets) c =
      some (.write [c] (.content (nextBrackets brackets c))) := by
  obtain ⟨hplain, hend⟩ := h
  simp only [plainInData, Bool.and_eq_true, decide_eq_true_eq] at hplain
  obtain ⟨⟨⟨hchar, hless⟩, hamp⟩, -⟩ := hplain
  refine ⟨hchar, ?_⟩
  rw [next, nextContent, if_neg hless, if_neg hamp, nextBrackets]
  split_ifs <;> rfl

lemma run_data {brackets : ℕ} (h : PlainFrom brackets text) (top : Element) (es : List Element)
    (root : Option Element) :
    State.run ⟨.content brackets, top :: es, root⟩ text =
      some ⟨.content (text.foldl nextBrackets brackets), top.append (text.map .char) :: es, root⟩ := by
  induction text generalizing brackets top with
  | nil => rw [List.map_nil, Element.append_nil, run, List.foldl_nil]
  | cons c text ih =>
    obtain ⟨hchar, hnext⟩ := next_data_plain brackets h.1
    rw [run, step, if_pos hchar, hnext]
    refine (ih h.2 (top.append [.char c])).trans ?_
    rw [Element.append_append]
    rfl

/-- Without `]` and `>` there is nothing to look out for. -/
lemma run_simple (h : ∀ c ∈ text, plainInData c ∧ c ≠ ']' ∧ c ≠ '>') (top : Element)
    (es : List Element) (root : Option Element) :
    State.run ⟨.content 0, top :: es, root⟩ text =
      some ⟨.content 0, top.append (text.map .char) :: es, root⟩ := by
  induction text generalizing top with
  | nil => rw [List.map_nil, Element.append_nil, run]
  | cons c text ih =>
    obtain ⟨⟨hplain, hbracket, hend⟩, htext⟩ := List.forall_mem_cons.mp h
    obtain ⟨hchar, hnext⟩ := next_data_plain 0 ⟨hplain, fun h => hend h.1⟩
    rw [nextBrackets, if_neg hbracket] at hnext
    rw [run, step, if_pos hchar, hnext]
    refine (ih htext (top.append [.char c])).trans ?_
    rw [Element.append_append]
    rfl

/-! ## How much is read -/

lemma textOf_append (ms ns : List Node) : textOf (ms ++ ns) = textOf ms ++ textOf ns := by
  induction ms with
  | nil => rfl
  | cons node ms ih => rw [List.cons_append, textOf, textOf, ih, List.append_assoc]

lemma textOf_char (text : Text) : textOf (text.map .char) = text := by
  induction text with
  | nil => rfl
  | cons c text ih => exact congrArg (c :: ·) ih

/-- The `]` that are not yet part of a CDATA section. -/
def Mode.pending : Mode → ℕ
  | .cdata brackets => brackets
  | _ => 0

/-- The characters of an action. -/
def Action.written : Action → Text
  | .write text _ => text
  | _ => []

/-- The mode behind an action. -/
def Action.nextMode : Action → Mode
  | .go mode | .write _ mode => mode
  | _ => .content 0

lemma small_next (hmode : ∀ brackets, mode ≠ .cdata brackets) (h : next mode c = some action) :
    action.written.length ≤ 1 ∧ action.nextMode.pending = 0 := by
  cases mode with
  | cdata brackets => exact absurd rfl (hmode brackets)
  | reference ref | attrReference name attrs attr quote value ref =>
    rw [next] at h
    split_ifs at h
    · obtain ⟨c, -, rfl⟩ := Option.map_eq_some_iff.mp h
      exact ⟨by simp [Action.written], rfl⟩
    · cases h
      exact ⟨Nat.zero_le _, rfl⟩
  | _ =>
    simp only [next, nextContent, nextInTag, nextEq, nextValue, nextEnd] at h
    split_ifs at h
    all_goals cases h
    all_goals exact ⟨by simp [Action.written], rfl⟩

/-- **A character is read as one character at most.** -/
lemma length_next (h : next mode c = some action) :
    action.written.length + action.nextMode.pending ≤ mode.pending + 1 := by
  by_cases hmode : ∃ brackets, mode = .cdata brackets
  · obtain ⟨brackets, rfl⟩ := hmode
    rw [next, nextCdata] at h
    split_ifs at h
    all_goals cases h
    all_goals simp [Action.written, Action.nextMode, Mode.pending]
    all_goals omega
  · obtain ⟨hlength, hpending⟩ := small_next (fun brackets h => hmode ⟨brackets, h⟩) h
    omega

lemma mode_endTag (h : state.endTag name = some state') : state'.mode = .content 0 := by
  rw [endTag] at h
  split at h
  case h_1 => cases h
  case h_2 =>
    split_ifs at h
    split at h
    all_goals cases h
    all_goals rfl

lemma mode_perform (h : state.perform action = some state') : state'.mode = action.nextMode := by
  cases action with
  | go mode =>
    rw [go_eq_some h]
    rfl
  | write text mode =>
    rw [perform, write] at h
    split at h
    · split_ifs at h
      cases h
      rfl
    · cases h
      rfl
  | startTag name attrs =>
    rw [perform, startTag] at h
    split_ifs at h
    cases h
    rfl
  | emptyTag name attrs =>
    obtain ⟨state'', -, hend⟩ := Option.bind_eq_some_iff.mp h
    exact mode_endTag hend
  | endTag name => exact mode_endTag h

/-- The characters in these elements. -/
def size (es : List Element) : ℕ := (es.map fun e => (textOf e.children).length).sum

/-- The element is open above these, and so many characters at most were read in it. -/
def OpenWith (target : Element) (es : List Element) (k : ℕ) (state : State) : Prop :=
  ∃ nested more, state.openElements = nested ++ target.append more :: es ∧
    (textOf more).length + size nested ≤ k

/-- The element is complete in the document, with so many more characters at most. -/
def ClosedWith (target : Element) (es : List Element) (k : ℕ) (doc : Element) : Prop :=
  ∃ more, Completes es (target.append more) doc ∧ (textOf more).length ≤ k

variable {target : Element} {k : ℕ}

lemma OpenWith.endTag (h : OpenWith target es k state) (hend : state.endTag name = some state')
    (hlead : state'.LeadsTo doc) : OpenWith target es k state' ∨ ClosedWith target es k doc := by
  obtain ⟨nested, more, hopen, hsize⟩ := h
  obtain ⟨top, rest, hopen', hname, hcompletes⟩ := hlead.of_endTag hend
  cases nested with
  | nil =>
    -- it ends here
    rw [List.nil_append, hopen'] at hopen
    cases hopen
    exact Or.inr ⟨more, hcompletes, Nat.le_trans (Nat.le_add_right _ _) hsize⟩
  | cons inner nested =>
    left
    rw [List.cons_append, hopen'] at hopen
    cases hopen
    rw [State.endTag, hopen'] at hend
    dsimp only at hend
    rw [if_pos hname] at hend
    cases nested with
    | nil =>
      cases hend
      refine ⟨[], more ++ [top.node], ?_, ?_⟩
      · rw [← Element.append_append]
        rfl
      · have htop : (textOf [top.node]).length = (textOf top.children).length := by
          rw [textOf, textOf, List.append_nil]
          rfl
        simp only [size, List.map_cons, List.map_nil, List.sum_cons, List.sum_nil] at hsize ⊢
        rw [textOf_append, List.length_append, htop]
        omega
    | cons parent nested =>
      cases hend
      refine ⟨parent.append [top.node] :: nested, more, rfl, ?_⟩
      have htop : (textOf [top.node]).length = (textOf top.children).length := by
        rw [textOf, textOf, List.append_nil]
        rfl
      simp only [size, List.map_cons, List.sum_cons, Element.append] at hsize ⊢
      rw [textOf_append, List.length_append, htop]
      omega

lemma OpenWith.startTag (h : OpenWith target es k state)
    (hstart : state.startTag name attrs = some state') : OpenWith target es k state' := by
  obtain ⟨nested, more, hopen, hsize⟩ := h
  rw [State.startTag] at hstart
  split_ifs at hstart
  cases hstart
  refine ⟨⟨name, attrs, []⟩ :: nested, more, ?_, ?_⟩
  · rw [hopen]
    rfl
  · simp only [size, List.map_cons, List.sum_cons] at hsize ⊢
    rw [textOf, List.length_nil, Nat.zero_add]
    exact hsize

lemma OpenWith.write (h : OpenWith target es k state)
    (hwrite : state.write text mode = some state') :
    OpenWith target es (k + text.length) state' := by
  obtain ⟨nested, more, hopen, hsize⟩ := h
  rw [State.write, hopen] at hwrite
  cases nested with
  | nil =>
    cases hwrite
    refine ⟨[], more ++ text.map .char, ?_, ?_⟩
    · rw [← Element.append_append]
      rfl
    · rw [textOf_append, textOf_char, List.length_append]
      omega
  | cons parent nested =>
    cases hwrite
    refine ⟨parent.append (text.map .char) :: nested, more, rfl, ?_⟩
    simp only [size, List.map_cons, List.sum_cons, Element.append] at hsize ⊢
    rw [textOf_append, textOf_char, List.length_append]
    omega

lemma OpenWith.perform (h : OpenWith target es k state)
    (hperform : state.perform action = some state') (hlead : state'.LeadsTo doc) :
    OpenWith target es (k + action.written.length) state' ∨ ClosedWith target es k doc := by
  cases action with
  | go mode =>
    rw [go_eq_some hperform]
    exact Or.inl h
  | write text mode => exact Or.inl (h.write hperform)
  | startTag name attrs => exact Or.inl (h.startTag hperform)
  | emptyTag name attrs =>
    obtain ⟨state'', hstart, hend⟩ := Option.bind_eq_some_iff.mp hperform
    exact (h.startTag hstart).endTag hend hlead
  | endTag name => exact h.endTag hperform hlead

lemma ClosedWith.mono {n : ℕ} (h : ClosedWith target es k doc) (hle : k ≤ n) :
    ClosedWith target es n doc := by
  obtain ⟨more, hcompletes, hlength⟩ := h
  exact ⟨more, hcompletes, Nat.le_trans hlength hle⟩

/-- The text can be read only to close the element that has so many around it. -/
def Closes (n : ℕ) (text : Text) : Prop :=
  ∀ state doc, State.Reads state text doc →
    ∃ top rest, state.openElements = top :: rest ∧ rest.length = n ∧ Completes rest top doc

/-- No more characters come into the element than stand before what closes it. -/
lemma OpenWith.closed (h : OpenWith target es k state) (hcloses : Closes es.length rest)
    (hreads : state.Reads (text ++ rest) doc) :
    ClosedWith target es (k + state.mode.pending + text.length) doc := by
  induction text generalizing state k with
  | nil =>
    obtain ⟨nested, more, hopen, hsize⟩ := h
    obtain ⟨top, rest, hopen', hlength, hcompletes⟩ := hcloses state doc hreads
    have hnested : nested = [] := by
      have hlengths := congrArg List.length (hopen.symm.trans hopen')
      rw [List.length_append, List.length_cons, List.length_cons] at hlengths
      exact List.eq_nil_of_length_eq_zero (by omega)
    rw [hnested, List.nil_append, hopen'] at hopen
    cases hopen
    exact ⟨more, hcompletes, by rw [List.length_nil]; omega⟩
  | cons c text ih =>
    obtain ⟨action, state', -, hnext, hperform, hreads⟩ := hreads.exists_next
    have hlength := length_next hnext
    rcases h.perform hperform hreads.leadsTo with h | h
    · have hmode := mode_perform hperform
      refine (ih h hreads).mono ?_
      rw [hmode, List.length_cons]
      omega
    · exact h.mono (by omega)

/-- **Any other text is read as something else**, before what closes the element. -/
theorem data_ne {brackets : ℕ} {top : Element} (htext : ¬ PlainFrom brackets text)
    (hcloses : Closes es.length rest)
    (h : Reads ⟨.content brackets, top :: es, root⟩ (normalizeLines text ++ rest) doc) :
    ∃ more, Completes es (top.append more) doc ∧ textOf more ≠ text := by
  induction text generalizing brackets top with
  | nil => exact absurd trivial htext
  | cons c text ih =>
    by_cases hc : plainInData c ∧ ¬ (c = '>' ∧ brackets = 2)
    · -- up to here the text is read as itself
      have hreturn : c ≠ '\r' := by
        rintro rfl
        cases hc.1
      obtain ⟨-, hnext⟩ := next_data_plain brackets hc
      rw [normalizeLines_cons hreturn] at h
      obtain ⟨action, state', -, hnext', hperform, hreads⟩ := h.exists_next
      cases hnext'.symm.trans hnext
      cases hperform
      obtain ⟨more, hcompletes, hmore⟩ := ih (fun hplain => htext ⟨hc, hplain⟩) hreads
      rw [Element.append_append] at hcompletes
      exact ⟨.char c :: more, hcompletes, fun heq => hmore (List.cons.inj heq).2⟩
    by_cases hreturn : c = '\r'
    · obtain ⟨text', hnormal⟩ := normalizeLines_return text
      rw [hreturn, hnormal] at h
      obtain ⟨action, state', -, hnext, hperform, hreads⟩ := h.exists_next
      cases hnext
      cases hperform
      obtain ⟨more, hcompletes⟩ := hreads.leadsTo
      rw [Element.append_append] at hcompletes
      refine ⟨.char '\n' :: more, hcompletes, fun heq => ?_⟩
      rw [hreturn] at heq
      exact absurd (List.cons.inj heq).1 (by decide)
    rw [normalizeLines_cons hreturn] at h
    obtain ⟨action, state', hchar, hnext, hperform, hreads⟩ := h.exists_next
    by_cases hmarkup : c = '<' ∨ c = '&'
    · -- nothing is read as this character
      have hgo : ∃ mode : Mode, action = .go mode ∧ mode.pending = 0 := by
        rcases hmarkup with rfl | rfl
        · cases hnext
          exact ⟨_, rfl, rfl⟩
        · cases hnext
          exact ⟨_, rfl, rfl⟩
      obtain ⟨mode, rfl, hpending⟩ := hgo
      rw [go_eq_some hperform] at hreads
      have hopen : OpenWith top es 0 ⟨mode, top :: es, root⟩ :=
        ⟨[], [], by rw [Element.append_nil]; rfl, Nat.le_refl _⟩
      obtain ⟨more, hcompletes, hlength⟩ := hopen.closed hcloses hreads
      refine ⟨more, hcompletes, fun heq => ?_⟩
      have hnormal := length_normalizeLines text
      rw [heq, List.length_cons] at hlength
      dsimp only at hlength
      omega
    · obtain ⟨hless, hamp⟩ := not_or.mp hmarkup
      have hplain : plainInData c := by
        rw [plainInData, hchar]
        simp [hless, hamp, hreturn]
      obtain ⟨rfl, rfl⟩ := not_not.mp (fun hend => hc ⟨hplain, hend⟩)
      cases hnext

/-! ## What closes an element -/

/-- A text that ends no comment, no CDATA section and no processing instruction. -/
structure EndsNothing (text : Text) : Prop where
  dashes : text.count '-' ≤ 1
  brackets : ']' ∉ text
  questions : '?' ∉ text

lemma not_reads_comment {dashes : ℕ} (h : dashes + text.count '-' ≤ 1) :
    ¬ Reads ⟨.comment dashes, es, root⟩ text doc := by
  induction text generalizing dashes with
  | nil =>
    intro hreads
    obtain ⟨⟨brackets, hmode⟩, -⟩ := hreads.of_nil
    cases hmode
  | cons c text ih =>
    intro hreads
    obtain ⟨action, state', -, hnext, hperform, hreads⟩ := hreads.exists_next
    rw [next, if_neg (by omega)] at hnext
    by_cases hc : c = '-'
    · rw [if_pos hc] at hnext
      cases hnext
      cases hperform
      rw [hc, List.count_cons_self] at h
      exact ih (by omega) hreads
    · rw [if_neg hc] at hnext
      cases hnext
      cases hperform
      rw [List.count_cons_of_ne hc] at h
      exact ih (by omega) hreads

lemma not_reads_cdata (h : ']' ∉ text) : ¬ Reads ⟨.cdata 0, es, root⟩ text doc := by
  induction text generalizing es with
  | nil =>
    intro hreads
    obtain ⟨⟨brackets, hmode⟩, -⟩ := hreads.of_nil
    cases hmode
  | cons c text ih =>
    intro hreads
    obtain ⟨action, state', -, hnext, hperform, hreads⟩ := hreads.exists_next
    obtain ⟨hc, htext⟩ := not_or.mp (fun hmem => h (List.mem_cons.mpr hmem))
    rw [next, nextCdata, if_neg (Ne.symm hc), if_neg (fun h => nomatch h.2)] at hnext
    cases hnext
    rw [State.perform, State.write] at hperform
    cases es with
    | nil =>
      dsimp only at hperform
      split_ifs at hperform
      cases hperform
      exact ih htext hreads
    | cons top es =>
      cases hperform
      exact ih htext hreads

lemma not_reads_pi (h : '?' ∉ text) : ¬ Reads ⟨.pi false, es, root⟩ text doc := by
  induction text with
  | nil =>
    intro hreads
    obtain ⟨⟨brackets, hmode⟩, -⟩ := hreads.of_nil
    cases hmode
  | cons c text ih =>
    intro hreads
    obtain ⟨action, state', -, hnext, hperform, hreads⟩ := hreads.exists_next
    obtain ⟨hc, htext⟩ := not_or.mp (fun hmem => h (List.mem_cons.mpr hmem))
    rw [next, if_neg (Ne.symm hc), if_neg (fun h => nomatch h.2)] at hnext
    cases hnext
    cases hperform
    exact ih htext hreads

/-- Most modes do not have a `<` next. -/
lemma next_less (mode : Mode) : next mode '<' = none ∨ (∃ brackets, mode = .content brackets) ∨
    (∃ dashes, mode = .comment dashes) ∨ (∃ brackets, mode = .cdata brackets) ∨
    ∃ question, mode = .pi question := by
  cases mode with
  | content brackets => exact Or.inr (Or.inl ⟨brackets, rfl⟩)
  | comment dashes => exact Or.inr (Or.inr (Or.inl ⟨dashes, rfl⟩))
  | cdata brackets => exact Or.inr (Or.inr (Or.inr (Or.inl ⟨brackets, rfl⟩)))
  | pi question => exact Or.inr (Or.inr (Or.inr (Or.inr ⟨question, rfl⟩)))
  | inTag name attrs space => cases space <;> exact Or.inl rfl
  | attrValue name attrs attr quote value => cases quote <;> exact Or.inl rfl
  | cdataOpen count =>
    refine Or.inl (if_neg fun h => ?_)
    exact absurd (List.mem_of_getElem? h) (by decide)
  | endName name => cases name <;> exact Or.inl rfl
  | piTarget target =>
    cases target with
    | nil => exact Or.inl rfl
    | cons c target => exact Or.inl (ite_self none)
  | _ => exact Or.inl rfl

lemma perform_go (h : state.perform (.go mode) = some state') :
    state' = { state with mode := mode } := go_eq_some h

/-- Where a tag begins that ends nothing else, there is character data before. -/
theorem State.Reads.content_of_less (h : state.Reads ('<' :: text) doc)
    (htext : EndsNothing ('<' :: text)) : ∃ brackets, state.mode = .content brackets := by
  have hcount : text.count '-' ≤ 1 := Nat.le_trans (List.count_le_count_cons ..) htext.dashes
  have hbrackets : ']' ∉ text := fun h => htext.brackets (List.mem_cons_of_mem _ h)
  have hquestions : '?' ∉ text := fun h => htext.questions (List.mem_cons_of_mem _ h)
  obtain ⟨action, state', -, hnext, hperform, hreads⟩ := h.exists_next
  rcases next_less state.mode with hmode | hmode | ⟨dashes, hmode⟩ | ⟨brackets, hmode⟩ |
    ⟨question, hmode⟩
  · rw [hmode] at hnext
    cases hnext
  · exact hmode
  · rw [hmode, next] at hnext
    by_cases hdashes : dashes = 2
    · rw [if_pos hdashes, if_neg (by decide)] at hnext
      cases hnext
    · rw [if_neg hdashes, if_neg (by decide)] at hnext
      cases hnext
      rw [perform_go hperform] at hreads
      exact absurd hreads (not_reads_comment (by rw [Nat.zero_add]; exact hcount))
  · rw [hmode] at hnext
    cases hnext
    have hmode' := mode_perform hperform
    obtain ⟨mode, es, root⟩ := state'
    cases hmode'
    exact absurd hreads (not_reads_cdata hbrackets)
  · rw [hmode] at hnext
    cases hnext
    rw [perform_go hperform] at hreads
    exact absurd hreads (not_reads_pi hquestions)

/-- A name, as a text of tags. -/
structure IsName (name : Text) : Prop where
  chars : ∀ c ∈ name, isChar c ∧ isNameChar c
  start : ∃ c rest, name = c :: rest ∧ isNameStart c

lemma run_nameChars {name' : Text} (hname' : name' ≠ []) (h : ∀ c ∈ name, isChar c ∧ isNameChar c) :
    State.run ⟨.endName name', es, root⟩ name = some ⟨.endName (name' ++ name), es, root⟩ := by
  induction name generalizing name' with
  | nil => rw [List.append_nil, run]
  | cons c name ih =>
    obtain ⟨⟨hchar, hc⟩, hname⟩ := List.forall_mem_cons.mp h
    have hnext : next (.endName name') c = some (.go (.endName (name' ++ [c]))) := by
      rw [next, if_neg hname', if_pos hc]
    rw [run, step, if_pos hchar, hnext]
    have hlonger : name' ++ [c] ≠ [] := fun h => hname' (List.append_eq_nil_iff.mp h).1
    refine (ih hlonger hname).trans ?_
    rw [List.append_assoc]
    rfl

/-- An end-tag. -/
theorem State.Reads.endTag {brackets : ℕ} (hname : IsName name)
    (h : Reads ⟨.content brackets, es, root⟩ ('<' :: '/' :: (name ++ '>' :: rest)) doc) :
    ∃ state', State.endTag name ⟨.endName name, es, root⟩ = some state' ∧ state'.Reads rest doc := by
  obtain ⟨c, name', hcons, hstart⟩ := hname.start
  have hchars := hname.chars
  rw [hcons] at hchars
  obtain ⟨⟨hchar, -⟩, hname'⟩ := List.forall_mem_cons.mp hchars
  have hrun : State.run ⟨.content brackets, es, root⟩ ('<' :: '/' :: name) =
      some ⟨.endName name, es, root⟩ := by
    rw [hcons]
    show Option.bind (step ⟨.endName [], es, root⟩ c) _ = _
    have hnext : next (.endName []) c = some (.go (.endName [c])) := by
      rw [next, if_pos rfl, if_pos hstart]
      rfl
    rw [step, if_pos hchar, hnext]
    exact run_nameChars (fun h => by cases h) hname'
  rw [← List.cons_append, ← List.cons_append, reads_append hrun] at h
  obtain ⟨action, state', -, hnext, hperform, hreads⟩ := h.exists_next
  have hclose : next (.endName name) '>' = some (.endTag name) := by
    rw [next, if_neg]
    · rfl
    · split_ifs <;> decide
  cases hnext.symm.trans hclose
  exact ⟨state', hperform, hreads⟩

end Xml
