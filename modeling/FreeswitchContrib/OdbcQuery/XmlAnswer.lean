import FreeswitchContrib.OdbcQuery.Answers

/-!
# The XML answer of `odbc_query`

How an XML answer is read back.  Plain texts are read as they were written, row by row.  The first
text that is not plain is read as another one, whatever stands behind it; for the error that is so
because what stands behind it can only be read where its element is still open.

* `run_rows`, `rows_ne` — rows with plain texts, and with others.
* `closes_closing` — what stands behind the error closes its element.
* **`xml_answer_iff`** — the answer is faithful exactly where it is plain and there is an error.
-/

namespace FreeswitchContrib.OdbcQuery

open Xml State

/-! ## The text of the answer -/

/-- The element of a row. -/
def rowText (columns : List (Text × Text)) : Text :=
  rowOpen ++ (columns.flatMap fun (name, value) => xmlColumn name value) ++
    rowClose

/-- What stands behind the error. -/
def closing (rowcount : ℕ) (elapsedMs : ℤ) : Text :=
  errorClose ++ (rowcountOpen ++ (Numeral.ofInt rowcount ++
    (rowcountClose ++ (elapsedOpen ++ (Numeral.ofInt elapsedMs ++
      (elapsedClose ++ (metaClose ++ resultClose)))))))

def answerText (rows : List (List (Text × Text))) (err : Text) (rowcount : ℕ) (elapsedMs : ℤ) :
    Text :=
  resultOpen ++ (rows.flatMap rowText ++ (rowsClose ++
    (metaOpen ++ (errorOpen ++ (err ++ closing rowcount elapsedMs)))))

/-- The columns with their line ends as they are read. -/
def normalColumns (columns : List (Text × Text)) : List (Text × Text) :=
  columns.map fun column => (normalizeLines column.1, normalizeLines column.2)

lemma head?_append_ne {text : Text} {c : Char} (h : text.head? = some c) (hc : c ≠ '\n')
    (rest : Text) : (text ++ rest).head? ≠ some '\n' := by
  rw [List.head?_append, h]
  exact fun heq => hc (Option.some_inj.mp heq)

lemma normalizeLines_xmlColumn (name value rest : Text) :
    normalizeLines (xmlColumn name value ++ rest) =
      xmlColumn (normalizeLines name) (normalizeLines value) ++ normalizeLines rest := by
  have hvalue (text : Text) : (columnValue ++ text).head? ≠ some '\n' :=
    head?_append_ne (show columnValue.head? = some '"' by decide) (by decide) text
  have hclose (text : Text) : (columnClose ++ text).head? ≠ some '\n' :=
    head?_append_ne (show columnClose.head? = some '"' by decide) (by decide) text
  have hname : '\r' ∉ columnName := by decide
  have hbetween : '\r' ∉ columnValue := by decide
  have hbehind : '\r' ∉ columnClose := by decide
  simp only [xmlColumn, List.append_assoc]
  rw [normalizeLines_append_left hname, normalizeLines_append (hvalue _),
    normalizeLines_append_left hbetween, normalizeLines_append (hclose _),
    normalizeLines_append_left hbehind]

lemma normalizeLines_columns (columns : List (Text × Text)) (rest : Text) :
    normalizeLines ((columns.flatMap fun (name, value) => xmlColumn name value) ++ rest) =
      ((normalColumns columns).flatMap fun (name, value) => xmlColumn name value) ++
        normalizeLines rest := by
  induction columns with
  | nil => rfl
  | cons column columns ih =>
    have hcons : normalColumns (column :: columns) =
        (normalizeLines column.1, normalizeLines column.2) :: normalColumns columns := rfl
    rw [List.flatMap_cons, List.append_assoc, normalizeLines_xmlColumn, ih, hcons,
      List.flatMap_cons, List.append_assoc]

lemma normalizeLines_rows (rows : List (List (Text × Text))) (rest : Text) :
    normalizeLines (rows.flatMap rowText ++ rest) =
      (rows.map normalColumns).flatMap rowText ++ normalizeLines rest := by
  have hopen : '\r' ∉ rowOpen := by decide
  have hclose : '\r' ∉ rowClose := by decide
  induction rows with
  | nil => rfl
  | cons row rows ih =>
    rw [List.flatMap_cons, List.map_cons, List.flatMap_cons, rowText, rowText]
    simp only [List.append_assoc]
    rw [normalizeLines_append_left hopen, normalizeLines_columns, normalizeLines_append_left hclose,
      ih]

/-- What stands behind the error is made of these characters. -/
lemma closing_chars {rowcount : ℕ} {elapsedMs : ℤ} :
    ∀ c ∈ closing rowcount elapsedMs, c ≠ '\r' ∧ c ≠ ']' ∧ c ≠ '?' := by
  have hdigits (n : ℤ) : ∀ c ∈ Numeral.ofInt n, c ≠ '\r' ∧ c ≠ ']' ∧ c ≠ '?' := by
    intro c hc
    have hdigit := Numeral.isDigit_or_of_mem_ofInt hc
    refine ⟨?_, ?_, ?_⟩
    all_goals
      rintro rfl
      revert hdigit
      decide
  simp only [closing, List.forall_mem_append]
  exact ⟨by decide, by decide, hdigits _, by decide, by decide, hdigits _, by decide, by decide,
    by decide⟩

lemma normalizeLines_answer (rows : List (List (Text × Text))) (err : Text) (rowcount : ℕ)
    (elapsedMs : ℤ) : normalizeLines (answerText rows err rowcount elapsedMs) =
      answerText (rows.map normalColumns) (normalizeLines err) rowcount elapsedMs := by
  have hresult : '\r' ∉ resultOpen := by decide
  have hrows : '\r' ∉ rowsClose := by decide
  have hmeta : '\r' ∉ metaOpen := by decide
  have herror : '\r' ∉ errorOpen := by decide
  have hclosing : '\r' ∉ closing rowcount elapsedMs := fun h => (closing_chars _ h).1 rfl
  have hhead : (closing rowcount elapsedMs).head? ≠ some '\n' :=
    head?_append_ne (show errorClose.head? = some '<' by decide) (by decide) _
  rw [answerText, normalizeLines_append_left hresult, normalizeLines_rows,
    normalizeLines_append_left hrows, normalizeLines_append_left hmeta,
    normalizeLines_append_left herror, normalizeLines_append hhead,
    normalizeLines_eq_self hclosing, answerText]

/-! ## Reading the answer -/

section

variable {top parent : Element} {es : List Element} {root : Option Element} {doc : Element}
  {columns : List (Text × Text)} {rows : List (List (Text × Text))} {rest : Text}

/-- The nodes of a text. -/
abbrev chars (text : Text) : List Node := text.map .char

def indent (n : ℕ) : Text := List.replicate n ' '

lemma run_indent (n : ℕ) (top : Element) (es : List Element) (root : Option Element) :
    State.run ⟨.content 0, top :: es, root⟩ (indent n) =
      some ⟨.content 0, top.append (chars (indent n)) :: es, root⟩ := by
  refine run_simple (fun c hc => ?_) top es root
  rw [List.eq_of_mem_replicate hc]
  decide +kernel

/-- The element of a column. -/
def columnElement (column : Text × Text) : Element :=
  ⟨Tag.column, [(Tag.name, column.1), (Tag.value, column.2)], []⟩

def columnNodes (column : Text × Text) : List Node :=
  chars (indent 6) ++ (columnElement column).node :: chars ['\n']

lemma run_columnName (top : Element) (es : List Element) (root : Option Element) :
    State.run ⟨.content 0, top :: es, root⟩ columnName =
      some ⟨.attrValue Tag.column [] Tag.name .double [],
        top.append (chars (indent 6)) :: es, root⟩ := by
  have hsplit : columnName = indent 6 ++ "<column name=\"".toList := by decide
  rw [hsplit, run_of_run (run_indent 6 top es root)]
  rfl

lemma run_columnValue (name : Text) (es : List Element) (root : Option Element) :
    State.run ⟨.attrValue Tag.column [] Tag.name .double name, es, root⟩ columnValue =
      some ⟨.attrValue Tag.column [(Tag.name, name)] Tag.value .double [], es, root⟩ := rfl

lemma run_columnClose (column : Text × Text) (top : Element) (es : List Element)
    (root : Option Element) :
    State.run ⟨.attrValue Tag.column [(Tag.name, column.1)] Tag.value .double column.2, top :: es,
        root⟩ columnClose =
      some ⟨.content 0, (top.append [(columnElement column).node]).append (chars ['\n']) :: es,
        root⟩ := rfl

/-- Both texts of a column are plain. -/
def PlainColumn (column : Text × Text) : Prop := PlainValue column.1 ∧ PlainValue column.2

lemma xmlColumn_append (column : Text × Text) (rest : Text) :
    xmlColumn column.1 column.2 ++ rest = columnName ++ (column.1 ++ (columnValue ++ (column.2 ++
      (columnClose ++ rest)))) := by
  simp only [xmlColumn, List.append_assoc]

lemma run_column {column : Text × Text} (h : PlainColumn column) (top : Element)
    (es : List Element) (root : Option Element) (rest : Text) :
    State.run ⟨.content 0, top :: es, root⟩ (xmlColumn column.1 column.2 ++ rest) =
      State.run ⟨.content 0, top.append (columnNodes column) :: es, root⟩ rest := by
  rw [xmlColumn_append, run_of_run (run_columnName top es root),
    run_of_run (run_value h.1 _ _ _ _ _ _), List.nil_append, run_of_run (run_columnValue _ _ _),
    run_of_run (run_value h.2 _ _ _ _ _ _), List.nil_append,
    run_of_run (run_columnClose column _ _ _), Element.append_append, Element.append_append]
  rfl

lemma run_columns (h : ∀ column ∈ columns, PlainColumn column) (top : Element)
    (es : List Element) (root : Option Element) (rest : Text) :
    State.run ⟨.content 0, top :: es, root⟩
        ((columns.flatMap fun (name, value) => xmlColumn name value) ++ rest) =
      State.run ⟨.content 0, top.append (columns.flatMap columnNodes) :: es, root⟩ rest := by
  induction columns generalizing top with
  | nil => rw [List.flatMap_nil, List.flatMap_nil, List.nil_append, Element.append_nil]
  | cons column columns ih =>
    obtain ⟨hcolumn, hcolumns⟩ := List.forall_mem_cons.mp h
    rw [List.flatMap_cons, List.append_assoc, run_column hcolumn, ih hcolumns, List.flatMap_cons,
      Element.append_append]

/-- The element of a row, behind these columns. -/
def rowElement (nodes : List Node) : Element := ⟨Tag.row, [], chars ['\n'] ++ nodes⟩

def rowNodes (columns : List (Text × Text)) : List Node :=
  chars (indent 4) ++
    (rowElement (columns.flatMap columnNodes ++ chars (indent 4))).node :: chars ['\n']

lemma run_rowOpen (top : Element) (es : List Element) (root : Option Element) :
    State.run ⟨.content 0, top :: es, root⟩ rowOpen =
      some ⟨.content 0, rowElement [] :: top.append (chars (indent 4)) :: es, root⟩ := by
  have hsplit : rowOpen = indent 4 ++ "<row>\n".toList := by decide
  rw [hsplit, run_of_run (run_indent 4 top es root)]
  rfl

lemma run_rowClose (nodes : List Node) (parent : Element) (es : List Element)
    (root : Option Element) :
    State.run ⟨.content 0, rowElement nodes :: parent :: es, root⟩ rowClose =
      some ⟨.content 0, (parent.append [(rowElement (nodes ++ chars (indent 4))).node]).append
        (chars ['\n']) :: es, root⟩ := by
  have hsplit : rowClose = indent 4 ++ "</row>\n".toList := by decide
  rw [hsplit, run_of_run (run_indent 4 _ _ root)]
  rfl

lemma run_row (h : ∀ column ∈ columns, PlainColumn column) (top : Element) (es : List Element)
    (root : Option Element) (rest : Text) :
    State.run ⟨.content 0, top :: es, root⟩ (rowText columns ++ rest) =
      State.run ⟨.content 0, top.append (rowNodes columns) :: es, root⟩ rest := by
  rw [rowText, List.append_assoc, List.append_assoc, run_of_run (run_rowOpen top es root),
    run_columns h]
  rw [show (rowElement []).append (columns.flatMap columnNodes) =
    rowElement (columns.flatMap columnNodes) from rfl, run_of_run (run_rowClose _ _ es root),
    Element.append_append, Element.append_append]
  rfl

lemma run_rows (h : ∀ row ∈ rows, ∀ column ∈ row, PlainColumn column) (top : Element)
    (es : List Element) (root : Option Element) (rest : Text) :
    State.run ⟨.content 0, top :: es, root⟩ (rows.flatMap rowText ++ rest) =
      State.run ⟨.content 0, top.append (rows.flatMap rowNodes) :: es, root⟩ rest := by
  induction rows generalizing top with
  | nil => rw [List.flatMap_nil, List.flatMap_nil, List.nil_append, Element.append_nil]
  | cons row rows ih =>
    obtain ⟨hrow, hrows⟩ := List.forall_mem_cons.mp h
    rw [List.flatMap_cons, List.append_assoc, run_row hrow, ih hrows, List.flatMap_cons,
      Element.append_append]

/-! ## Reading it as something else -/

lemma mapM_cons_eq_some {α β : Type} {f : α → Option β} {a : α} {l : List α} {b : β} {bs : List β} :
    (a :: l).mapM f = some (b :: bs) ↔ f a = some b ∧ l.mapM f = some bs := by
  simp [List.mapM_cons, Option.bind_eq_some_iff]

lemma columnOf_columnElement (column : Text × Text) :
    columnOf (columnElement column) = some column := rfl

/-- A column that is read as something else. -/
lemma exists_column_ne {column : Text × Text} {text : Text} {element : Element}
    (hne : columnOf element ≠ some column)
    (h : Completes (top.append (chars text) :: es) element doc) :
    ∃ more, Completes es (top.append more) doc ∧
      (Element.among more).mapM columnOf ≠ some (column :: columns) := by
  obtain ⟨more, hcompletes⟩ := h
  rw [Element.append_append] at hcompletes
  refine ⟨_, hcompletes, ?_⟩
  rw [Element.among_append, Element.among_char, List.nil_append, Element.among_node, Ne,
    mapM_cons_eq_some]
  exact fun h => hne h.1

/-- The first of the two texts that is not plain. -/
lemma column_ne {column : Text × Text} (h : ¬ PlainColumn column)
    (hreads : Xml.State.Reads ⟨.content 0, top :: es, root⟩
      (xmlColumn (normalizeLines column.1) (normalizeLines column.2) ++ rest) doc) :
    ∃ element, columnOf element ≠ some column ∧
      Completes (top.append (chars (indent 6)) :: es) element doc := by
  have hquote (text : Text) : columnValue ++ text = '"' :: (" value=\"".toList ++ text) := by
    have hcons : columnValue = '"' :: " value=\"".toList := by decide
    rw [hcons, List.cons_append]
  have hclose (text : Text) : columnClose ++ text = '"' :: ("/>\n".toList ++ text) := by
    have hcons : columnClose = '"' :: "/>\n".toList := by decide
    rw [hcons, List.cons_append]
  rw [xmlColumn_append (normalizeLines column.1, normalizeLines column.2),
    reads_append (run_columnName top es root)] at hreads
  by_cases hname : PlainValue column.1
  · have hvalue : ¬ PlainValue column.2 := fun hvalue => h ⟨hname, hvalue⟩
    dsimp only at hreads
    rw [hname.normalizeLines, reads_append (run_value hname _ _ _ _ _ _), List.nil_append,
      reads_append (run_columnValue _ _ _), hclose] at hreads
    obtain ⟨value, attrs, children, hne, hcompletes⟩ := value_ne hvalue hreads
    refine ⟨_, fun heq => hne ?_, hcompletes⟩
    have hcolumn : some (column.1, value) = some column := heq
    exact congrArg Prod.snd (Option.some_inj.mp hcolumn)
  · dsimp only at hreads
    rw [hquote] at hreads
    obtain ⟨name, attrs, children, hne, hcompletes⟩ := value_ne hname hreads
    refine ⟨_, fun heq => hne ?_, hcompletes⟩
    have hcolumn : (Element.attr? ⟨Tag.column, (Tag.name, name) :: attrs, children⟩
        Tag.value).map (fun value => (name, value)) = some column := heq
    obtain ⟨value, -, rfl⟩ := Option.map_eq_some_iff.mp hcolumn
    rfl

lemma columns_ne (h : ¬ ∀ column ∈ columns, PlainColumn column)
    (hreads : Xml.State.Reads ⟨.content 0, top :: es, root⟩
      (((normalColumns columns).flatMap fun (name, value) => xmlColumn name value) ++ rest) doc) :
    ∃ more, Completes es (top.append more) doc ∧
      (Element.among more).mapM columnOf ≠ some columns := by
  induction columns generalizing top with
  | nil => exact absurd (fun _ h => nomatch h) h
  | cons column columns ih =>
    have hcons : normalColumns (column :: columns) =
        (normalizeLines column.1, normalizeLines column.2) :: normalColumns columns := rfl
    rw [hcons, List.flatMap_cons, List.append_assoc] at hreads
    by_cases hcolumn : PlainColumn column
    · rw [hcolumn.1.normalizeLines, hcolumn.2.normalizeLines, Xml.State.Reads,
        run_column hcolumn] at hreads
      obtain ⟨more, hcompletes, hmore⟩ :=
        ih (fun hcolumns => h (List.forall_mem_cons.mpr ⟨hcolumn, hcolumns⟩)) hreads
      rw [Element.append_append] at hcompletes
      refine ⟨_, hcompletes, ?_⟩
      rw [columnNodes, List.append_assoc, Element.among_append, Element.among_char,
        List.nil_append, List.cons_append, Element.among_node, Element.among_append,
        Element.among_char, List.nil_append, Ne, mapM_cons_eq_some]
      exact fun h => hmore h.2
    · obtain ⟨element, hne, hcompletes⟩ := column_ne hcolumn hreads
      exact exists_column_ne hne hcompletes

lemma normalColumns_eq (h : ∀ column ∈ columns, PlainColumn column) :
    normalColumns columns = columns := by
  refine (List.map_congr_left fun column hcolumn => ?_).trans (List.map_id columns)
  rw [(h column hcolumn).1.normalizeLines, (h column hcolumn).2.normalizeLines]
  rfl

lemma among_columnNodes (columns : List (Text × Text)) :
    Element.among (columns.flatMap columnNodes) = columns.map columnElement := by
  induction columns with
  | nil => rfl
  | cons column columns ih =>
    rw [List.flatMap_cons, Element.among_append, ih, columnNodes, Element.among_append,
      Element.among_char, List.nil_append, Element.among_node, Element.among_char]
    rfl

lemma rowOf_rowElement (nodes : List Node) :
    rowOf (rowElement nodes) = (Element.among nodes).mapM columnOf := by
  rw [rowOf, if_pos (show (rowElement nodes).name = Tag.row from rfl), Element.elements,
    rowElement, Element.among_append, Element.among_char, List.nil_append]

lemma mapM_eq_some {α β : Type} {f : α → Option β} {g : β → α} (h : ∀ b, f (g b) = some b)
    (bs : List β) : (bs.map g).mapM f = some bs := by
  induction bs with
  | nil => rfl
  | cons b bs ih => exact mapM_cons_eq_some.mpr ⟨h b, ih⟩

/-- A row is read as its columns. -/
lemma rowOf_columns (columns : List (Text × Text)) :
    rowOf (rowElement (columns.flatMap columnNodes ++ chars (indent 4))) = some columns := by
  rw [rowOf_rowElement, Element.among_append, Element.among_char, List.append_nil,
    among_columnNodes]
  exact mapM_eq_some columnOf_columnElement columns

lemma mapM_rowNodes (rows : List (List (Text × Text))) :
    (Element.among (rows.flatMap rowNodes)).mapM rowOf = some rows := by
  induction rows with
  | nil => rfl
  | cons row rows ih =>
    rw [List.flatMap_cons, Element.among_append, rowNodes, Element.among_append,
      Element.among_char, List.nil_append, Element.among_node, Element.among_char]
    exact mapM_cons_eq_some.mpr ⟨rowOf_columns row, ih⟩

lemma rows_ne (h : ¬ ∀ row ∈ rows, ∀ column ∈ row, PlainColumn column)
    (hreads : Xml.State.Reads ⟨.content 0, top :: es, root⟩
      ((rows.map normalColumns).flatMap rowText ++ rest) doc) :
    ∃ more, Completes es (top.append more) doc ∧ (Element.among more).mapM rowOf ≠ some rows := by
  induction rows generalizing top with
  | nil => exact absurd (fun _ h => nomatch h) h
  | cons row rows ih =>
    rw [List.map_cons, List.flatMap_cons, List.append_assoc] at hreads
    by_cases hrow : ∀ column ∈ row, PlainColumn column
    · rw [normalColumns_eq hrow, Xml.State.Reads, run_row hrow] at hreads
      obtain ⟨more, hcompletes, hmore⟩ :=
        ih (fun hrows => h (List.forall_mem_cons.mpr ⟨hrow, hrows⟩)) hreads
      rw [Element.append_append] at hcompletes
      refine ⟨_, hcompletes, ?_⟩
      rw [rowNodes, List.append_assoc, Element.among_append, Element.among_char,
        List.nil_append, List.cons_append, Element.among_node, Element.among_append,
        Element.among_char, List.nil_append, Ne, mapM_cons_eq_some]
      exact fun h => hmore h.2
    · rw [rowText, List.append_assoc, List.append_assoc,
        reads_append (run_rowOpen top es root)] at hreads
      obtain ⟨more, ⟨others, hcompletes⟩, hmore⟩ := columns_ne hrow hreads
      rw [Element.append_append] at hcompletes
      refine ⟨_, hcompletes, ?_⟩
      rw [Element.among_append, Element.among_char, List.nil_append, Element.among_node, Ne,
        mapM_cons_eq_some]
      rintro ⟨hfirst, -⟩
      exact hmore ((rowOf_rowElement more).symm.trans hfirst)

/-! ## The document -/

def resultElement (nodes : List Node) : Element :=
  ⟨Tag.result, [], chars ('\n' :: indent 2) ++ nodes⟩

def rowsElement (nodes : List Node) : Element := ⟨Tag.rows, [], chars ['\n'] ++ nodes⟩

def metaElement (nodes : List Node) : Element := ⟨Tag.meta_, [], chars ['\n'] ++ nodes⟩

def errorElement (nodes : List Node) : Element := ⟨Tag.error, [], nodes⟩

/-- The rows and what stands before the next element. -/
def behindRows (nodes : List Node) : List Node :=
  (rowsElement (nodes ++ chars (indent 2))).node :: chars ('\n' :: indent 2)

lemma run_resultOpen :
    State.start.run resultOpen =
      some ⟨.content 0, [rowsElement [], resultElement []], none⟩ := rfl

lemma run_rowsClose (nodes : List Node) :
    State.run ⟨.content 0, [rowsElement nodes, resultElement []], none⟩ (rowsClose ++ metaOpen) =
      some ⟨.content 0, [metaElement [], resultElement (behindRows nodes)], none⟩ := by
  have hsplit : rowsClose ++ metaOpen = indent 2 ++ ("</rows>\n".toList ++
      (indent 2 ++ "<meta>\n".toList)) := by decide +kernel
  have hrows : State.run ⟨.content 0, [rowsElement (nodes ++ chars (indent 2)), resultElement []],
      none⟩ "</rows>\n".toList = some ⟨.content 0, [resultElement
        [(rowsElement (nodes ++ chars (indent 2))).node, .char '\n']], none⟩ := rfl
  rw [hsplit, run_of_run (run_indent 2 _ _ none)]
  refine (run_of_run hrows _).trans ?_
  rw [run_of_run (run_indent 2 _ _ none)]
  rfl

lemma run_errorOpen (es : List Element) :
    State.run ⟨.content 0, metaElement [] :: es, none⟩ errorOpen =
      some ⟨.content 0, errorElement [] :: metaElement (chars (indent 4)) :: es, none⟩ := by
  have hsplit : errorOpen = indent 4 ++ "<error>".toList := by decide
  rw [hsplit, run_of_run (run_indent 4 _ _ none)]
  rfl

/-- The rows are the first element. -/
lemma rowsOf_of_completes {nodes more : List Node}
    (h : Completes [resultElement []] ((rowsElement nodes).append more) doc) :
    rowsOf doc = (Element.among (nodes ++ more)).mapM rowOf := by
  obtain ⟨others, rfl⟩ := h
  rfl

/-- The error is in the second one. -/
lemma errorOf_of_completes {nodes more : List Node}
    (h : Completes [metaElement (chars (indent 4)), resultElement (behindRows nodes)]
      ((errorElement []).append more) doc) :
    rowsOf doc = (Element.among nodes).mapM rowOf ∧ errorOf doc = some (textOf more) := by
  obtain ⟨others, others', rfl⟩ := h
  refine ⟨?_, rfl⟩
  show (Element.among (nodes ++ chars (indent 2))).mapM rowOf = _
  rw [Element.among_append, Element.among_char, List.append_nil]

/-! ## What stands behind the error -/

lemma isChar_of_isDigit {c : Char} (h : c.isDigit = true) : isChar c := by
  simp only [Char.isDigit, Bool.and_eq_true, decide_eq_true_eq] at h
  have hlow : 0x20 ≤ c.toNat := Nat.le_trans (by decide) h.1
  have hhigh : c.toNat ≤ 0xD7FF := Nat.le_trans h.2 (by decide)
  simp [isChar, hlow, hhigh]

lemma run_ofInt (n : ℤ) (top : Element) (es : List Element) (root : Option Element) :
    State.run ⟨.content 0, top :: es, root⟩ (Numeral.ofInt n) =
      some ⟨.content 0, top.append (chars (Numeral.ofInt n)) :: es, root⟩ := by
  refine run_simple (fun c hc => ?_) top es root
  rcases Numeral.isDigit_or_of_mem_ofInt hc with hdigit | rfl
  · have hne (d : Char) (hd : d.isDigit = false) : c ≠ d := by
      rintro rfl
      rw [hd] at hdigit
      cases hdigit
    refine ⟨?_, hne _ (by decide), hne _ (by decide)⟩
    rw [plainInData, isChar_of_isDigit hdigit, decide_eq_true (hne '<' (by decide)),
      decide_eq_true (hne '&' (by decide)), decide_eq_true (hne '\r' (by decide))]
    rfl
  · decide

/-- An element with a number in it. -/
lemma run_count (root : Option Element) (name openTag closeTag : Text)
    (hopen : ∀ top es, State.run ⟨.content 0, top :: es, root⟩ openTag =
      some ⟨.content 0, ⟨name, [], []⟩ :: top :: es, root⟩)
    (hclose : ∀ nodes top es, State.run ⟨.content 0, ⟨name, [], nodes⟩ :: top :: es, root⟩ closeTag =
      some ⟨.content 0, (top.append [.element name [] nodes]).append (chars ['\n']) :: es, root⟩)
    (n : ℤ) (top : Element) (es : List Element) :
    ∃ nodes, State.run ⟨.content 0, top :: es, root⟩
        ((indent 4 ++ openTag) ++ (Numeral.ofInt n ++ closeTag)) =
      some ⟨.content 0, top.append nodes :: es, root⟩ := by
  refine ⟨chars (indent 4) ++ ([.element name [] (chars (Numeral.ofInt n))] ++ chars ['\n']), ?_⟩
  rw [List.append_assoc, run_of_run (run_indent 4 _ _ _), run_of_run (hopen _ _),
    run_of_run (run_ofInt _ _ _ _)]
  refine (hclose _ _ _).trans ?_
  rw [Element.append_append, Element.append_append]
  rfl

/-- The number of rows and the time are read into whatever element is open. -/
lemma run_counts (rowcount elapsedMs : ℤ) (top : Element) (es : List Element)
    (root : Option Element) (rest : Text) :
    ∃ nodes, State.run ⟨.content 0, top :: es, root⟩ (rowcountOpen ++ (Numeral.ofInt rowcount ++
        (rowcountClose ++ (elapsedOpen ++ (Numeral.ofInt elapsedMs ++ (elapsedClose ++ rest)))))) =
      State.run ⟨.content 0, top.append nodes :: es, root⟩ rest := by
  have hrowcount : rowcountOpen = indent 4 ++ "<rowcount>".toList := by decide
  have helapsed : elapsedOpen = indent 4 ++ "<elapsed_ms>".toList := by decide
  obtain ⟨nodes, hnodes⟩ := run_count root Tag.rowcount "<rowcount>".toList rowcountClose
    (fun _ _ => rfl) (fun _ _ _ => rfl) rowcount top es
  obtain ⟨nodes', hnodes'⟩ := run_count root Tag.elapsedMs "<elapsed_ms>".toList elapsedClose
    (fun _ _ => rfl) (fun _ _ _ => rfl) elapsedMs (top.append nodes) es
  rw [← hrowcount] at hnodes
  rw [← helapsed] at hnodes'
  refine ⟨nodes ++ nodes', ?_⟩
  have hfirst := run_of_run hnodes (elapsedOpen ++ (Numeral.ofInt elapsedMs ++
    (elapsedClose ++ rest)))
  have hsecond := run_of_run hnodes' rest
  simp only [List.append_assoc] at hfirst hsecond
  rw [hfirst, hsecond, Element.append_append]

lemma isName_error : IsName Tag.error := ⟨by decide, 'e', "rror".toList, by decide, by decide⟩

lemma isName_meta : IsName Tag.meta_ := ⟨by decide, 'm', "eta".toList, by decide, by decide⟩

lemma isName_result : IsName Tag.result := ⟨by decide, 'r', "esult".toList, by decide, by decide⟩

lemma endsNothing_closing (rowcount : ℕ) (elapsedMs : ℤ) :
    EndsNothing (closing rowcount elapsedMs) := by
  refine ⟨?_, fun h => (closing_chars _ h).2.1 rfl, fun h => (closing_chars _ h).2.2 rfl⟩
  have hcount : (Numeral.ofInt rowcount).count '-' = 0 := by
    refine List.count_eq_zero_of_not_mem fun h => ?_
    have hdigit := Nat.isDigit_of_mem_toDigits (by decide) (by decide) h
    cases hdigit
  have hliterals : errorClose.count '-' = 0 ∧ rowcountOpen.count '-' = 0 ∧
      rowcountClose.count '-' = 0 ∧ elapsedOpen.count '-' = 0 ∧ elapsedClose.count '-' = 0 ∧
      metaClose.count '-' = 0 ∧ resultClose.count '-' = 0 := by decide +kernel
  obtain ⟨h₁, h₂, h₃, h₄, h₅, h₆, h₇⟩ := hliterals
  have helapsed := Numeral.count_ofInt elapsedMs
  simp only [closing, List.count_append, hcount, h₁, h₂, h₃, h₄, h₅, h₆, h₇]
  omega

/-- The end of a line. -/
lemma reads_line (top : Element) (es : List Element) (root : Option Element) (rest : Text) :
    Xml.State.Reads ⟨.content 0, top :: es, root⟩ ('\n' :: rest) doc ↔
      Xml.State.Reads ⟨.content 0, top.append (chars ['\n']) :: es, root⟩ rest doc := Iff.rfl

/-- **What stands behind the error closes its element**, and the two around it. -/
lemma closes_closing (rowcount : ℕ) (elapsedMs : ℤ) : Closes 2 (closing rowcount elapsedMs) := by
  intro state doc hreads
  have hclosing : closing rowcount elapsedMs = '<' :: '/' :: (Tag.error ++ '>' :: ('\n' ::
      (rowcountOpen ++ (Numeral.ofInt rowcount ++ (rowcountClose ++ (elapsedOpen ++
        (Numeral.ofInt elapsedMs ++ (elapsedClose ++ (metaClose ++ resultClose))))))))) := by
    have herror : errorClose = '<' :: '/' :: (Tag.error ++ ['>', '\n']) := by decide
    rw [closing, herror]
    simp only [List.cons_append, List.append_assoc, List.nil_append]
  have hnothing := endsNothing_closing rowcount elapsedMs
  rw [hclosing] at hreads hnothing
  obtain ⟨brackets, hmode⟩ := hreads.content_of_less hnothing
  obtain ⟨mode, es, root⟩ := state
  cases hmode
  -- the element itself
  obtain ⟨state', herror, hreads⟩ := hreads.endTag isName_error
  obtain ⟨top, rest, hopen, -, hcompletes⟩ := hreads.leadsTo.of_endTag herror
  refine ⟨top, rest, hopen, ?_, hcompletes⟩
  obtain ⟨top', rest', hopen', hcases⟩ := endTag_cases herror
  cases hopen
  cases hopen'
  rcases hcases with ⟨rfl, rfl⟩ | ⟨parent, es, rfl, rfl⟩
  · have hnone : State.run ⟨.content 0, [], some top⟩ ('\n' :: rowcountOpen) = none := rfl
    rw [← List.cons_append] at hreads
    exact absurd hreads (not_reads_append hnone)
  rw [reads_line] at hreads
  obtain ⟨nodes, hcounts⟩ := run_counts rowcount elapsedMs ((parent.append [top.node]).append
    (chars ['\n'])) es root (metaClose ++ resultClose)
  rw [Xml.State.Reads, hcounts] at hreads
  -- the element around it
  have hmeta : metaClose ++ resultClose = indent 2 ++
      ('<' :: '/' :: (Tag.meta_ ++ '>' :: ('\n' :: resultClose))) := by
    have hsplit : metaClose = indent 2 ++ ('<' :: '/' :: (Tag.meta_ ++ ['>', '\n'])) := by decide
    rw [hsplit]
    simp only [List.cons_append, List.append_assoc, List.nil_append]
  rw [hmeta] at hreads
  rw [← Xml.State.Reads, reads_append (run_indent 2 _ es root)] at hreads
  obtain ⟨state', hend, hreads⟩ := hreads.endTag isName_meta
  obtain ⟨top', rest', hopen', hcases⟩ := endTag_cases hend
  cases hopen'
  rcases hcases with ⟨rfl, rfl⟩ | ⟨parent', es', rfl, rfl⟩
  · have hnone (e : Element) : State.run ⟨.content 0, [], some e⟩ ('\n' :: resultClose) = none := rfl
    rw [← List.append_nil ('\n' :: resultClose)] at hreads
    exact absurd hreads (not_reads_append (hnone _))
  rw [reads_line] at hreads
  -- the root element
  have hresult : resultClose = '<' :: '/' :: (Tag.result ++ '>' :: ['\n']) := by decide
  rw [hresult] at hreads
  obtain ⟨state', hend, hreads⟩ := hreads.endTag isName_result
  obtain ⟨top', rest', hopen', hcases⟩ := endTag_cases hend
  cases hopen'
  rcases hcases with ⟨rfl, -⟩ | ⟨parent'', es'', rfl, rfl⟩
  · rfl
  · rw [reads_line] at hreads
    cases hreads.of_nil.2.1

/-- From the error on the rest can be read. -/
lemma exists_reads_closing (brackets : ℕ) (nodes nodes' nodes'' : List Node) (rowcount : ℕ)
    (elapsedMs : ℤ) :
    ∃ doc, Xml.State.Reads ⟨.content brackets, [errorElement nodes, metaElement nodes',
      resultElement nodes''], none⟩ (closing rowcount elapsedMs) doc := by
  have herror : State.run ⟨.content brackets, [errorElement nodes, metaElement nodes',
      resultElement nodes''], none⟩ errorClose = some ⟨.content 0,
        [((metaElement nodes').append [(errorElement nodes).node]).append (chars ['\n']),
          resultElement nodes''], none⟩ := rfl
  obtain ⟨counts, hcounts⟩ := run_counts rowcount elapsedMs
    (((metaElement nodes').append [(errorElement nodes).node]).append (chars ['\n']))
    [resultElement nodes''] none (metaClose ++ resultClose)
  have hmeta (top : Element) (h : top.name = Tag.meta_) : ∃ nodes, State.run ⟨.content 0,
      [top, resultElement nodes''], none⟩ "</meta>\n".toList =
        some ⟨.content 0, [resultElement nodes], none⟩ := by
    obtain ⟨name, attrs, children⟩ := top
    cases h
    exact ⟨nodes'' ++ [.element Tag.meta_ attrs children] ++ chars ['\n'], rfl⟩
  have hresult (nodes : List Node) : State.run ⟨.content 0, [resultElement nodes], none⟩
      resultClose = some ⟨.content 0, [], some (resultElement nodes)⟩ := rfl
  have hsplit : metaClose = indent 2 ++ "</meta>\n".toList := by decide
  obtain ⟨others, hothers⟩ := hmeta (((((metaElement nodes').append
    [(errorElement nodes).node]).append (chars ['\n'])).append counts).append (chars (indent 2))) rfl
  have hrun : State.run ⟨.content 0, [(((metaElement nodes').append
      [(errorElement nodes).node]).append (chars ['\n'])).append counts, resultElement nodes''],
      none⟩ (metaClose ++ resultClose) = some ⟨.content 0, [], some (resultElement others)⟩ := by
    rw [hsplit, List.append_assoc, run_of_run (run_indent 2 _ _ none), run_of_run hothers, hresult]
  refine ⟨resultElement others, ?_⟩
  rw [closing, reads_append herror, Xml.State.Reads, hcounts, hrun]
  rfl

/-! ## The result -/

variable {err : Text} {rowcount : ℕ} {elapsedMs : ℤ}

/-- The error begins behind plain rows. -/
lemma reads_error (h : ∀ row ∈ rows, ∀ column ∈ row, PlainColumn column) (text : Text) :
    State.start.Reads (resultOpen ++ (rows.flatMap rowText ++ (rowsClose ++ (metaOpen ++
        (errorOpen ++ text))))) doc ↔
      Xml.State.Reads ⟨.content 0, [errorElement [], metaElement (chars (indent 4)),
        resultElement (behindRows (rows.flatMap rowNodes))], none⟩ text doc := by
  have hrows : (rowsElement []).append (rows.flatMap rowNodes) =
    rowsElement (rows.flatMap rowNodes) := rfl
  rw [reads_append run_resultOpen, Xml.State.Reads, run_rows h, hrows, ← List.append_assoc rowsClose,
    run_of_run (run_rowsClose _), run_of_run (run_errorOpen _), Xml.State.Reads]

lemma parse_answer : Xml.parse (answerText rows err rowcount elapsedMs) = some doc ↔
    State.start.Reads (answerText (rows.map normalColumns) (normalizeLines err) rowcount elapsedMs)
      doc := by
  rw [Xml.parse, normalizeLines_answer, Xml.State.Reads]

/-- The rows that are read are those that were written only if all their texts are plain. -/
lemma plain_of_rowsOf
    (hreads : State.start.Reads (answerText (rows.map normalColumns) err rowcount elapsedMs) doc)
    (hrows : rowsOf doc = some rows) : ∀ row ∈ rows, ∀ column ∈ row, PlainColumn column := by
  by_contra h
  rw [answerText, reads_append run_resultOpen] at hreads
  obtain ⟨more, hcompletes, hmore⟩ := rows_ne h hreads
  rw [rowsOf_of_completes hcompletes, List.nil_append] at hrows
  exact hmore hrows

/-- A plain error is read as it is. -/
lemma errorOf_of_plain (herr : PlainData err)
    (hreads : Xml.State.Reads ⟨.content 0, [errorElement [], metaElement (chars (indent 4)),
      resultElement (behindRows (rows.flatMap rowNodes))], none⟩
      (err ++ closing rowcount elapsedMs) doc) :
    rowsOf doc = some rows ∧ errorOf doc = some err := by
  rw [reads_append (run_data (plainFrom_zero_iff.mpr herr) _ _ _)] at hreads
  obtain ⟨top, rest, hopen, -, hcompletes⟩ := closes_closing rowcount elapsedMs _ _ hreads
  cases hopen
  obtain ⟨hrows, herror⟩ := errorOf_of_completes hcompletes
  rw [textOf_char] at herror
  exact ⟨hrows.trans (mapM_rowNodes rows), herror⟩

lemma map_normalColumns (h : ∀ row ∈ rows, ∀ column ∈ row, PlainColumn column) :
    rows.map normalColumns = rows :=
  (List.map_congr_left fun row hrow => normalColumns_eq (h row hrow)).trans (List.map_id rows)

/-- The answer with plain rows, from the error on. -/
lemma parse_plain (h : ∀ row ∈ rows, ∀ column ∈ row, PlainColumn column) :
    Xml.parse (answerText rows err rowcount elapsedMs) = some doc ↔
      Xml.State.Reads ⟨.content 0, [errorElement [], metaElement (chars (indent 4)),
        resultElement (behindRows (rows.flatMap rowNodes))], none⟩
        (normalizeLines err ++ closing rowcount elapsedMs) doc := by
  rw [parse_answer, map_normalColumns h, answerText, reads_error h]

lemma exists_parse_of_plain (h : ∀ row ∈ rows, ∀ column ∈ row, PlainColumn column)
    (herr : PlainData err) : ∃ doc, Xml.parse (answerText rows err rowcount elapsedMs) = some doc ∧
      rowsOf doc = some rows ∧ errorOf doc = some err := by
  have hrun := run_data (plainFrom_zero_iff.mpr herr) (errorElement []) [metaElement
    (chars (indent 4)), resultElement (behindRows (rows.flatMap rowNodes))] none
  obtain ⟨doc, hdoc⟩ := exists_reads_closing (err.foldl nextBrackets 0) (chars err)
    (chars (indent 4)) (behindRows (rows.flatMap rowNodes)) rowcount elapsedMs
  have hreads : Xml.State.Reads ⟨.content 0, [errorElement [], metaElement (chars (indent 4)),
      resultElement (behindRows (rows.flatMap rowNodes))], none⟩
      (err ++ closing rowcount elapsedMs) doc := (reads_append hrun).mpr hdoc
  refine ⟨doc, ?_, errorOf_of_plain herr hreads⟩
  rw [parse_plain h, herr.normalizeLines]
  exact hreads

/-- **The document says what was written only if all of it is plain.** -/
lemma plain_of_parse (hparse : Xml.parse (answerText rows err rowcount elapsedMs) = some doc)
    (hrows : rowsOf doc = some rows) (herror : errorOf doc = some err) :
    (∀ row ∈ rows, ∀ column ∈ row, PlainColumn column) ∧ PlainData err := by
  have hplain := plain_of_rowsOf (parse_answer.mp hparse) hrows
  refine ⟨hplain, ?_⟩
  by_contra herr
  rw [← plainFrom_zero_iff] at herr
  rw [parse_plain hplain] at hparse
  have hcloses : Closes [metaElement (chars (indent 4)),
      resultElement (behindRows (rows.flatMap rowNodes))].length (closing rowcount elapsedMs) :=
    closes_closing rowcount elapsedMs
  obtain ⟨more, hcompletes, hmore⟩ := data_ne herr hcloses hparse
  obtain ⟨-, herror'⟩ := errorOf_of_completes hcompletes
  exact hmore (Option.some_inj.mp (herror'.symm.trans herror))

/-- The columns that are written. -/
lemma plainColumn_cells_iff {rows : List Row} :
    (∀ row ∈ rows.map cells, ∀ column ∈ row, PlainColumn column) ↔
      ∀ row ∈ rows, ∀ column ∈ row, PlainValue column.1 ∧ PlainValue (switchStrNil column.2) := by
  simp only [List.forall_mem_map, cells, PlainColumn]

lemma faithful_iff (outcome : Outcome) :
    Faithful outcome (answerText (outcome.rows.map cells) (printed outcome.err)
      outcome.rows.length elapsedMs) ↔ Plain outcome := by
  constructor
  · rintro ⟨doc, hparse, hrows, herror⟩
    have hplain := plain_of_rowsOf (parse_answer.mp hparse) hrows
    cases herr : outcome.err with
    | none =>
      -- NULL is printed, and read
      rw [herr] at hparse herror
      have hnull : PlainData (printed none) := ⟨by decide, by decide⟩
      rw [parse_plain hplain, hnull.normalizeLines] at hparse
      obtain ⟨-, herror'⟩ := errorOf_of_plain hnull hparse
      have hempty : printed none = [] := Option.some_inj.mp (herror'.symm.trans herror)
      exact absurd hempty (by decide)
    | some err =>
      rw [herr] at hparse herror
      exact ⟨⟨err, herr, (plain_of_parse hparse hrows herror).2⟩, plainColumn_cells_iff.mp hplain⟩
  · rintro ⟨⟨err, herr, hplain⟩, hcolumns⟩
    rw [Faithful, herr]
    exact exists_parse_of_plain (plainColumn_cells_iff.mpr hcolumns) hplain

end

/-- A query that gives one row. -/
def oneRow : Database where
  getDbHandle _ := (true, true)
  executeSql _ _ := ([[("id".toList, some "1".toList)]], true, none)

end FreeswitchContrib.OdbcQuery
