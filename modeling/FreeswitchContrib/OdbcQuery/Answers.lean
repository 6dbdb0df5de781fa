import FreeswitchContrib.Library.Numeral
import FreeswitchContrib.Library.XmlCopied

/-!
# The answers of `odbc_query`

The API function writes the beginning of the answer, has the callback write each row, and writes the
error, the number of rows and the time behind them.  In the XML answer names, values and the error
are copied into the document as they are; and without an error a NULL pointer is printed.

* `executeSqlCallback`, `odbcQueryApiFunction` — the code, with the database as a parameter.
* `rowsOf`, `errorOf` — what a document says.
* `Faithful` — the answer is a document, and says what the query gave.
* `Plain` — there is an error, and nothing has to be escaped.
-/

namespace FreeswitchContrib.OdbcQuery

open Xml State

/-! ## The query -/

/-- The names of the columns with the values, which may be NULL. -/
abbrev Row := List (Text × Option Text)

structure Globals where
  odbcDsn : Option Text
  odbcUser : Option Text
  odbcPass : Option Text

structure Options where
  dsn : Option Text
  user : Option Text
  pass : Option Text

structure Database where
  /-- `switch_cache_db_get_db_handle`: whether it succeeds, and whether `dbh` is not NULL -/
  getDbHandle : Options → Bool × Bool
  /-- `switch_cache_db_execute_sql_callback`: the rows for the callback, whether it succeeds, and
  `sql_err` -/
  executeSql : Options → Text → List Row × Bool × Option Text

/-- What `execute_sql_callback` leaves: the rows of which the callback was told, what it returns,
and `err`. -/
structure Outcome where
  rows : List Row
  returned : Bool
  err : Option Text

/-- What is printed for a pointer. -/
def printed (text : Option Text) : Text := text.getD "(null)".toList

def resultOpen : Text := "<result>\n  <rows>\n".toList
def rowsClose : Text := "  </rows>\n".toList
def metaOpen : Text := "  <meta>\n".toList
def errorOpen : Text := "    <error>".toList
def errorClose : Text := "</error>\n".toList
def rowcountOpen : Text := "    <rowcount>".toList
def rowcountClose : Text := "</rowcount>\n".toList
def elapsedOpen : Text := "    <elapsed_ms>".toList
def elapsedClose : Text := "</elapsed_ms>\n".toList
def metaClose : Text := "  </meta>\n".toList
def resultClose : Text := "</result>\n".toList
def rowOpen : Text := "    <row>\n".toList
def rowClose : Text := "    </row>\n".toList
def columnName : Text := "      <column name=\"".toList
def columnValue : Text := "\" value=\"".toList
def columnClose : Text := "\"/>\n".toList

namespace Tag

def result : Text := "result".toList
def rows : Text := "rows".toList
def row : Text := "row".toList
def column : Text := "column".toList
def name : Text := "name".toList
def value : Text := "value".toList
def meta_ : Text := "meta".toList
def error : Text := "error".toList
def rowcount : Text := "rowcount".toList
def elapsedMs : Text := "elapsed_ms".toList

end Tag

/-! ## The answer -/

inductive Format
  | txt
  | tab
  | xml
deriving DecidableEq

/-- `switch_str_nil` -/
def switchStrNil (text : Option Text) : Text := text.getD []

def odbcQueryCallbackTxt (row : Row) : Text :=
  (row.flatMap fun (name, value) =>
    name.leftpad 25 ' ' ++ " : ".toList ++ switchStrNil value ++ "\n".toList) ++ "\n".toList

/-- The first row has the names above it. -/
def odbcQueryCallbackTab (rowcount : ℕ) (row : Row) : Text :=
  (if rowcount = 1 then
    (row.flatMap fun (name, _) => name.rightpad 20 ' ') ++ "\n".toList ++
      (row.flatMap fun _ => "====================".toList) ++ "\n".toList
  else []) ++ (row.flatMap fun (_, value) => (switchStrNil value).rightpad 20 ' ') ++ "\n".toList

/-- The element of a column. -/
def xmlColumn (name value : Text) : Text :=
  columnName ++ name ++ columnValue ++ value ++ columnClose

def odbcQueryCallbackXml (row : Row) : Text :=
  rowOpen ++ (row.flatMap fun (name, value) => xmlColumn name (switchStrNil value)) ++
    rowClose

def callback (format : Format) (rowcount : ℕ) (row : Row) : Text :=
  match format with
  | .txt => odbcQueryCallbackTxt row
  | .tab => odbcQueryCallbackTab rowcount row
  | .xml => odbcQueryCallbackXml row

/-- The callback for each row, which counts them. -/
def callbacks (format : Format) : ℕ → List Row → Text
  | _, [] => []
  | rowcount, row :: rows =>
    callback format (rowcount + 1) row ++ callbacks format (rowcount + 1) rows

def header : Format → Text
  | .xml => resultOpen
  | _ => []

def columnOf (element : Element) : Option (Text × Text) :=
  if element.name = Tag.column then
    (element.attr? Tag.name).bind fun name =>
      (element.attr? Tag.value).map fun value => (name, value)
  else none

def rowOf (element : Element) : Option (List (Text × Text)) :=
  if element.name = Tag.row then element.elements.mapM columnOf else none

/-- The rows of the `rows` element. -/
def rowsOf (doc : Element) : Option (List (List (Text × Text))) :=
  (doc.child? Tag.rows).bind fun rows => rows.elements.mapM rowOf

/-- The text of the `error` element. -/
def errorOf (doc : Element) : Option Text :=
  ((doc.child? Tag.meta_).bind fun element => element.child? Tag.error).map Element.text

/-- The names with the values; NULL is an empty one. -/
def cells (row : Row) : List (Text × Text) := row.map fun (name, value) => (name, switchStrNil value)

/-- The answer is a document with these rows and with this error, or with an empty one. -/
def Faithful (outcome : Outcome) (text : Text) : Prop :=
  ∃ doc, Xml.parse text = some doc ∧ rowsOf doc = some (outcome.rows.map cells) ∧
    errorOf doc = some (outcome.err.getD [])

/-- There is an error, and nothing has to be escaped. -/
structure Plain (outcome : Outcome) : Prop where
  error : ∃ err, outcome.err = some err ∧ PlainData err
  columns : ∀ row ∈ outcome.rows, ∀ column ∈ row,
    PlainValue column.1 ∧ PlainValue (switchStrNil column.2)

end FreeswitchContrib.OdbcQuery
