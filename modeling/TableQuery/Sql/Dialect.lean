/-
The dialects of SQL, and how each writes a name.

`generic` is SQL with no product behind it; it exists with positional and with named
placeholders.  What a dialect decides is always a function of the dialect, so each rule
stands in one place: names here, the forms of expressions and statements where those
are written.
-/
import TableQuery.Sql.Reserved

namespace TableQuery

/-- A dialect of SQL. -/
inductive Dialect where
  | sqlite
  | postgresql
  | mysql
  | mariadb
  /-- Generic SQL, with named placeholders or positional ones. -/
  | generic (named : Bool)
  deriving DecidableEq, Repr, Inhabited

namespace Dialect

/-- The name under which a dialect is known. -/
def name : Dialect → String
  | sqlite => "sqlite"
  | postgresql => "postgresql"
  | mysql => "mysql"
  | mariadb => "mariadb"
  | generic named => if named then "default" else "other"

/-- Whether a driver knows placeholders by position: all but generic SQL with names. -/
def isPositional (d : Dialect) : Prop := d ≠ .generic true

instance (d : Dialect) : Decidable d.isPositional := inferInstanceAs (Decidable (d ≠ _))

/-- Whether this is MySQL or its relative. -/
def isMysqlFamily : Dialect → Bool
  | mysql | mariadb => true
  | _ => false

/-- The words that are quoted when used as names. -/
def reserved : Dialect → List String
  | sqlite => Sql.sqliteReserved
  | postgresql => Sql.postgresqlReserved
  | mysql => Sql.mysqlFamilyReserved ++ Sql.mysqlOnlyReserved
  | mariadb => Sql.mysqlFamilyReserved ++ Sql.mariadbOnlyReserved
  | generic _ => Sql.genericReserved

/-- The character that encloses a quoted name. -/
def quoteChar (d : Dialect) : Char := if d.isMysqlFamily then '\x60' else '"'

/-- The characters of a plain name: ASCII letters and digits, the underscore and the dollar sign. -/
def isPlainChar (c : Char) : Bool := c.isAlphanum || c == '_' || c == '$'

/-- Whether a name holds plain characters only; one newline may end it. -/
def isPlainName (cs : List Char) : Bool :=
  let body := if cs.getLast? == some '\n' then cs.dropLast else cs
  !body.isEmpty && body.all isPlainChar

/-- Whether a name is written between quotes: a reserved word, one that starts with a
digit or a dollar sign, one with an upper-case letter, or one that is not plain. -/
def needsQuotes (d : Dialect) (s : String) : Bool :=
  let cs := s.toList
  d.reserved.contains (String.ofList (cs.map Char.toLower))
    || cs.head?.any (fun c => c.isDigit || c == '$')
    || !isPlainName cs
    || cs.any Char.isUpper

/-- A name as it stands in a statement; the quote inside a quoted name is doubled. -/
def quoteName (d : Dialect) (s : String) : String :=
  if d.needsQuotes s then
    let q := d.quoteChar
    String.ofList (q :: s.toList.flatMap (fun c => if c == q then [c, c] else [c]) ++ [q])
  else s

/-- How a dialect writes the constant true. -/
def trueWord : Dialect → String
  | sqlite | generic _ => "1"
  | _ => "true"

/-- How a dialect writes the constant false. -/
def falseWord : Dialect → String
  | sqlite | generic _ => "0"
  | _ => "false"

/-- How a dialect writes a constant truth value. -/
def boolWord (d : Dialect) (b : Bool) : String := if b then d.trueWord else d.falseWord

/-- Whether a dialect has truth values of its own, so that a Boolean column is a
condition by itself and Boolean parameters stay Boolean. -/
def hasBooleans : Dialect → Bool
  | postgresql => true
  | _ => false

end Dialect

end TableQuery
