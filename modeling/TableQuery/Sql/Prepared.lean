/-
Statements as a driver receives them: text, and for each execution the values in order.

What is wrong with a statement itself is found first; a value that is missing or that
cannot be stored is found when the statement is run, and reported as a failure of it.
-/
import TableQuery.Sql.Statement.Printer
import TableQuery.Sql.Stored

namespace TableQuery

namespace Sql

/-- A text with the values of each execution. -/
structure Prepared where
  sql : String
  /-- The values, one list for each row. -/
  rows : List (List Value)
  /-- Whether the rows are handed over together. -/
  many : Bool

/-- Failures of the values of a statement that is run. -/
def asStatementError {α : Type} : Except ParameterError α → Except Error α
  | .ok a => .ok a
  | .error e => .error (.statement e)

/-- Failures of the binds of a statement that is run. -/
def whenRun : Reporting where
  parameter := .statement
  unlisted name :=
    .driver "StatementError" ("(builtins.KeyError) " ++ (Error.unknownKey name).message)

/-- A statement of one execution, after `n` has been named. -/
def prepareAfter (d : Dialect) (n : Naming) (ps : List Piece) : Except Error Prepared :=
  match renderAfter whenRun d n ps with
  | .error e => .error e
  | .ok r => asStatementError ((storedAll d r.parameters).map (fun vs => ⟨r.sql, [vs], false⟩))

/-- A statement of one execution. -/
def prepareOne (d : Dialect) (ps : List Piece) : Except Error Prepared := prepareAfter d .empty ps

/-- The parameters of rows numbered from `i`. -/
def Insert.parametersFrom (x : Insert) : Nat → List Row →
    Except ParameterError (List (List Parameter))
  | _, [] => .ok []
  | i, r :: rs =>
    match rowParameters i r x.written with
    | .error e => .error e
    | .ok ps => (x.parametersFrom (i + 1) rs).map (ps :: ·)

/-- The parameters of a row with what is read in the place of each. -/
def servedRow (d : Dialect) (ps : List Parameter) : List Parameter :=
  ps.map (if d.isPositional then readFor (fun p => some p.name) ps
    else readLast (fun p => some p.name) ps)

/-- The values of all rows of an insert as the driver receives them. -/
def Insert.storedRows (d : Dialect) (i : Insert) : Except ParameterError (List (List Value)) :=
  match i.parametersFrom 0 i.rows with
  | .error e => .error e
  | .ok rows => collect (fun ps => storedAll d (servedRow d ps)) rows

/-- An insert of all its rows. -/
def Insert.prepare (d : Dialect) (i : Insert) : Except Error Prepared :=
  match i.pieces d with
  | .error e => .error e
  | .ok ps =>
    match render d ps with
    | .error e => .error e
    | .ok r => asStatementError ((i.storedRows d).map (fun rows => ⟨r.sql, rows, !i.rest.isEmpty⟩))

/-- A statement as the driver of a dialect receives it. -/
def Statement.prepare (d : Dialect) (s : Statement) : Except Error Prepared :=
  match s.unknownColumns with
  | [] =>
    match s with
    | .select s => prepareAfter d s.naming (s.pieces d)
    | .insert i => i.prepare d
    | .update u =>
      match u.pieces d with
      | .ok ps => prepareOne d ps
      | .error e => .error e
    | .delete x =>
      match x.pieces d with
      | .ok ps => prepareOne d ps
      | .error e => .error e
    | .raw b => prepareOne d b.pieces
  | names => .error (.unknownColumns names)

end Sql

end TableQuery
