/-
The text of statements, as pieces.

Conditions may name further tables; each dialect has its own way to take them into an
update or a delete, or none.
-/
import TableQuery.Sql.Printer
import TableQuery.Sql.Statement

namespace TableQuery

namespace Sql

/-- Lists of pieces with a text between each two. -/
def separated (separator : String) : List (List Piece) → List Piece
  | [] => []
  | [ps] => ps
  | ps :: rest => ps ++ .text separator :: separated separator rest

/-- Names with a comma and a blank between them. -/
def nameList (names : List String) : List Piece :=
  separated ", " (names.map (fun n => [.name n]))

/-- A name qualified by a table. -/
def qualified (table column : String) : List Piece := [.name table, .text ".", .name column]

/-- The pieces of a condition after a word. -/
def conditionPieces (d : Dialect) (lead : String) (e : Expr) : List Piece :=
  .text lead :: e.asCondition.pieces d

namespace Select

/-- What a query yields. -/
def outputPieces (s : Select) : List Piece :=
  match s.output with
  | .columns => separated ", " (s.table.columnNames.map (qualified s.table.name))
  | .everything => [.text "*"]
  | .count => [.text "count(*) AS count_1"]

/-- What a query has named before its first place: a count has a label, which is counted like
the name of a place. -/
def naming (s : Select) : Naming :=
  match s.output with
  | .columns | .everything => .empty
  | .count => (Naming.empty.next "count").2

/-- The tables that a query reads: its own and those that its condition names. -/
def tables (s : Select) : List String :=
  s.table.name :: (s.condition.map (Expr.foreignTables s.table.name)).getD []

/-- A key of an order. -/
def keyPieces (o : OrderKey × Bool) : List Piece :=
  let key := match o.1 with
    | .column c => c.pieces
    | .verbatim name => [.text name]
  if o.2 then key ++ [.text " DESC"] else key

/-- The order of a query. -/
def orderPieces (orders : List (OrderKey × Bool)) : List Piece :=
  if orders.isEmpty then [] else .text " ORDER BY " :: separated ", " (orders.map keyPieces)

/-- A whole number as a bound value. -/
def countPiece (n : Int) : Piece := .value ⟨"param", true, .integer⟩ (.int n)

/-- The limit clause. -/
def limitPieces (d : Dialect) (limit offset : Option Int) : List Piece :=
  match d, limit, offset with
  | _, none, none => []
  | .sqlite, l, o =>
    [.text "\n LIMIT ", countPiece (l.getD (-1)), .text " OFFSET ", countPiece (o.getD 0)]
  | .postgresql, some l, none => [.text " \n LIMIT ", countPiece l]
  | .postgresql, some l, some o =>
    [.text " \n LIMIT ", countPiece l, .text " OFFSET ", countPiece o]
  | .postgresql, none, some o => [.text "\n LIMIT ALL OFFSET ", countPiece o]
  | .mysql, some l, none | .mariadb, some l, none => [.text " \n LIMIT ", countPiece l]
  | .mysql, some l, some o | .mariadb, some l, some o =>
    [.text " \n LIMIT ", countPiece o, .text ", ", countPiece l]
  | .mysql, none, some o | .mariadb, none, some o =>
    [.text " \n LIMIT ", countPiece o, .text ", 18446744073709551615"]
  | .generic _, some l, none => [.text "\n LIMIT ", countPiece l]
  | .generic _, some l, some o =>
    [.text "\n LIMIT ", countPiece l, .text " OFFSET ", countPiece o]
  | .generic _, none, some o => [.text "\n LIMIT -1 OFFSET ", countPiece o]

/-- The pieces of a query up to its condition. -/
def coreParts (d : Dialect) (s : Select) : List Piece :=
  .text "SELECT " :: s.outputPieces ++ .text " \nFROM " :: nameList s.tables ++
    match s.condition with
    | some e => conditionPieces d " \nWHERE " e
    | none => []

/-- The pieces of a query. -/
def pieces (d : Dialect) (s : Select) : List Piece :=
  s.coreParts d ++ orderPieces s.orders ++ limitPieces d s.limit s.offset

end Select

namespace Insert

/-- What an insert does on a conflict, after the values. -/
def conflictPieces (d : Dialect) (i : Insert) : List Piece :=
  let inTableOrder (names : List String) := i.table.columnNames.filter names.contains
  match i.conflict with
  | .fail => []
  | .overwrite keys columns =>
    let columns := inTableOrder columns
    if d.isMysqlFamily then
      .text " ON DUPLICATE KEY UPDATE " :: separated ", " (columns.map (fun n =>
        [.name n, .text " = VALUES(", .name n, .text ")"]))
    else
      .text " ON CONFLICT (" :: nameList keys ++ .text ") DO UPDATE SET "
        :: separated ", " (columns.map (fun n => [.name n, .text " = excluded.", .name n]))
  | .keep keys =>
    if d.isMysqlFamily then [] else .text " ON CONFLICT (" :: nameList keys ++ [.text ") DO NOTHING"]

/-- The words that an insert starts with. -/
def leadText (d : Dialect) (i : Insert) : String :=
  match i.conflict with
  | .keep _ => if d.isMysqlFamily then "INSERT IGNORE INTO " else "INSERT INTO "
  | _ => "INSERT INTO "

/-- What an insert asks to be told. -/
def returningPieces (d : Dialect) (i : Insert) : List Piece :=
  match i.returnedColumns d with
  | [] => []
  | cs =>
    let name (c : TableColumn) :=
      if d = .postgresql then qualified i.table.name c.name else [.name c.name]
    .text " RETURNING " :: separated ", " (cs.map name)

/-- The columns that an insert writes, each with the value of the first row. -/
def firstParameters (i : Insert) : List Parameter :=
  i.written.map (fun e =>
    match e.2 with
    | .row => ⟨e.1.name, e.1.type, i.first.get e.1.name⟩
    | .default v => ⟨e.1.name, e.1.type, v⟩)

/-- The place of a column's value, named after the column. -/
def valuePiece (p : Parameter) : Piece := .value ⟨p.name, false, p.type⟩ p.value

/-- What stands for the values of rows that give none: several rows name one column
where a dialect has no other form for them. -/
def noValues (d : Dialect) (i : Insert) : Except Error (List Piece) :=
  let one (word : String) : Except Error (List Piece) :=
    match i.table.columns with
    | [] => .error .noColumn
    | c :: _ => .ok [.text " (", .name c.name, .text (") VALUES (" ++ word ++ ")")]
  match d, i.rest with
  | .generic _, _ | .mysql, [] | .mariadb, [] => .ok [.text " () VALUES ()"]
  | .sqlite, [] | .postgresql, [] => .ok [.text " DEFAULT VALUES"]
  | .sqlite, _ => one "NULL"
  | _, _ => one "DEFAULT"

/-- The columns and the values of an insert. -/
def valuePieces (d : Dialect) (i : Insert) : Except Error (List Piece) :=
  match i.firstParameters with
  | [] => i.noValues d
  | ps =>
    .ok (.text " (" :: nameList (ps.map (·.name)) ++ .text ") VALUES ("
      :: separated ", " (ps.map (fun p => [valuePiece p])) ++ [.text ")"])

/-- The pieces of an insert with the values of its first row. -/
def pieces (d : Dialect) (i : Insert) : Except Error (List Piece) :=
  (i.valuePieces d).map (fun values =>
    .text (i.leadText d) :: .name i.table.name :: values ++ i.conflictPieces d
      ++ i.returningPieces d)

end Insert

namespace Update

/-- The value that an update assigns to a column: the given one, or that of the column's own
for updates that leave it out. -/
def valueFor (u : Update) (c : TableColumn) : Option Value :=
  (u.assignments.get? c.name).or c.onUpdate

/-- The columns that an update assigns, in the order of the table, with their values. -/
def assigned (u : Update) : List Parameter :=
  u.table.columns.filterMap (fun c => (u.valueFor c).map (fun v => ⟨c.name, c.type, v⟩))

/-- The assignments with commas between them; `name` says how a column is named. -/
def assignmentPieces (u : Update) (name : String → List Piece) : List Piece :=
  separated ", " (u.assigned.map (fun p => name p.name ++ [.text "=", Insert.valuePiece p]))

/-- The pieces of an update. -/
def pieces (d : Dialect) (u : Update) : Except Error (List Piece) :=
  let plain (n : String) : List Piece := [.name n]
  match u.condition.foreignTables u.table.name, d with
  | [], _ =>
    .ok (.text "UPDATE " :: .name u.table.name :: .text " SET " :: u.assignmentPieces plain
      ++ conditionPieces d " WHERE " u.condition)
  | foreign, .sqlite | foreign, .postgresql =>
    .ok (.text "UPDATE " :: .name u.table.name :: .text " SET " :: u.assignmentPieces plain
      ++ .text " FROM " :: nameList foreign ++ conditionPieces d " WHERE " u.condition)
  | foreign, .mysql | foreign, .mariadb =>
    .ok (.text "UPDATE " :: nameList (u.table.name :: foreign) ++ .text " SET "
      :: u.assignmentPieces (qualified u.table.name) ++ conditionPieces d " WHERE " u.condition)
  | _, .generic _ => .error (.multipleTables "UPDATE")

end Update

namespace Delete

/-- The pieces of a delete. -/
def pieces (d : Dialect) (x : Delete) : Except Error (List Piece) :=
  let whole (tables : List Piece) : Except Error (List Piece) :=
    .ok (.text "DELETE FROM " :: tables ++ conditionPieces d " WHERE " x.condition)
  match x.condition.foreignTables x.table.name, d with
  | [], _ => whole [.name x.table.name]
  | foreign, .postgresql => whole (.name x.table.name :: .text " USING " :: nameList foreign)
  | foreign, .mysql | foreign, .mariadb =>
    whole (.name x.table.name :: .text " USING " :: nameList (x.table.name :: foreign))
  | _, _ => .error (.multipleTables "DELETE")

end Delete

end Sql

end TableQuery
