/-
Statements between structure and text: fixed text with names and places for values.

A statement is first written as a list of pieces.  A dialect then renders the pieces: a
name is quoted where the dialect needs it, a place becomes a placeholder and its value a
parameter.  A value never passes through the fixed text.

A list of values is written between parentheses that belong to the fixed text; its
members become one placeholder each, or, when they are tuples of a list of unknown type,
one parenthesised group each.  It is written out after all placeholders have got their
names, so a member never takes a name that another place has.
-/
import TableQuery.Error
import TableQuery.Sql.Dialect
import TableQuery.Text.Blank

namespace TableQuery

namespace Sql

/-- A place for a value: what it is named after, and the type that values are bound as. -/
structure Slot where
  name : String
  /-- Whether the name is made unique by a count, as for a column; a bind of raw SQL and
  an assigned column keep their own name. -/
  counted : Bool
  type : SqlType
  deriving Repr, Inhabited

/-- Why a list of values is written: inside an IN comparison, inside its negation, or
as a whole on its own. -/
inductive ListUse where
  | member
  | notMember
  | bare
  deriving DecidableEq, Repr

/-- A part of a statement.  A missing value is that of a bind which was never given one. -/
inductive Piece where
  | text (s : String)
  /-- The name of a table or a column. -/
  | name (s : String)
  | value (slot : Slot) (v : Value)
  | members (slot : Slot) (use : ListUse) (vs : List Value)
  | missing (slot : Slot)

/-- A name as a dialect writes it; an empty one cannot be written. -/
def writeName (d : Dialect) (s : String) : Except Error String :=
  if s = "" then .error .emptyName else .ok (d.quoteName s)

/-! ### Names of placeholders -/

/-- Whether a character is folded into an underscore before a name is counted. -/
def isFolded (c : Char) : Bool := c == '%' || c == '(' || c == ')' || c == ' ' || c == '$'

/-- Runs of folded characters as one underscore each.  `inRun` says that the run has
its underscore already. -/
def foldRuns (inRun : Bool) : List Char → List Char
  | [] => []
  | c :: cs =>
    if isFolded c then (if inRun then foldRuns true cs else '_' :: foldRuns true cs)
    else c :: foldRuns false cs

/-- The name a placeholder is counted under: without underscores at its ends. -/
def countedName (name : String) : String :=
  String.ofList (trimBy (· == '_') (foldRuns false name.toList))

/-- How a character stands in the name of a placeholder. -/
def placeholderChar (c : Char) : Char :=
  if c == '%' then 'P'
  else if c == '(' then 'A'
  else if c == ')' then 'Z'
  else if c == ':' then 'C'
  else if c == '.' || c == '[' || c == ']' || c == ' ' then '_'
  else c

/-- The name of a placeholder as written. -/
def placeholderName (name : String) : String := String.ofList (name.toList.map placeholderChar)

/-- What has been named so far. -/
structure Naming where
  /-- How often each counted name has been used. -/
  counts : List (String × Nat)
  /-- The names that places have of their own. -/
  own : List String

namespace Naming

/-- Nothing named. -/
def empty : Naming := ⟨[], []⟩

/-- The next number of a counted name, from 1, and the naming after it. -/
def next (n : Naming) (name : String) : Nat × Naming :=
  match n.counts.lookup name with
  | some k => (k + 1, { n with counts := (name, k + 1) :: n.counts.filter (fun e => e.1 != name) })
  | none => (1, { n with counts := (name, 1) :: n.counts })

end Naming

/-- The name of the bind that stands at a slot, and the naming after it. -/
def Slot.bindName (s : Slot) (n : Naming) : String × Naming :=
  if s.counted then
    let base := countedName s.name
    let (k, n) := n.next base
    (base ++ "_" ++ toString k, n)
  else (s.name, { n with own := s.name :: n.own })

/-- The name that a slot's placeholder has, and the naming after it; a counted name may
not be one that another place has of its own. -/
def Slot.placeholder (s : Slot) (n : Naming) : Except Error (String × Naming) :=
  let (name, after) := s.bindName n
  if s.counted && n.own.contains name then .error (.placeholderTaken name)
  else .ok (placeholderName name, after)

/-! ### Pieces with their names -/

/-- A value handed to the driver, with its name and type. -/
structure Parameter where
  name : String
  type : SqlType
  value : Value

/-- A part of a statement whose names are written and whose places are named. -/
inductive Placed where
  | text (s : String)
  | value (p : Parameter)
  | members (name : String) (type : SqlType) (use : ListUse) (vs : List Value)
  /-- A single placeholder at which all members of a list are handed over. -/
  | spread (name : String) (type : SqlType) (vs : List Value)
  | missing (name : String)

/-- The parts of a list of pieces, named from left to right. -/
def place (d : Dialect) (n : Naming) : List Piece → Except Error (List Placed)
  | [] => .ok []
  | .text s :: ps => (place d n ps).map (.text s :: ·)
  | .name s :: ps =>
    match writeName d s with
    | .error e => .error e
    | .ok s => (place d n ps).map (.text s :: ·)
  | .value slot v :: ps =>
    match slot.placeholder n with
    | .error e => .error e
    | .ok (name, n) => (place d n ps).map (.value ⟨name, slot.type, v⟩ :: ·)
  | .members slot use vs :: ps =>
    match slot.placeholder n with
    | .error e => .error e
    | .ok (name, n) => (place d n ps).map (.members name slot.type use vs :: ·)
  | .missing slot :: ps => (place d n ps).map (.missing slot.name :: ·)

/-- The name of a part that is a place. -/
def Placed.name? : Placed → Option String
  | .text _ | .missing _ => none
  | .value p => some p.name
  | .members name _ _ _ | .spread name _ _ => some name

/-- The first bind without a value, if any. -/
def firstMissing : List Placed → Option String
  | [] => none
  | .missing name :: _ => some name
  | _ :: ps => firstMissing ps

/-! ### Lists of values -/

/-- Whether the members of a list are themselves written as groups. -/
def isGrouped (type : SqlType) : List Value → Bool
  | .list _ :: _ | .tuple _ :: _ => type = .unknown
  | _ => false

/-- What stands between the parentheses of a list without members. -/
def emptyList (d : Dialect) (use : ListUse) : Except ParameterError String :=
  match d, use with
  | .sqlite, _ => .ok "SELECT 1 FROM (SELECT 1) WHERE 1!=1"
  | _, .member => .ok "NULL) AND (1 != 1"
  | _, .notMember => .ok "NULL) OR (1 = 1"
  | .postgresql, .bare => .ok "SELECT CAST(NULL AS INTEGER) WHERE 1!=1"
  | .mysql, .bare | .mariadb, .bare =>
    .ok "SELECT _in_0 FROM (SELECT 1 AS _in_0) as _empty_set WHERE 1!=1"
  | .generic _, .bare => .error (.noEmptySet d.name)

/-- The members of a list as they are written. -/
inductive Members where
  | single (vs : List Value)
  | groups (gs : List (List Value))

/-- The members of a group. -/
def groupMembers (v : Value) : Except ParameterError (List Value) :=
  match v.members? with
  | some vs => .ok vs
  | none => .error (.notIterable v.kind)

namespace Members

/-- The members of a list of a type. -/
def ofList (type : SqlType) (vs : List Value) : Except ParameterError Members :=
  if isGrouped type vs then (collect groupMembers vs).map .groups else .ok (.single vs)

/-- The values of all members in order. -/
def values : Members → List Value
  | single vs => vs
  | groups gs => gs.flatten

/-- A name with the numbers from 1 to `count` behind it. -/
def numbered (name : String) (count : Nat) : List String :=
  (List.range count).map (fun i => name ++ "_" ++ toString (i + 1))

/-- The names of the members of groups, the first of which has the number `i`. -/
def groupNames (name : String) : Nat → List (List Value) → List String
  | _, [] => []
  | i, g :: gs => numbered (name ++ "_" ++ toString i) g.length ++ groupNames name (i + 1) gs

/-- The names of all members in order. -/
def names (name : String) : Members → List String
  | single vs => numbered name vs.length
  | groups gs => groupNames name 1 gs

end Members

/-- The placeholder that a dialect writes for a name. -/
def mark (d : Dialect) (name : String) : String :=
  match d with
  | .generic true => ":" ++ name
  | _ => "?"

/-- Placeholders with commas between them. -/
def markList (d : Dialect) (names : List String) : String := ", ".intercalate (names.map (mark d))

/-- The texts of groups, the first of which has the number `i` from zero.  A group takes
its names from the place that it would have if all groups were as long as itself. -/
def groupTexts (d : Dialect) (names : List String) :
    Nat → List (List Value) → Except ParameterError (List String)
  | _, [] => .ok []
  | i, g :: gs =>
    let own := (names.drop (i * g.length)).take g.length
    if own.length = g.length then
      (groupTexts d names (i + 1) gs).map (("(" ++ markList d own ++ ")") :: ·)
    else .error .outOfNames

/-- What stands between the parentheses of a list with members of given names. -/
def Members.text (d : Dialect) (names : List String) : Members → Except ParameterError String
  | .single _ => .ok (markList d names)
  | .groups gs =>
    (groupTexts d names 0 gs).map (fun ts =>
      (if d = .sqlite then "VALUES " else "") ++ ", ".intercalate ts)

/-- A name that is not taken: itself, or else with a number behind it. -/
def freshName (taken : List String) (name : String) : String :=
  if taken.contains name then
    let others := (List.range taken.length).map (fun i => name ++ "__" ++ toString (i + 1))
    (others.find? (fun n => !taken.contains n)).getD name
  else name

/-! ### From parts to text -/

/-- A statement or a stretch of one as a driver receives it. -/
structure Rendered where
  sql : String
  parameters : List Parameter

/-- Stretches one after another. -/
def Rendered.concat (rs : List Rendered) : Rendered :=
  ⟨String.join (rs.map (·.sql)), rs.flatMap (·.parameters)⟩

/-- The members of a list with their names. -/
def Members.rendered (d : Dialect) (type : SqlType) (names : List String) (m : Members) :
    Except ParameterError Rendered :=
  (m.text d names).map (fun s =>
    ⟨s, (names.zip m.values).map (fun e => ⟨e.1, type, e.2⟩)⟩)

/-- What stands between the parentheses of a list, its members named after it by names
that are not taken. -/
def listStretch (d : Dialect) (taken : List String) (name : String) (type : SqlType)
    (use : ListUse) : List Value → Except ParameterError Rendered
  | [] => (emptyList d use).map (⟨·, []⟩)
  | vs =>
    match Members.ofList type vs with
    | .error e => .error e
    | .ok m => m.rendered d type ((m.names name).map (freshName taken))

/-- The stretches of parts.  `taken` are the names of all places; `written` holds the lists
written so far by their names: one of a name that stands there is written the same again. -/
def stretches (d : Dialect) (taken : List String) (written : List (String × Rendered)) :
    List Placed → Except ParameterError (List Rendered)
  | [] => .ok []
  | .text s :: ps => (stretches d taken written ps).map (⟨s, []⟩ :: ·)
  | .value p :: ps => (stretches d taken written ps).map (⟨mark d p.name, [p]⟩ :: ·)
  | .missing name :: _ => .error (.missingValue name)
  | .spread name type vs :: ps =>
    match Members.ofList type vs with
    | .error e => .error e
    | .ok m =>
      (stretches d taken written ps).map
        (⟨mark d name, m.values.map (fun v => ⟨name, type, v⟩)⟩ :: ·)
  | .members name type use vs :: ps =>
    match written.lookup name with
    | some r => (stretches d taken written ps).map (r :: ·)
    | none =>
      let used := taken ++ written.flatMap (fun w => w.2.parameters.map (·.name))
      match listStretch d used name type use vs with
      | .error e => .error e
      | .ok r => (stretches d taken ((name, r) :: written) ps).map (r :: ·)

/-- Parts with a placeholder for each value. -/
def expand (d : Dialect) (ps : List Placed) : Except ParameterError Rendered :=
  match firstMissing ps with
  | some name => .error (.missingValue name)
  | none => (stretches d (ps.filterMap Placed.name?) [] ps).map Rendered.concat

/-! ### Which bind a place reads

The text has names as they are written, so the bind of a place is found by its written name,
and where names are written alike it may be the bind of another place.  A driver that knows
placeholders by position is given values in the order of their places, and a bind whose name was
changed to be written is read wherever the same name stands.  A driver that knows them by name is
given one value for each written name, and of binds that are written alike that is the last. -/

section Reading

variable {α : Type} (name? : α → Option String)

/-- Whether a name is changed when it is written. -/
def isEscaped (x : α) : Bool := (name? x).any (fun name => placeholderName name != name)

/-- The name as written. -/
def writtenName? (x : α) : Option String := (name? x).map placeholderName

/-- What is read in the place of `x`, which is one of `xs`, by position. -/
def readFor (xs : List α) (x : α) : α :=
  if isEscaped name? x then x
  else
    (xs.find? (fun y => isEscaped name? y && writtenName? name? y == writtenName? name? x)).getD x

/-- What is read in the place of `x`, which is one of `xs`, by name. -/
def readLast (xs : List α) (x : α) : α :=
  match xs.reverse.find? (fun y => writtenName? name? y == writtenName? name? x) with
  | some y => if name? y = name? x then x else y
  | none => x

/-- Whether two names that are changed when they are written come out the same. -/
def areMerged (xs : List α) : Bool :=
  let escaped := xs.filter (isEscaped name?)
  escaped.any (fun x => escaped.any (fun y =>
    writtenName? name? x == writtenName? name? y && name? x != name? y))

end Reading

/-- The names of the binds that stand in pieces, one for each piece that is a place. -/
def bindNames (n : Naming) : List Piece → List (Option String)
  | [] => []
  | .value slot _ :: ps | .members slot _ _ :: ps =>
    let (name, n) := slot.bindName n
    some name :: bindNames n ps
  | .text _ :: ps | .name _ :: ps | .missing _ :: ps => none :: bindNames n ps

/-- A part with the name of the bind that stands at it. -/
abbrev NamedPart := Option String × Placed

/-- A part that reads another's bind.  A list is not written where its place has no list to
read. -/
def Placed.reading : Placed → Placed → Placed
  | .value p, .members _ type _ vs => .spread p.name type vs
  | .members _ _ _ _, .value _ => .text ""
  | _, read => read

/-- The name of a list whose place has no list to read. -/
def Placed.unlisted? : Placed → Placed → Option String
  | .members name _ _ _, .value _ => some name
  | _, _ => none

/-- The name of the bind of a single value. -/
def NamedPart.valueName? : NamedPart → Option String
  | (name, .value _) => name
  | _ => none

/-- The parts of a statement with what they read.  By name only single values are read: the
members of a list have names of their own. -/
def served (d : Dialect) (xs : List NamedPart) : List Placed :=
  if d.isPositional then xs.map (fun x => x.2.reading (readFor Prod.fst xs x).2)
  else xs.map (fun x => (readLast NamedPart.valueName? xs x).2)

/-- The first list whose place has no list to read. -/
def unlisted? (d : Dialect) (xs : List NamedPart) : Option String :=
  if d.isPositional then xs.findSome? (fun x => x.2.unlisted? (readFor Prod.fst xs x).2) else none

/-! ### Statements -/

/-- How it is reported that the binds of a statement cannot be handed over. -/
structure Reporting where
  parameter : ParameterError → Error
  unlisted : String → Error

/-- Parts of a statement with a placeholder for each value. -/
def renderParts (report : Reporting) (d : Dialect) (xs : List NamedPart) : Except Error Rendered :=
  if d.isPositional ∧ areMerged Prod.fst xs then .error .mergedNames
  else
    match expand d (served d xs) with
    | .error e => .error (report.parameter e)
    | .ok r =>
      match unlisted? d xs with
      | some name => .error (report.unlisted name)
      | none => .ok r

/-- A statement with a placeholder for each value, after `n` has been named. -/
def renderAfter (report : Reporting) (d : Dialect) (n : Naming) (ps : List Piece) :
    Except Error Rendered :=
  match place d n ps with
  | .error e => .error e
  | .ok xs => renderParts report d ((bindNames n ps).zip xs)

/-- A statement with a placeholder for each value. -/
def render (d : Dialect) (ps : List Piece) : Except Error Rendered :=
  renderAfter ⟨.parameter, .unknownKey⟩ d .empty ps

end Sql

end TableQuery
