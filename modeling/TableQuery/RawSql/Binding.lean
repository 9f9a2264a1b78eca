/-
Binding the arguments of a raw statement.

Placeholders outside literals, quoted names and comments are numbered from left to
right and become the binds `:p0`, `:p1` and so on; every other colon is escaped, so
that it reaches the driver as it is.  A single map as argument binds names instead: the
placeholders are left alone, and only the colons that are shielded are escaped.

A list, tuple or set is bound member by member, between parentheses.
-/
import TableQuery.RawSql.Segment
import TableQuery.RawSql.Template
import TableQuery.Sql.Piece

namespace TableQuery

namespace RawSql

/-- A bind of a statement, and the value given for it. -/
structure Bind where
  name : String
  /-- None when no value was given. -/
  value : Option Value
  /-- Whether the value is a list that is bound member by member. -/
  expanding : Bool

/-- A statement with the binds that its text defines. -/
structure Bound where
  text : List Char
  defined : List Bind

/-- The binds that have a place in the text. -/
def Bound.binds (b : Bound) : List Bind :=
  b.defined.filter (fun x => (bindNames (writtenParts b.text)).contains x.name)

/-- Characters with every colon escaped. -/
def escapeColons (cs : List Char) : List Char :=
  cs.flatMap (fun c => if c = ':' then ['\\', ':'] else [c])

/-- The name of the placeholder of a number. -/
def positionName (i : Nat) : String := "p" ++ toString i

/-- The template of segments whose first placeholder has the number `i`. -/
def positionalTemplate : Nat → List Segment → List Char
  | _, [] => []
  | i, .placeholder _ :: ss => ':' :: (positionName i).toList ++ positionalTemplate (i + 1) ss
  | i, .ordinary c :: ss => c :: positionalTemplate i ss
  | i, s :: ss => escapeColons s.chars ++ positionalTemplate i ss

/-- The template of segments whose names are bound. -/
def namedTemplate : List Segment → List Char
  | [] => []
  | .shielded cs :: ss => escapeColons cs ++ namedTemplate ss
  | s :: ss => s.chars ++ namedTemplate ss

/-- How many placeholders there are. -/
def placeholderCount (ss : List Segment) : Nat :=
  ss.countP (fun s => match s with | .placeholder _ => true | _ => false)

/-- The bind of a name to a value. -/
def bindOf (name : String) : Value → Bind
  | .list vs | .tuple vs | .set vs => ⟨name, some (.list vs), true⟩
  | v => ⟨name, some v, false⟩

/-- The name that a key of a map binds; an empty one, or any other that counts as false, has
the name of any parameter. -/
def keyName? : Value → Option String
  | .text s => some (if s = "" then "param" else s)
  | v => if v.truthy then none else some "param"

/-- The binds of a template with one of them given its value; the template has to have
that name. -/
def give (binds : List Bind) (key : Value) (v : Value) : Except Error (List Bind) :=
  match keyName? key with
  | some name =>
    if binds.any (fun b => b.name == name) then
      .ok (binds.map (fun b => if b.name == name then bindOf name v else b))
    else .error (.unknownBind (.text name))
  | none => .error (.unknownBind key)

/-- The binds of a template with values given one after another. -/
def giveAll : List Bind → List (Value × Value) → Except Error (List Bind)
  | binds, [] => .ok binds
  | binds, (key, v) :: rest =>
    match give binds key v with
    | .error e => .error e
    | .ok binds => giveAll binds rest

/-- The binds of a template without values. -/
def openBinds (template : List Char) : List Bind :=
  (bindNames (parts template)).map (fun n => ⟨n, none, false⟩)

/-- A template with values given for its binds. -/
def bindTemplate (template : List Char) (given : List (Value × Value)) : Except Error Bound :=
  (giveAll (openBinds template) given).map (fun binds => ⟨template, binds⟩)

/-- Arguments with the names of their placeholders. -/
def positionalArguments : Nat → List Value → List (Value × Value)
  | _, [] => []
  | i, v :: vs => (.text (positionName i), v) :: positionalArguments (i + 1) vs

/-- A raw statement with its arguments bound. -/
def bind (escapes : Bool) (sql : String) (arguments : List Value) : Except Error Bound :=
  let ss := segments escapes sql.toList
  match arguments with
  | [.map entries] => bindTemplate (namedTemplate ss) entries
  | _ =>
    if placeholderCount ss = arguments.length then
      bindTemplate (positionalTemplate 0 ss) (positionalArguments 0 arguments)
    else .error (.placeholderCount (placeholderCount ss) arguments.length)

/-- The place of a bind's values. -/
def bindSlot (name : String) (vs : List Value) : Sql.Slot :=
  ⟨name, false, SqlType.ofParameter .unknown vs⟩

/-- The pieces of a bind. -/
def Bind.pieces (b : Bind) : List Sql.Piece :=
  match b.value with
  | none => [.missing (bindSlot b.name [])]
  | some (.list vs) =>
    if b.expanding then [.text "(", .members (bindSlot b.name vs) .bare vs, .text ")"]
    else [.value (bindSlot b.name [.list vs]) (.list vs)]
  | some v => [.value (bindSlot b.name [v]) v]

/-- The pieces of a part of a template. -/
def Part.pieces (binds : List Bind) : Part → List Sql.Piece
  | .char c => [.text (String.ofList [c])]
  | .bind name =>
    match binds.find? (fun b => b.name == String.ofList name) with
    | some b => b.pieces
    | none => [.missing (bindSlot (String.ofList name) [])]

/-- The pieces of a bound statement. -/
def Bound.pieces (b : Bound) : List Sql.Piece :=
  (writtenParts b.text).flatMap (Part.pieces b.defined)

end RawSql

end TableQuery
