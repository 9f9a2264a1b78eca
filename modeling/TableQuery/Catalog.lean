/-
A small catalog of models.

Between them they have a numbered key, a composite one and none, attributes named
unlike their columns, defaults on either side, names that need quotes, and classes that
are not mapped at all.  Two models stand beside it: one with names that are written alike as
places, and one with columns that have a value of their own for updates.
-/
import TableQuery.Model

namespace TableQuery

namespace Catalog

/-- A numbered key under its own attribute. -/
def numbered (name : String) (attr : String) : MappedColumn :=
  ⟨⟨name, .integer, true, true, none, false, none⟩, attr⟩

/-- A part of a key that the row has to give. -/
def keyPart (name : String) (type : SqlType) (attr : String) : MappedColumn :=
  ⟨⟨name, type, true, false, none, false, none⟩, attr⟩

/-- A plain column. -/
def plain (name : String) (type : SqlType) (attr : String) : MappedColumn :=
  ⟨⟨name, type, false, false, none, false, none⟩, attr⟩

/-- A column that the database has a default for. -/
def served (name : String) (type : SqlType) (attr : String) : MappedColumn :=
  ⟨⟨name, type, false, false, none, true, none⟩, attr⟩

/-- A column with a default of the model. -/
def defaulted (name : String) (type : SqlType) (attr : String) (v : Value) : MappedColumn :=
  ⟨⟨name, type, false, false, some v, false, none⟩, attr⟩

/-- Users, with a default on either side. -/
def user : Model where
  name := "User"
  declaredTable := some "users"
  declaredId := none
  constructor? := none
  mapping := some {
    tableName := "users"
    columns := [numbered "id" "id", plain "email" (.string (some 128)) "email",
      plain "name" (.string (some 64)) "name", plain "age" .integer "age",
      served "status" (.string (some 16)) "status",
      defaulted "deleted" .boolean "deleted" (.bool false)] }

/-- Tasks, with a key and an attribute named unlike the usual. -/
def todo : Model where
  name := "Todo"
  declaredTable := some "todos"
  declaredId := some "todo_no"
  constructor? := none
  mapping := some {
    tableName := "todos"
    columns := [numbered "todo_no" "todo_no", plain "title_text" (.string (some 128)) "title",
      plain "owner_id" .integer "owner_id"] }

/-- Records with a constructor of their own. -/
def auditEntry : Model where
  name := "AuditEntry"
  declaredTable := some "audit_entries"
  declaredId := none
  constructor? := some ["message"]
  mapping := some {
    tableName := "audit_entries"
    columns := [numbered "id" "id", plain "message" (.string (some 128)) "message"] }

/-- A composite key. -/
def membership : Model where
  name := "Membership"
  declaredTable := some "memberships"
  declaredId := none
  constructor? := none
  mapping := some {
    tableName := "memberships"
    columns := [keyPart "group_id" .integer "group_id", keyPart "user_id" .integer "user_id",
      plain "role" (.string none) "role"] }

/-- Nothing but a key. -/
def tag : Model where
  name := "Tag"
  declaredTable := some "tags"
  declaredId := none
  constructor? := none
  mapping := some { tableName := "tags", columns := [keyPart "name" (.string none) "name"] }

/-- Names that need quotes, each under a plain attribute. -/
def order : Model where
  name := "Order"
  declaredTable := some "Order"
  declaredId := some "Code"
  constructor? := none
  mapping := some {
    tableName := "Order"
    columns := [⟨⟨"Code", .string none, true, false, some (.text "gen"), false, none⟩, "code"⟩,
      plain "select" .integer "choice", served "weird col" (.string none) "note",
      defaulted "flag" .boolean "flag" (.bool true)] }

/-- A table without a key, declared beside the class. -/
def logLine : Model where
  name := "LogLine"
  declaredTable := none
  declaredId := none
  constructor? := none
  mapping := some {
    tableName := "log_lines"
    columns := [plain "line" .integer "line", plain "text" (.string none) "text"] }

/-- An identifying column declared empty. -/
def blankId : Model where
  name := "BlankId"
  declaredTable := some "blank_ids"
  declaredId := some ""
  constructor? := none
  mapping := some { tableName := "blank_ids", columns := [numbered "id" "id"] }

/-- A class that is not mapped. -/
def noTable : Model := ⟨"NoTable", none, none, none, none⟩

/-- A class that is not mapped and declares an empty name. -/
def emptyName : Model := ⟨"EmptyName", some "", none, none, none⟩

/-- A class that is not mapped but declares a table and an identifying column. -/
def bareName : Model := ⟨"BareName", some "bare", some "key", none, none⟩

/-- The models of the catalog. -/
def models : List Model :=
  [user, todo, auditEntry, membership, tag, order, logLine, blankId, noTable, emptyName, bareName]

/-- The model of a name. -/
def model? (name : String) : Option Model := models.find? (fun m => m.name == name)

/-- Two columns whose places are written alike, and one whose place is written like that of a
condition on the key. -/
def sample : Model where
  name := "Sample"
  declaredTable := some "samples"
  declaredId := none
  constructor? := none
  mapping := some {
    tableName := "samples"
    columns := [numbered "id" "id", plain "id 1" .integer "first",
      served "temp.max" .integer "highest", plain "temp_max" .integer "limit"] }

/-- A column that every update marks, and a part of the key that every update sets. -/
def draft : Model where
  name := "Draft"
  declaredTable := some "drafts"
  declaredId := none
  constructor? := none
  mapping := some {
    tableName := "drafts"
    columns := [keyPart "id" .integer "id",
      ⟨⟨"revision", .integer, true, false, none, false, some (.int 2)⟩, "revision"⟩,
      plain "title" (.string none) "title",
      ⟨⟨"edited", .integer, false, false, none, false, some (.int 1)⟩, "edited"⟩] }

end Catalog

end TableQuery
