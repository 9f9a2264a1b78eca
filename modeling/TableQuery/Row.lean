/-
Rows: the values of a record by column name, in the order the names first came.

The same shape serves a record read or written, the assignments of an update and the
identity of an entity.  Setting a name again keeps its place and replaces its value, so
no name ever stands twice; that is a field of the type.
-/
import TableQuery.Value.Basic

namespace TableQuery

/-- Values by name in order of first appearance, no name twice. -/
structure Row where
  entries : List (String × Value)
  /-- Each name has one place. -/
  names_nodup : (entries.map Prod.fst).Nodup

namespace Row

/-- The row without a name. -/
def empty : Row := ⟨[], List.nodup_nil⟩

instance : Inhabited Row := ⟨empty⟩

/-- The names of a row in order. -/
def names (r : Row) : List String := r.entries.map Prod.fst

/-- The values of a row in order. -/
def values (r : Row) : List Value := r.entries.map Prod.snd

/-- How many names a row has. -/
def size (r : Row) : Nat := r.entries.length

/-- Whether a row has no name. -/
def isEmpty (r : Row) : Bool := r.entries.isEmpty

/-- The value under a name. -/
def get? (r : Row) (name : String) : Option Value :=
  (r.entries.find? (fun e => e.1 == name)).map Prod.snd

/-- The value under a name, null when there is none. -/
def get (r : Row) (name : String) : Value := (r.get? name).getD .null

/-- Whether a row has a name. -/
def contains (r : Row) (name : String) : Bool := r.names.contains name

/-- The entries with the value under `name` replaced. -/
def replaced (name : String) (v : Value) (es : List (String × Value)) : List (String × Value) :=
  es.map (fun e => if e.1 = name then (e.1, v) else e)

/-- Replacing a value changes no name. -/
theorem names_replaced (name : String) (v : Value) (es : List (String × Value)) :
    (replaced name v es).map Prod.fst = es.map Prod.fst := by
  induction es with
  | nil => rfl
  | cons e es ih =>
    simp only [replaced, List.map_cons] at ih ⊢
    by_cases h : e.1 = name <;> simp [h, ih]

/-- Sets the value under a name: in its place when the row has it, else at the end. -/
def insert (r : Row) (name : String) (v : Value) : Row :=
  if h : name ∈ r.names then
    ⟨replaced name v r.entries, by rw [names_replaced]; exact r.names_nodup⟩
  else
    ⟨r.entries ++ [(name, v)], by
      rw [List.map_append]
      refine List.nodup_append.2 ⟨r.names_nodup, by simp, ?_⟩
      intro a ha b hb hab
      have hb' : b = name := by simpa using hb
      exact h (by rw [← hb', ← hab]; exact ha)⟩

/-- The entries whose names pass a test. -/
def filter (r : Row) (p : String → Value → Bool) : Row :=
  ⟨r.entries.filter (fun e => p e.1 e.2),
    (List.filter_sublist.map Prod.fst).nodup r.names_nodup⟩

/-- A row without a name. -/
def erase (r : Row) (name : String) : Row := r.filter (fun n _ => n != name)

/-- The values under given names, null where the row lacks one. -/
def pick (r : Row) (names : List String) (nodup : names.Nodup) : Row :=
  ⟨names.map (fun n => (n, r.get n)), by
    rw [List.map_map]
    exact (List.map_id' names).symm ▸ nodup⟩

/-- Further entries set one after another. -/
def insertAll (r : Row) (es : List (String × Value)) : Row :=
  es.foldl (fun r e => r.insert e.1 e.2) r

/-- The row of a list of entries; the last value of a name counts. -/
def ofList (es : List (String × Value)) : Row := empty.insertAll es

/-- A row as a value: a map from its names. -/
def toValue (r : Row) : Value := .map (r.entries.map (fun e => (.text e.1, e.2)))

end Row

end TableQuery
