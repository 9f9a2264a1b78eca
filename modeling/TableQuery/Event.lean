/-
What the library reports beside its results, and results that carry such reports.

Leaving something out is never silent: an absent condition, a value that is no
condition, an update or a batch with nothing in it are each reported by one event.
-/
import TableQuery.Error
import TableQuery.Row

namespace TableQuery

/-- How a query links its children. -/
inductive Keyword where
  | and
  | or
  | not
  deriving DecidableEq, Repr

namespace Keyword

/-- The word of a keyword. -/
def name : Keyword → String
  | and => "AND"
  | or => "OR"
  | not => "NOT"

/-- The keyword of a word. -/
def ofName? (s : String) : Option Keyword :=
  if s = "AND" then some and
  else if s = "OR" then some or
  else if s = "NOT" then some not
  else none

end Keyword

/-- How much an event matters. -/
inductive Level where
  | debug
  | warning
  deriving DecidableEq, Repr

/-- A report. -/
inductive Event where
  /-- A query holds an absent condition. -/
  | absentDropped (within : Keyword)
  /-- A value stands where a condition should. -/
  | plainDropped (v : Value)
  | nothingToUpdate (table : String) (identity : Row)
  | emptyUpdate (table : String)
  | nothingToInsert
  | nothingToSave
  | inserting (first last total : Nat) (table : String)
  | noUpsert (dialect : String) (rows : Nat)
  | creatingEngine (dsn : String)

namespace Event

/-- The level of an event: only a value without meaning calls for a warning. -/
def level : Event → Level
  | plainDropped _ => .warning
  | _ => .debug

/-- The wording of an event. -/
def message : Event → String
  | absentDropped k => "Dropping absent condition from " ++ k.name ++ " query"
  | plainDropped v => "Dropping untranslatable condition " ++ v.render ++ " (" ++ v.kind ++ ")"
  | nothingToUpdate table identity =>
    "Nothing to update on " ++ table ++ " for " ++ identity.toValue.render
  | emptyUpdate table => "Empty updater, skipping update of " ++ table
  | nothingToInsert => "No entities to insert"
  | nothingToSave => "No entities to save"
  | inserting first last total table =>
    "Inserting rows " ++ toString first ++ "-" ++ toString last ++ " of " ++ toString total
      ++ " into " ++ table
  | noUpsert dialect rows =>
    "No native upsert for " ++ quoteText dialect ++ ", saving " ++ toString rows
      ++ " rows one by one"
  | creatingEngine dsn => "Creating engine for " ++ dsn

end Event

/-- A result with the events on the way to it. -/
structure Logged (α : Type) where
  events : List Event
  result : Except Error α

namespace Logged

variable {α β : Type}

/-- A result without events. -/
def pure (a : α) : Logged α := ⟨[], .ok a⟩

/-- A failure without events. -/
def fail (e : Error) : Logged α := ⟨[], .error e⟩

/-- A result that may be a failure, without events. -/
def ofExcept (r : Except Error α) : Logged α := ⟨[], r⟩

/-- One event. -/
def log (e : Event) : Logged Unit := ⟨[e], .ok ()⟩

/-- A continuation; the events of both parts in order, and none after a failure. -/
def bind (x : Logged α) (f : α → Logged β) : Logged β :=
  match x.result with
  | .error e => ⟨x.events, .error e⟩
  | .ok a => ⟨x.events ++ (f a).events, (f a).result⟩

instance : Monad Logged where
  pure := Logged.pure
  bind := Logged.bind

end Logged

end TableQuery
