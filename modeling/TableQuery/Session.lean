/-
Sessions: statements handed to a driver, and its replies.

A driver is a queue of replies, one for each statement that reaches it.  What a session
has sent and reported is kept in order, also when an operation fails half way.
-/
import TableQuery.Event
import TableQuery.Sql.Prepared

namespace TableQuery

/-- The rows of a reply. -/
structure ResultSet where
  columns : List String
  rows : List (List Value)

/-- What a driver says about a statement that it carried out. -/
structure Reply where
  /-- The rows, when the statement yields any. -/
  result : Option ResultSet
  /-- How many rows were written. -/
  rowCount : Int
  /-- The number given to a new row, null when there is none. -/
  lastRowId : Value

/-- The reply of a driver that has nothing to say. -/
def Reply.silent : Reply := ⟨none, 0, .null⟩

/-- What becomes of a statement. -/
inductive Outcome where
  | reply (r : Reply)
  | failure (kind message : String)
  /-- The caller is cancelled before the statement is looked at. -/
  | cancel

/-- A statement that reached the driver. -/
structure Sent where
  statement : Sql.Statement
  prepared : Sql.Prepared

/-- The driver's outcomes still to come, and what has happened so far. -/
structure Channel where
  outcomes : List Outcome
  sent : List Sent
  events : List Event

/-- A session: its dialect, and whether it is bound to a database at all. -/
structure Session where
  dialect : Dialect
  bound : Bool

/-- The dialect that operations see; an unbound session has none. -/
def Session.visibleDialect (s : Session) : Option Dialect := if s.bound then some s.dialect else none

/-- A computation on a channel.  A failure keeps what was sent and reported. -/
def Run (α : Type) : Type := Channel → Except Error α × Channel

namespace Run

variable {α β : Type}

/-- A result without an effect. -/
def pure (a : α) : Run α := fun c => (.ok a, c)

/-- One computation after another; nothing follows a failure. -/
def bind (x : Run α) (f : α → Run β) : Run β := fun c =>
  match x c with
  | (.ok a, c) => f a c
  | (.error e, c) => (.error e, c)

instance : Monad Run where
  pure := Run.pure
  bind := Run.bind

/-- A failure. -/
def fail (e : Error) : Run α := fun c => (.error e, c)

/-- A result that may be a failure. -/
def lift (r : Except Error α) : Run α := fun c => (r, c)

/-- A report. -/
def log (e : Event) : Run Unit := fun c => (.ok (), { c with events := c.events ++ [e] })

/-- A result with its reports. -/
def ofLogged (x : Logged α) : Run α := fun c =>
  (x.result, { c with events := c.events ++ x.events })

/-- The outcome of a prepared statement. -/
def send (s : Sql.Statement) (p : Sql.Prepared) : Run Reply := fun c =>
  let sent := c.sent ++ [⟨s, p⟩]
  match c.outcomes with
  | [] => (.ok .silent, { c with sent })
  | .reply r :: rest => (.ok r, { c with outcomes := rest, sent })
  | .failure kind message :: rest => (.error (.driver kind message), { c with outcomes := rest, sent })
  | .cancel :: rest => (.error .cancelled, { c with outcomes := rest, sent })

end Run

/-- Hands a statement to the driver.  A pending cancellation comes first, and what is
wrong with the statement itself before anything is sent. -/
def Session.execute (s : Session) (x : Sql.Statement) : Run Reply := fun c =>
  match c.outcomes with
  | .cancel :: rest => (.error .cancelled, { c with outcomes := rest })
  | _ =>
    match x.prepare s.dialect with
    | .error e => (.error e, c)
    | .ok p => Run.send x p c

/-- The rows of a reply; one without rows cannot be read. -/
def Reply.resultSet (r : Reply) : Except Error ResultSet :=
  match r.result with
  | some s => .ok s
  | none => .error .noResultRows

/-- The one value of a reply; one without rows has none. -/
def Reply.scalar (r : Reply) : Except Error Value :=
  match (r.result.map (·.rows)).getD [] with
  | [] => .error .noRow
  | [row] => .ok (row.head?.getD .null)
  | _ => .error .manyRows

end TableQuery
