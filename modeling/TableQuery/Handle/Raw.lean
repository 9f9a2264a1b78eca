/-
Raw statements: written out by the caller, with bound arguments.
-/
import TableQuery.Handle.Read

namespace TableQuery

namespace Handle

/-- Whether literals may hold backslash escapes. -/
def escapesLiterals (s : Session) : Bool := s.visibleDialect.any Dialect.isMysqlFamily

/-- The reply to a raw statement. -/
def runRaw (s : Session) (sql : String) (arguments : List Value) : Run Reply := do
  let b ← Run.lift (RawSql.bind (escapesLiterals s) sql arguments)
  s.execute (.raw b)

/-- The records that a raw statement yields. -/
def raw (h : Handle) (s : Session) (sql : String) (arguments : List Value) :
    Run (List Record) := do
  let reply ← runRaw s sql arguments
  Run.lift (h.records reply none readNames)

/-- Runs a raw statement; what it yields is dropped. -/
def exec (s : Session) (sql : String) (arguments : List Value) : Run Unit := do
  let _ ← runRaw s sql arguments
  return ()

end Handle

end TableQuery
