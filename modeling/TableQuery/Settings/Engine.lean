/-
Engines: a URL with the dialect of its driver, and whether statements are echoed.

Only asynchronous drivers can be used.
-/
import TableQuery.Event
import TableQuery.Settings.Config

namespace TableQuery

/-- What an engine is asked for beside its URL. -/
structure EngineOptions where
  echo : Option Value
  prePing : Option Value

/-- An engine. -/
structure Engine where
  url : Url
  dialect : String
  /-- Whether statements are echoed; none when nothing was said about it. -/
  echo : Option Value
  /-- Whether a connection is tried before it is used. -/
  prePing : Value

namespace Engine

/-- The dialect and the driver of an engine: their names, with a plus or a point between
the two. -/
def driverName (driver : String) : String :=
  String.ofList (driver.toList.map (fun c => if c == '+' then '.' else c))

/-- The dialect of a URL, whose driver has to be asynchronous.  The dialect that works
on files has no server. -/
def dialectOf (u : Url) : Except Error String :=
  let name := driverName u.driver
  let nonempty (s : Option String) := s.any (fun s => s != "")
  let server := nonempty u.user || nonempty u.host || nonempty u.password || u.port.any (· != 0)
  if name = "mysql.aiomysql" then .ok "mysql"
  else if name = "sqlite.aiosqlite" || name = "sqlite.pysqlite" || name = "sqlite" then
    if server then .error (.serverForFile (u.render true))
    else if name = "sqlite.aiosqlite" then .ok "sqlite"
    else .error .notAsync
  else if 1 < (name.toList.filter (· == '.')).length then .error .driverParts
  else .error (.unknownDialect name)

/-- The keys of a query by which an engine is told of plugins. -/
def pluginKeys : List String := ["plugin", "plugins"]

/-- The engine of a URL.  There are no plugins, so none can be asked for. -/
def ofUrl (u : Url) (o : EngineOptions) : Except Error Engine :=
  match u.query.lookup "plugin" with
  | some (name :: _) => .error (.unknownPlugin name)
  | _ =>
    let u := { u with query := u.query.filter (fun e => !pluginKeys.contains e.1) }
    (dialectOf u).map (fun dialect => ⟨u, dialect, o.echo, o.prePing.getD (.bool true)⟩)

/-- The engine of settings; what the options leave open is taken from them. -/
def ofConfig (c : Config) (o : EngineOptions) : Logged Engine := do
  let url ← Logged.ofExcept c.url
  Logged.log (.creatingEngine (url.render true))
  Logged.ofExcept (ofUrl url { o with echo := some (o.echo.getD (.bool c.echo)) })

end Engine

end TableQuery
