/-
Settings from the environment, after the nearest file of settings has been loaded.

A file never replaces a variable that is there already; within it later lines win.
-/
import TableQuery.Settings.Config
import TableQuery.Settings.EnvFile

namespace TableQuery

/-- The variables of a process by name. -/
abbrev Environment := List (String × String)

namespace Environment

/-- An environment with a variable set. -/
def set (env : Environment) (name value : String) : Environment :=
  env.filter (fun e => e.1 != name) ++ [(name, value)]

/-- The value of a key set: in its place when it is there, else at the end. -/
def setKey (key : String) (value : Option String) :
    List (String × Option String) → List (String × Option String)
  | [] => [(key, value)]
  | e :: es => if e.1 = key then (key, value) :: es else e :: setKey key value es

/-- The values of a file's keys, one after another, each with the variables in it
replaced: those of the environment come before those of earlier lines. -/
def resolve (env : Environment) : List (String × Option String) →
    List (String × Option (List Char)) → List (String × Option String)
  | known, [] => known
  | known, (key, value) :: rest =>
    let lookup (name : String) : Option (Option String) :=
      match env.lookup name with
      | some v => some (some v)
      | none => known.lookup name
    resolve env (setKey key (value.map (EnvFile.expand lookup)) known) rest

/-- Whether a text holds the null character. -/
def holdsNull (s : String) : Bool := s.toList.contains '\x00'

/-- An environment with a variable set that may be one: without a null character, and
without an equals sign in its name. -/
def setChecked (env : Environment) (name value : String) : Except Error Environment :=
  if holdsNull name || holdsNull value then .error .nullCharacter
  else if name.toList.contains '=' then .error .illegalVariableName
  else .ok (env.set name value)

/-- The environment with those variables set that have a value and are not there. -/
def addMissing (env : Environment) : List (String × Option String) → Except Error Environment
  | [] => .ok env
  | (name, some value) :: rest =>
    if (env.lookup name).isSome then addMissing env rest
    else
      match env.setChecked name value with
      | .ok env => addMissing env rest
      | .error e => .error e
  | (_, none) :: rest => addMissing env rest

/-- The environment after a file has been loaded. -/
def load (env : Environment) (file : String) : Except Error Environment :=
  env.addMissing (resolve env [] (EnvFile.bindings file))

/-- The variable that keeps files from being loaded. -/
def disablingVariable : String := "PYTHON_DOTENV_DISABLED"

/-- The words by which that variable does so. -/
def disablingWords : List String := ["1", "true", "t", "yes", "y"]

/-- A letter without its case; the long s is an s. -/
def foldCase (c : Char) : Char := if c = 'ſ' then 's' else c.toLower

/-- Whether files of settings are loaded. -/
def loadsFiles (env : Environment) : Bool :=
  match env.lookup disablingVariable with
  | some v => !disablingWords.contains (String.ofList (v.toList.map foldCase))
  | none => true

/-! ### The nearest file -/

/-- The names of a path, with `.` left out and `..` taking the one before back. -/
def pathNames (path : String) : List String :=
  ((Url.splitOn '/' path.toList).map String.ofList).foldl (fun names n =>
    if n = "" || n = "." then names
    else if n = ".." then names.dropLast
    else names ++ [n]) []

/-- The file of settings in a directory; of several texts for one path the last counts. -/
def fileIn (files : List (String × String)) (directory : List String) : Option String :=
  (files.reverse.find? (fun f => pathNames f.1 == directory ++ [".env"])).map Prod.snd

/-- The file of settings in a directory or the nearest one above it, at most `depth` levels up. -/
def nearestWithin (files : List (String × String)) : Nat → List String → Option String
  | 0, directory => fileIn files directory
  | depth + 1, directory =>
    match fileIn files directory with
    | some text => some text
    | none => nearestWithin files depth directory.dropLast

/-- The file of settings nearest to a working directory. -/
def nearestFile (files : List (String × String)) (directory : String) : Option String :=
  let names := pathNames directory
  nearestWithin files names.length names

/-- The environment after the nearest file of settings has been loaded, unless files
are not loaded. -/
def loadNearest (env : Environment) (files : List (String × String)) (directory : String) :
    Except Error Environment :=
  if env.loadsFiles then
    match nearestFile files directory with
    | some text => env.load text
    | none => .ok env
  else .ok env

/-! ### Settings -/

/-- The settings that the environment may give, each with the end of its variable's name. -/
def settingVariables : List (String × String) :=
  [("host", "HOST"), ("port", "PORT"), ("user", "USER"), ("password", "PASSWORD"),
    ("db_name", "NAME"), ("driver", "DRIVER"), ("echo", "ECHO")]

/-- The settings of an environment whose variables start with `start`; a URL that is
not empty is taken from a variable of its own. -/
def config (env : Environment) (start : String) : Except Error Config :=
  let given := settingVariables.filterMap (fun s =>
    (env.lookup (start ++ s.2)).map (fun v => (s.1, Value.text v)))
  let url := match (env.lookup "DATABASE_URL").bind Config.nonempty? with
    | some u => [("database_url", Value.text u)]
    | none => []
  Config.ofValues (Row.ofList (given ++ url))

end Environment

end TableQuery
