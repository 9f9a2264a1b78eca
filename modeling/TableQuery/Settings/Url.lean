/-
URLs of databases.

A URL names a driver and, each only if it is there, a user with a password, a host, a
port, a database and a query.  Reading takes the longest part at each step and ignores
what follows the last part it knows; only a missing driver and an unreadable port are
errors.
-/
import TableQuery.Error
import TableQuery.Text.Percent
import TableQuery.Text.Word

namespace TableQuery

/-- The parts of a URL.  A key of the query that is given repeatedly has several
values. -/
structure Url where
  driver : String
  user : Option String
  password : Option String
  host : Option String
  port : Option Int
  database : Option String
  query : List (String × List String)
  deriving DecidableEq, Repr

namespace Url

/-! ### Writing -/

/-- The user part, with the password in clear or hidden. -/
def userText (u : Url) (hidden : Bool) : String :=
  match u.user with
  | none => ""
  | some user =>
    let password := match u.password with
      | none => ""
      | some p => ":" ++ (if hidden then "***" else Percent.encodeUser p)
    Percent.encodeUser user ++ password ++ "@"

/-- The host; one that holds a colon stands in brackets. -/
def hostText (u : Url) : String :=
  match u.host with
  | none => ""
  | some h => if h.toList.contains ':' then "[" ++ h ++ "]" else h

/-- Insertion of an entry into entries in increasing order of their keys. -/
def insertKey (e : String × List String) : List (String × List String) →
    List (String × List String)
  | [] => [e]
  | f :: fs => if e.1 ≤ f.1 then e :: f :: fs else f :: insertKey e fs

/-- The entries of a query in increasing order of their keys. -/
def sortedQuery (u : Url) : List (String × List String) := u.query.foldr insertKey []

/-- The query, with the keys in increasing order. -/
def queryText (u : Url) : String :=
  if u.query.isEmpty then ""
  else "?" ++ "&".intercalate (u.sortedQuery.flatMap (fun e =>
    e.2.map (fun v => Percent.encodeQuery e.1 ++ "=" ++ Percent.encodeQuery v)))

/-- The text of a URL; a hidden password is written as three stars. -/
def render (u : Url) (hidden : Bool) : String :=
  let port := match u.port with
    | some p => ":" ++ toString p
    | none => ""
  let database := match u.database with
    | some d => "/" ++ d
    | none => ""
  u.driver ++ "://" ++ u.userText hidden ++ u.hostText ++ port ++ database ++ u.queryText

/-! ### Reading -/

/-- A list cut before the last element that passes a test. -/
def splitLast? (p : Char → Bool) (cs : List Char) : Option (List Char × List Char) :=
  let tail := (cs.reverse.takeWhile (fun c => !p c)).length
  if cs.any p then some (cs.take (cs.length - tail - 1), cs.drop (cs.length - tail - 1)) else none

/-- A text after its first part, when it starts with a mark: the characters after the
mark up to one that ends the part, and what follows. -/
def markedPart (mark : Char) (ends : Char → Bool) (cs : List Char) :
    Option (List Char) × List Char :=
  match cs with
  | c :: rest =>
    if c = mark then
      (some (rest.takeWhile (fun c => !ends c)), rest.dropWhile (fun c => !ends c))
    else (none, cs)
  | [] => (none, cs)

/-- The user and the password, and what follows them.  They end at the first `@` after
the colon of the password, or without one at the last `@` before a colon or slash. -/
def readUser (cs : List Char) : Option (List Char) × Option (List Char) × List Char :=
  let run := cs.takeWhile (fun c => c ≠ ':' && c ≠ '/')
  let rest := cs.dropWhile (fun c => c ≠ ':' && c ≠ '/')
  let byLast :=
    match splitLast? (· == '@') run with
    | some (user, tail) => (some user, none, tail.drop 1 ++ rest)
    | none => (none, none, cs)
  match rest with
  | ':' :: after =>
    match after.dropWhile (fun c => c ≠ '@') with
    | '@' :: tail => (some run, some (after.takeWhile (fun c => c ≠ '@')), tail)
    | _ => byLast
  | _ => byLast

/-- A host in brackets, and what follows it. -/
def readBracketed (cs : List Char) : Option (List Char × List Char) :=
  match cs with
  | '[' :: rest =>
    let run := rest.takeWhile (fun c => c ≠ '/' && c ≠ '?')
    match splitLast? (· == ']') run with
    | some (h :: hs, tail) => some (h :: hs, tail.drop 1 ++ rest.drop run.length)
    | _ => none
  | _ => none

/-- The host, if there is one, and what follows it. -/
def readHost (cs : List Char) : Option (List Char) × List Char :=
  match readBracketed cs with
  | some (host, rest) => (some host, rest)
  | none =>
    let ends (c : Char) := c == '/' || c == ':' || c == '?'
    match cs.takeWhile (fun c => !ends c) with
    | [] => (none, cs)
    | host => (some host, cs.dropWhile (fun c => !ends c))

/-- Pieces of a text between separators. -/
def splitOn (sep : Char) : List Char → List (List Char)
  | [] => [[]]
  | c :: cs =>
    if c = sep then [] :: splitOn sep cs
    else
      match splitOn sep cs with
      | [] => [[c]]
      | p :: ps => (c :: p) :: ps

/-- A value more for a key of a query. -/
def addQuery (entries : List (String × List String)) (key value : String) :
    List (String × List String) :=
  if entries.any (fun e => e.1 == key) then
    entries.map (fun e => if e.1 == key then (e.1, e.2 ++ [value]) else e)
  else entries ++ [(key, [value])]

/-- The entries of a query; a part without a value is left out. -/
def readQuery (cs : List Char) : List (String × List String) :=
  (splitOn '&' cs).foldl (fun entries part =>
    match part.dropWhile (fun c => c ≠ '=') with
    | _ :: v :: vs =>
      addQuery entries (Percent.decodeQuery (part.takeWhile (fun c => c ≠ '=')))
        (Percent.decodeQuery (v :: vs))
    | _ => entries) []

/-- A port. -/
def readPort (cs : List Char) : Except Error Int :=
  let s := String.ofList cs
  (integerOfText s).mapError (Error.ofIntegerFault (.text s))

/-- The parts of a text after the driver. -/
def readParts (driver : String) (cs : List Char) : Except Error Url :=
  let (user, password, cs) := readUser cs
  let (host, cs) := readHost cs
  let (port, cs) := markedPart ':' (fun c => c == '/' || c == '?') cs
  let (database, cs) := markedPart '/' (fun c => c == '?') cs
  let (query, _) := markedPart '?' (fun c => c == '\n') cs
  let url (port : Option Int) : Url :=
    ⟨driver, user.map Percent.decode, password.map Percent.decode, host.map String.ofList, port,
      database.map String.ofList, (query.map readQuery).getD []⟩
  match port with
  | none => .ok (url none)
  | some digits => (readPort digits).map (fun p => url (some p))

/-- The URL that a text stands for. -/
def parse (s : String) : Except Error Url :=
  let cs := s.toList
  let isDriverChar (c : Char) := isWord c || c == '+'
  match cs.takeWhile isDriverChar, cs.dropWhile isDriverChar with
  | [], _ => .error .invalidUrl
  | driver, ':' :: '/' :: '/' :: rest => readParts (String.ofList driver) rest
  | _, _ => .error .invalidUrl

end Url

end TableQuery
