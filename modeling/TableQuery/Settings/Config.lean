/-
Settings of a connection, and the rules by which given values are accepted.

A setting that is not given has its default.  Numbers and truth values may be given as
text; a text may be given as bytes.  Every setting that is refused is reported, in the
order of the settings.
-/
import TableQuery.Settings.Url
import TableQuery.Row
import TableQuery.Value.Printer

namespace TableQuery

/-- Settings of a connection. -/
structure Config where
  host : String
  port : Int
  user : String
  password : String
  dbName : String
  driver : String
  echo : Bool
  query : Option (List (String × String))
  databaseUrl : Option String
  deriving DecidableEq, Repr

/-! ### Accepting values -/

/-- An accepted value, or the rule that refuses it with its wording. -/
abbrev Checked (α : Type) := Except (String × String) α

namespace Checked

/-- A refusal. -/
def refuse {α : Type} (rule wording : String) : Checked α := .error (rule, wording)

/-- A text. -/
def text : Value → Checked String
  | .text s => .ok s
  | .bytes bs =>
    match Utf8.decode? bs with
    | some s => .ok s
    | none => refuse "string_unicode"
        "Input should be a valid string, unable to parse raw data as a unicode string"
  | _ => refuse "string_type" "Input should be a valid string"

/-- The text of a text or of bytes, where either may stand for another kind of value. -/
def textLike? : Value → Option (Option String)
  | .text s => some (some s)
  | .bytes bs => some (Utf8.decode? bs)
  | _ => none

/-- The refusal of a text that is no whole number. -/
def unreadableInteger {α : Type} : Checked α :=
  refuse "int_parsing" "Input should be a valid integer, unable to parse string as an integer"

/-- The refusal of a whole number that is too large. -/
def integerTooLarge {α : Type} : Checked α :=
  refuse "int_parsing_size" "Unable to parse input string as an integer, exceeded maximum size"

/-- What is left of a number after leading zeros, between which underscores may stand;
`last` is the character before.  One zero stays before a point and at the end, and a sign
may follow. -/
def afterZeros? (last : Char) : List Char → Option (List Char)
  | [] => some [last]
  | c :: cs =>
    if c = '0' || c = '_' then afterZeros? c cs
    else if c.isDigit || c = '-' then some (c :: cs)
    else if c = '.' then some (last :: c :: cs)
    else none

/-- A number without leading zeros; none when it starts as no number does. -/
def withoutLeadingZeros? : List Char → Option (List Char)
  | [] => none
  | c :: cs =>
    if c = '0' then afterZeros? c cs
    else if c.isDigit || c = '-' then some (c :: cs)
    else none

/-- A number without zeros behind a point, and without the point. -/
def withoutZeroFraction (cs : List Char) : List Char :=
  match cs.dropWhile (fun c => c ≠ '.') with
  | _ :: d :: ds => if (d :: ds).all (· == '0') then cs.takeWhile (fun c => c ≠ '.') else cs
  | _ => cs

/-- Whether two underscores stand next to each other. -/
def hasDoubleUnderscore : List Char → Bool
  | '_' :: '_' :: _ => true
  | _ :: cs => hasDoubleUnderscore cs
  | [] => false

/-- A number without its underscores, when each stands alone between other characters. -/
def withoutUnderscores (cs : List Char) : List Char :=
  if cs.head? == some '_' || cs.getLast? == some '_' || hasDoubleUnderscore cs then cs
  else cs.filter (fun c => c != '_')

/-- The number of a text of digits: no zero before other digits, and not too many of
them, whatever follows. -/
def plainDigits (cs : List Char) : Except IntegerFault Nat :=
  let run := cs.takeWhile Char.isDigit
  if run.isEmpty || (run.head? == some '0' && 1 < run.length) then .error .unreadable
  else if maxDigits < run.length then .error (.tooManyDigits run.length)
  else if run.length = cs.length then .ok (run.foldl (fun n c => 10 * n + (c.toNat - '0'.toNat)) 0)
  else .error .unreadable

/-- The number of digits with a minus sign before them or none. -/
def signedDigits : List Char → Except IntegerFault Int
  | '-' :: cs => (plainDigits cs).map (fun n => -(n : Int))
  | cs => (plainDigits cs).map (fun n => (n : Int))

/-- A text reduced to what counts of a number: white space around it, one plus sign,
leading zeros, a fraction of zeros and single underscores between its digits do not. -/
def reduced? (cs : List Char) : Option (List Char) :=
  let cs := match trimBy isWhite cs with
    | '+' :: '-' :: _ => []
    | '+' :: cs => cs
    | cs => cs
  (withoutLeadingZeros? cs).map (fun cs => withoutUnderscores (withoutZeroFraction cs))

/-- A whole number in text.  A text that has too many digits as it stands is too large;
one that has too many when reduced cannot be read. -/
def integerText (s : String) : Checked Int :=
  match signedDigits s.toList with
  | .ok n => .ok n
  | .error (.tooManyDigits _) => integerTooLarge
  | .error .unreadable =>
    match (reduced? s.toList).map signedDigits with
    | some (.ok n) => .ok n
    | _ => unreadableInteger

/-- The first whole number above those of 64 bits with a sign. -/
def wordBound : Int := Int.ofNat (Binary64.twoPow 63)

/-- Whether a whole number fits into 64 bits with a sign. -/
def fitsWord (n : Int) : Bool := decide (-wordBound ≤ n ∧ n < wordBound)

/-- Whether a floating-point number of this whole value is taken for a whole number. -/
def isSafeWhole (n : Int) : Bool := decide (-wordBound < n ∧ n < wordBound)

/-- A whole number. -/
def integer (v : Value) : Checked Int :=
  match v with
  | .int n => .ok n
  | .bool b => .ok (if b then 1 else 0)
  | .float x =>
    match x.whole?, x.truncate? with
    | some n, _ => if isSafeWhole n then .ok n else integerTooLarge
    | none, some _ => refuse "int_from_float"
        "Input should be a valid integer, got a number with a fractional part"
    | none, none => refuse "finite_number" "Input should be a finite number"
  | v =>
    match textLike? v with
    | none => refuse "int_type" "Input should be a valid integer"
    | some none => unreadableInteger
    | some (some s) => integerText s

/-- The words for true. -/
def trueWords : List String := ["1", "on", "t", "true", "y", "yes"]

/-- The words for false. -/
def falseWords : List String := ["0", "off", "f", "false", "n", "no"]

/-- A truth value. -/
def truth (v : Value) : Checked Bool :=
  let unclear : Checked Bool := refuse "bool_parsing"
    "Input should be a valid boolean, unable to interpret input"
  let noTruth : Checked Bool := refuse "bool_type" "Input should be a valid boolean"
  let ofNumber (n : Int) : Checked Bool :=
    if n = 1 then .ok true else if n = 0 then .ok false else unclear
  match v with
  | .bool b => .ok b
  | .int n => if fitsWord n then ofNumber n else noTruth
  | .float x =>
    match x.whole? with
    | some n => if isSafeWhole n then ofNumber n else noTruth
    | none => noTruth
  | v =>
    match textLike? v with
    | none => noTruth
    | some s =>
      let word := String.ofList ((s.getD "").toList.map Char.toLower)
      if trueWords.contains word then .ok true
      else if falseWords.contains word then .ok false
      else unclear

end Checked

/-! ### Accepting settings -/

/-- Accepted settings, or the problems found. -/
abbrev Problems := List SettingProblem

namespace Config

/-- The defaults. -/
def default : Config :=
  ⟨"localhost", 3306, "", "", "", "mysql+aiomysql", false, none, none⟩

/-- A setting: its default when it is not given, and the problem when it is refused. -/
def setting {α : Type} (given : Row) (name : String) (check : Value → Checked α) (absent : α) :
    α × Problems :=
  match given.get? name with
  | none => (absent, [])
  | some v =>
    match check v with
    | .ok a => (a, [])
    | .error (rule, wording) => (absent, [⟨name, rule, wording⟩])

/-- A text that may be null. -/
def optionalText : Value → Checked (Option String)
  | .null => .ok none
  | v => (Checked.text v).map some

/-- One entry of a query, with the problems of its key and its value. -/
def queryEntry (e : Value × Value) : (String × String) × Problems :=
  let (key, keyProblems) : String × Problems := match Checked.text e.1 with
    | .ok s => (s, [])
    | .error (rule, wording) => ("", [⟨"query." ++ e.1.render ++ ".[key]", rule, wording⟩])
  let place := if keyProblems.isEmpty then key else e.1.render
  let (value, valueProblems) : String × Problems := match Checked.text e.2 with
    | .ok s => (s, [])
    | .error (rule, wording) => ("", [⟨"query." ++ place, rule, wording⟩])
  ((key, value), keyProblems ++ valueProblems)

/-- The query of the settings: null, or a map of texts. -/
def querySetting (given : Row) : Option (List (String × String)) × Problems :=
  match given.get? "query" with
  | none | some .null => (none, [])
  | some (.map entries) =>
    let read := entries.map queryEntry
    (some (read.map Prod.fst), read.flatMap Prod.snd)
  | some _ => (none, [⟨"query", "dict_type", "Input should be a valid dictionary"⟩])

/-- The settings of given values; names that are no setting are ignored. -/
def ofValues (given : Row) : Except Error Config :=
  let (host, p1) := setting given "host" Checked.text default.host
  let (port, p2) := setting given "port" Checked.integer default.port
  let (user, p3) := setting given "user" Checked.text default.user
  let (password, p4) := setting given "password" Checked.text default.password
  let (dbName, p5) := setting given "db_name" Checked.text default.dbName
  let (driver, p6) := setting given "driver" Checked.text default.driver
  let (echo, p7) := setting given "echo" Checked.truth default.echo
  let (query, p8) := querySetting given
  let (databaseUrl, p9) := setting given "database_url" optionalText none
  match p1 ++ p2 ++ p3 ++ p4 ++ p5 ++ p6 ++ p7 ++ p8 ++ p9 with
  | [] => .ok ⟨host, port, user, password, dbName, driver, echo, query, databaseUrl⟩
  | problems => .error (.invalidSettings problems)

/-- The settings of a server and a database, given one by one. -/
def ofServer (host port user password dbName : Value) : Except Error Config :=
  ofValues (Row.ofList [("host", host), ("port", port), ("user", user), ("password", password),
    ("db_name", dbName)])

/-! ### Using settings -/

/-- A text, or nothing when it is empty. -/
def nonempty? (s : String) : Option String := if s = "" then none else some s

/-- The query of the connection: with none given, MySQL drivers get their character set. -/
def effectiveQuery (c : Config) : List (String × String) :=
  match c.query with
  | some q => q
  | none => if c.driver.startsWith "mysql" then [("charset", "utf8mb4")] else []

/-- The URL of the connection: the one given, unless it is empty, else one made of the
other settings. -/
def url (c : Config) : Except Error Url :=
  match c.databaseUrl.bind nonempty? with
  | some s => Url.parse s
  | none =>
    .ok ⟨c.driver, nonempty? c.user, nonempty? c.password, nonempty? c.host, some c.port,
      nonempty? c.dbName, c.effectiveQuery.map (fun e => (e.1, [e.2]))⟩

/-- The text of the settings; a password that is not empty is hidden. -/
def render (c : Config) : String :=
  let password := if c.password = "" then "SecretStr('')" else "SecretStr('**********')"
  let query := match c.query with
    | none => "None"
    | some q => (Value.map (q.map (fun e => (.text e.1, .text e.2)))).render
  let databaseUrl := match c.databaseUrl with
    | none => "None"
    | some u => quoteText u
  "DbConfig(host=" ++ quoteText c.host ++ ", port=" ++ toString c.port ++ ", user="
    ++ quoteText c.user ++ ", password=" ++ password ++ ", db_name=" ++ quoteText c.dbName
    ++ ", driver=" ++ quoteText c.driver ++ ", echo=" ++ (Value.bool c.echo).render ++ ", query="
    ++ query ++ ", database_url=" ++ databaseUrl ++ ")"

end Config

end TableQuery
