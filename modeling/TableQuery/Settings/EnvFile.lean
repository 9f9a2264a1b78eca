/-
Files of settings: lines `KEY=VALUE`.

A line may start with `export`.  A value in single quotes knows the escapes of the
backslash and the quote, one in double quotes also those of control characters, and
either may span lines.  A value without quotes ends at a comment, which starts with a
number sign after white space; a comment right after the blanks behind the equals sign
leaves the value empty.  A line of any other form is skipped, and a key alone has no
value.  A mark of the byte order at the start of a file is no part of it.

In a value `${NAME}` stands for the value of a variable and `${NAME:-default}` names what
stands there when there is none.
-/
import TableQuery.Text.Blank

namespace TableQuery

namespace EnvFile

/-- A text without the mark of the byte order at its start. -/
def withoutMark : List Char → List Char
  | '\ufeff' :: cs => cs
  | cs => cs

/-- A text with every kind of line end as a newline. -/
def normalLines : List Char → List Char
  | [] => []
  | '\r' :: '\n' :: cs => '\n' :: normalLines cs
  | '\r' :: cs => '\n' :: normalLines cs
  | c :: cs => c :: normalLines cs

/-- White space inside a line. -/
def isLineBlank (c : Char) : Bool := isBlank c && c != '\n' && c != '\r'

/-- What follows white space inside the line. -/
def skipBlanks (cs : List Char) : List Char := cs.dropWhile isLineBlank

/-- What follows the rest of the line and its end. -/
def skipLine (cs : List Char) : List Char := (cs.dropWhile (fun c => c ≠ '\n')).drop 1

/-- What follows the word `export` and white space after it, if both are there. -/
def skipExport (cs : List Char) : List Char :=
  let word := "export".toList
  if word.isPrefixOf cs then
    let rest := cs.drop word.length
    if (skipBlanks rest).length < rest.length then skipBlanks rest else cs
  else cs

/-- A quoted value up to its closing quote, and what follows; a backslash takes the
character after it along, so that a quote there does not close. -/
def quotedValue (q : Char) : List Char → Option (List Char × List Char)
  | [] => none
  | [c] => if c = q then some ([], []) else none
  | c :: d :: cs =>
    if c = q then some ([], d :: cs)
    else if c = '\\' then (quotedValue q cs).map (fun (v, rest) => (c :: d :: v, rest))
    else (quotedValue q (d :: cs)).map (fun (v, rest) => (c :: v, rest))

/-- The character of an escape between double quotes. -/
def doubleEscape? (c : Char) : Option Char :=
  match c with
  | '\\' => some '\\'
  | '"' => some '"'
  | '\x27' => some '\x27'
  | 'a' => some '\x07'
  | 'b' => some '\x08'
  | 'f' => some '\x0c'
  | 'n' => some '\n'
  | 'r' => some '\r'
  | 't' => some '\t'
  | 'v' => some '\x0b'
  | _ => none

/-- The character of an escape between single quotes. -/
def singleEscape? (c : Char) : Option Char :=
  if c = '\\' || c = '\x27' then some c else none

/-- A value with its escapes replaced; a backslash before any other character stays. -/
def unescape (escape? : Char → Option Char) : List Char → List Char
  | '\\' :: c :: cs =>
    match escape? c with
    | some e => e :: unescape escape? cs
    | none => '\\' :: unescape escape? (c :: cs)
  | c :: cs => c :: unescape escape? cs
  | [] => []

/-- A value without quotes up to a comment. -/
def beforeComment : List Char → List Char
  | [] => []
  | c :: '#' :: cs => if isBlank c then [] else c :: beforeComment ('#' :: cs)
  | c :: cs => c :: beforeComment cs

/-- A text without white space at its end. -/
def trimEnd (cs : List Char) : List Char := (cs.reverse.dropWhile isBlank).reverse

/-- A value, and what follows it; none when a quote is not closed.  `afterBlank` says
that a blank stands before it, so that it may start with a comment. -/
def readValue (afterBlank : Bool) (cs : List Char) : Option (List Char) × List Char :=
  match cs with
  | '\x27' :: rest =>
    match quotedValue '\x27' rest with
    | some (v, rest) => (some (unescape singleEscape? v), rest)
    | none => (none, cs)
  | '"' :: rest =>
    match quotedValue '"' rest with
    | some (v, rest) => (some (unescape doubleEscape? v), rest)
    | none => (none, cs)
  | cs =>
    let line := cs.takeWhile (fun c => c ≠ '\n')
    let value := if afterBlank && line.head? == some '#' then [] else trimEnd (beforeComment line)
    (some value, cs.dropWhile (fun c => c ≠ '\n'))

/-- What follows the end of a line, before which a comment may stand; none when
something else does. -/
def lineEnd? (cs : List Char) : Option (List Char) :=
  let afterComment := match skipBlanks cs with
    | '#' :: rest => rest.dropWhile (fun c => c ≠ '\n')
    | _ => cs
  match skipBlanks afterComment with
  | [] => some []
  | '\n' :: rest => some rest
  | _ => none

/-- A key, and what follows it: between single quotes, or up to white space, a number
sign or an equals sign.  A line that starts with a number sign has none; a line that
cannot have one is no line of settings. -/
def readKey (cs : List Char) : Option (Option (List Char) × List Char) :=
  match cs with
  | '#' :: _ => some (none, cs)
  | '\x27' :: rest =>
    match rest.takeWhile (fun c => c ≠ '\x27'), rest.dropWhile (fun c => c ≠ '\x27') with
    | k :: ks, _ :: rest => some (some (k :: ks), rest)
    | _, _ => none
  | cs =>
    let isKeyChar (c : Char) := c ≠ '=' && c ≠ '#' && !isBlank c
    match cs.takeWhile isKeyChar with
    | [] => none
    | key => some (some key, cs.dropWhile isKeyChar)

/-- One line of a file: the key and value that it binds, if any. -/
structure Line where
  key : Option String
  value : Option (List Char)

/-- The line at the start of a text, and what follows it. -/
def readLine (cs : List Char) : Option Line × List Char :=
  let cs := skipExport (cs.dropWhile isBlank)
  match readKey cs with
  | none => (none, skipLine cs)
  | some (key, rest) =>
    let (value, rest) := match skipBlanks rest with
      | '=' :: rest =>
        let value := skipBlanks rest
        match readValue (value.length < rest.length) value with
        | (some v, rest) => (some (some v), rest)
        | (none, rest) => (none, rest)
      | rest => (some none, rest)
    match value, lineEnd? rest with
    | some v, some rest => (some ⟨key.map String.ofList, v⟩, rest)
    | _, _ => (none, skipLine rest)

/-- The lines of a text, at most `fuel` of them. -/
def readLines : Nat → List Char → List Line
  | 0, _ => []
  | fuel + 1, cs =>
    if (cs.dropWhile isBlank).isEmpty then []
    else
      match readLine cs with
      | (some line, rest) => line :: readLines fuel rest
      | (none, rest) => readLines fuel rest

/-- The keys of a file with their values, in order; each line takes at least one
character, so no line is missed. -/
def bindings (s : String) : List (String × Option (List Char)) :=
  let cs := normalLines (withoutMark s.toList)
  (readLines (cs.length + 1) cs).filterMap (fun l => l.key.map (fun k => (k, l.value)))

/-! ### Variables -/

/-- A part of a value. -/
inductive Atom where
  | char (c : Char)
  | variable (name : String) (default : String)

/-- The variable that a text after a dollar sign and a brace names, with the length of
what names it. -/
def reference? (cs : List Char) : Option (String × String × Nat) :=
  let name := cs.takeWhile (fun c => c ≠ '\x7d' && c ≠ ':')
  match cs.drop name.length with
  | '\x7d' :: _ => some (String.ofList name, "", name.length + 1)
  | ':' :: '-' :: rest =>
    let default := rest.takeWhile (fun c => c ≠ '\x7d')
    if default.length < rest.length then
      some (String.ofList name, String.ofList default, name.length + 2 + default.length + 1)
    else none
  | _ => none

/-- The parts of a value of which the first `skip` characters belong to the part
before. -/
def atomsFrom : Nat → List Char → List Atom
  | _, [] => []
  | skip + 1, _ :: cs => atomsFrom skip cs
  | 0, '$' :: '\x7b' :: cs =>
    match reference? cs with
    | some (name, default, length) => .variable name default :: atomsFrom (length + 1) ('\x7b' :: cs)
    | none => .char '$' :: atomsFrom 0 ('\x7b' :: cs)
  | 0, c :: cs => .char c :: atomsFrom 0 cs

/-- A value with the values of the variables in it. -/
def expand (lookup : String → Option (Option String)) (cs : List Char) : String :=
  String.join ((atomsFrom 0 cs).map (fun a =>
    match a with
    | .char c => String.ofList [c]
    | .variable name default =>
      match lookup name with
      | some v => v.getD ""
      | none => default))

end EnvFile

end TableQuery
