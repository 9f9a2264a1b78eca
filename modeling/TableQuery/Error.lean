/-
What can go wrong, as causes.

Each cause has one wording.  The causes of `ParameterError` arise when the values of
a statement are prepared for the driver; there they come wrapped, with the cause's own
class before the wording.
-/
import TableQuery.Sql.Type
import TableQuery.Text.Integer
import TableQuery.Value.Printer

namespace TableQuery

/-- Why the values of a statement cannot be handed to the driver. -/
inductive ParameterError where
  /-- A bind was never given a value. -/
  | missingValue (name : String)
  /-- A later row of several lacks a column that the first one has. -/
  | missingInRow (name : String) (row : Nat)
  /-- The dialect has no form for a list without members. -/
  | noEmptySet (dialect : String)
  /-- A member of a list of groups is no group. -/
  | notIterable (kind : String)
  /-- A whole number other than 0 and 1 for a Boolean parameter. -/
  | notTruthValue (v : Value)
  /-- Another value for a Boolean parameter. -/
  | notBoolean (v : Value)
  /-- A value for a Boolean parameter that cannot be looked up. -/
  | unhashable (kind : String)
  /-- A group of a list is longer than the names that are left for it. -/
  | outOfNames
  /-- A text or bytes for a real parameter that stand for no number. -/
  | unreadableReal (v : Value)
  /-- A value of another kind for a real parameter. -/
  | notReal (kind : String)
  | realOverflow
  /-- A text for a binary parameter. -/
  | textAsBytes
  /-- A value of another kind for a binary parameter. -/
  | notBytes (kind : String)
  | negativeLength
  | lengthOverflow
  /-- A member of a list of bytes that is no whole number. -/
  | notByte (kind : String)
  /-- A member of a list of bytes that is no byte. -/
  | byteRange

namespace ParameterError

/-- The wording of a cause. -/
def message : ParameterError → String
  | missingValue name => "A value is required for bind parameter " ++ quoteText name
  | missingInRow name row =>
    "A value is required for bind parameter " ++ quoteText name ++ ", in parameter group "
      ++ toString row
  | noEmptySet dialect => "Dialect '" ++ dialect ++ "' does not support empty set expression."
  | notIterable kind => "'" ++ kind ++ "' object is not iterable"
  | notTruthValue v => "Value " ++ v.render ++ " is not None, True, or False"
  | notBoolean v => "Not a boolean value: " ++ v.render
  | unhashable kind => "unhashable type: '" ++ kind ++ "'"
  | outOfNames => "list index out of range"
  | unreadableReal v => "could not convert string to float: " ++ v.render
  | notReal kind => "float() argument must be a string or a real number, not '" ++ kind ++ "'"
  | realOverflow => "int too large to convert to float"
  | textAsBytes => "string argument without an encoding"
  | notBytes kind => "cannot convert '" ++ kind ++ "' object to bytes"
  | negativeLength => "negative count"
  | lengthOverflow => "cannot fit 'int' into an index-sized integer"
  | notByte kind => "'" ++ kind ++ "' object cannot be interpreted as an integer"
  | byteRange => "bytes must be in range(0, 256)"

/-- The class of a cause, as the wrapped wording names it. -/
def className : ParameterError → String
  | missingValue _ | missingInRow _ _ => "sqlalchemy.exc.InvalidRequestError"
  | noEmptySet _ => "builtins.NotImplementedError"
  | outOfNames => "builtins.IndexError"
  | notTruthValue _ | unreadableReal _ | negativeLength | byteRange => "builtins.ValueError"
  | realOverflow | lengthOverflow => "builtins.OverflowError"
  | notIterable _ | notBoolean _ | unhashable _ | notReal _ | textAsBytes | notBytes _
  | notByte _ => "builtins.TypeError"

end ParameterError

/-- One setting that was refused: where, by which rule, and in words. -/
structure SettingProblem where
  location : String
  rule : String
  wording : String
  deriving DecidableEq, Repr

/-- The first failure of a list, or all results. -/
def collect {ε α β : Type} (f : α → Except ε β) : List α → Except ε (List β)
  | [] => .ok []
  | a :: as =>
    match f a with
    | .error e => .error e
    | .ok b => (collect f as).map (b :: ·)

/-- Why an operation fails. -/
inductive Error where
  -- building queries
  | emptyColumnName
  | unknownOperator (given : Value)
  | unknownKeyword (given : Value)
  /-- A text or bytes where a collection of members is wanted. -/
  | notCollection (column operator kind : String)
  | notIterable (kind : String)
  /-- A wildcard cannot be put after a value of this kind. -/
  | cannotAppend (kind : String)
  /-- A wildcard cannot be put before a value of this kind. -/
  | cannotPrepend (kind : String)
  | unsupportedOperands (symbol left right : String)
  | unsupportedOperand (symbol kind : String)
  | unhashable (kind : String)
  | frozen (field : String)
  -- their expressions
  | comparisonArity (name : String) (operands : Nat)
  | patternArity (operands : Nat)
  | nullTestArity (operands : Nat)
  /-- An ordering or a pattern against null or a truth value. -/
  | orderedConstant
  /-- A text linked with a native expression. -/
  | textualExpression (text : String)
  /-- Anything else that is no expression, as it is shown. -/
  | notExpression (shown : String)
  -- their text
  /-- A name that has to be written and is empty. -/
  | emptyName
  /-- The name of a placeholder is that of an assigned column. -/
  | placeholderTaken (name : String)
  /-- A value that has no literal of its type. -/
  | noLiteral (v : Value) (type : SqlType)
  /-- A list of groups has no literal. -/
  | noGroupLiteral
  -- raw SQL
  | placeholderCount (found given : Nat)
  | unknownBind (name : Value)
  | parameter (cause : ParameterError)
  -- tables
  | notMapped
  | unbound
  | needsModel (table : Option String)
  | noModel
  | noTableName (model : String)
  | unknownAttribute (field model : String)
  | constructorArguments (wording : String)
  -- statements
  | everyRow (action table : String)
  | noIdentity (table : String)
  | unknownKey (name : String)
  | unknownColumns (names : List String)
  | multipleTables (statement : String)
  /-- Several rows without values for a table without columns. -/
  | noColumn
  /-- The values of a statement could not be prepared when it was run. -/
  | statement (cause : ParameterError)
  -- answers
  /-- A failure of the layer below, by its class and wording. -/
  | driver (kind message : String)
  | cancelled
  | noResultRows
  | noRow
  | manyRows
  /-- A name that stands more than once among the columns of a reply. -/
  | ambiguousColumn (name : String)
  -- numbers
  | notInteger (v : Value)
  /-- A number in text that is too long to be read. -/
  | tooManyDigits (found : Nat)
  | notNumeric (kind : String)
  | nanInteger
  | infiniteInteger
  -- settings
  | invalidSettings (problems : List SettingProblem)
  /-- A null character in a variable of the environment. -/
  | nullCharacter
  | illegalVariableName
  | invalidUrl
  | notAsync
  | unknownDialect (name : String)
  | unknownPlugin (name : String)
  /-- A driver with more than two parts. -/
  | driverParts
  /-- A server in the URL of a database that has none. -/
  | serverForFile (url : String)

namespace Error

/-- The wording of a setting's problem. -/
def problemText (p : SettingProblem) : String :=
  p.location ++ ": " ++ p.rule ++ ": " ++ p.wording

/-- Insertion of a name into an increasing list of names. -/
def insertName (name : String) : List String → List String
  | [] => [name]
  | n :: ns => if name ≤ n then name :: n :: ns else n :: insertName name ns

/-- Names in increasing order. -/
def sortNames (names : List String) : List String := names.foldr insertName []

/-- How much of a text that is no expression is shown. -/
def ellipsisLength : Nat := 25

/-- The start of a text, with dots for what is left out. -/
def ellipsis (s : String) : String :=
  if ellipsisLength < s.length then String.ofList (s.toList.take ellipsisLength) ++ "..." else s

/-- How much of a value without a literal is shown. -/
def valueLength : Nat := 300

/-- The text of a value, with what exceeds the length taken out of its middle. -/
def shortened (v : Value) : String :=
  let cs := v.render.toList
  let half := valueLength / 2
  if valueLength < cs.length then
    String.ofList (cs.take half) ++ " ... (" ++ toString (cs.length - valueLength)
      ++ " characters truncated) ... " ++ String.ofList (cs.drop (cs.length - half))
  else String.ofList cs

/-- How much of a text that is no number is shown. -/
def shownLength : Nat := 200

/-- Two names of binds are changed to one when they are written. -/
def mergedNames : Error := .driver "AssertionError" ""

/-- Why a value is no whole number. -/
def ofIntegerFault (v : Value) : IntegerFault → Error
  | .unreadable => .notInteger v
  | .tooManyDigits found => .tooManyDigits found

/-- The wording of an error. -/
def message : Error → String
  | emptyColumnName => "Column name must not be empty"
  | unknownOperator v => "Unknown condition operator: " ++ v.render
  | unknownKeyword v => "Unknown query keyword: " ++ v.render
  | notCollection column operator kind =>
    column ++ ": " ++ operator ++ " takes a collection of values, not " ++ kind
  | notIterable kind => "'" ++ kind ++ "' object is not iterable"
  | cannotAppend kind =>
    if kind == "bytes" then "can't concat str to bytes"
    else if kind == "list" || kind == "tuple" then
      "can only concatenate " ++ kind ++ " (not \"str\") to " ++ kind
    else "unsupported operand type(s) for +: '" ++ kind ++ "' and 'str'"
  | cannotPrepend kind => "can only concatenate str (not \"" ++ kind ++ "\") to str"
  | unsupportedOperands symbol left right =>
    "unsupported operand type(s) for " ++ symbol ++ ": '" ++ left ++ "' and '" ++ right ++ "'"
  | unsupportedOperand symbol kind => "bad operand type for unary " ++ symbol ++ ": '" ++ kind ++ "'"
  | unhashable kind => "unhashable type: '" ++ kind ++ "'"
  | frozen field => "cannot assign to field " ++ quoteText field
  | comparisonArity name operands =>
    name ++ " expected 2 arguments, got " ++ toString (operands + 1)
  | patternArity 0 => "<lambda>() missing 1 required positional argument: 'pattern'"
  | patternArity operands =>
    "<lambda>() takes 2 positional arguments but " ++ toString (operands + 1) ++ " were given"
  | nullTestArity operands =>
    "<lambda>() takes 1 positional argument but " ++ toString (operands + 1) ++ " were given"
  | orderedConstant =>
    "Only '=', '!=', 'is_()', 'is_not()', 'is_distinct_from()', 'is_not_distinct_from()' "
      ++ "operators can be used with None/True/False"
  | textualExpression text =>
    let shown := quoteText (ellipsis text)
    "Textual SQL expression " ++ shown ++ " should be explicitly declared as text(" ++ shown ++ ")"
  | notExpression shown => "SQL expression for WHERE/HAVING role expected, got " ++ shown ++ "."
  | emptyName => "string index out of range"
  | placeholderTaken name =>
    "Bind parameter '" ++ name ++ "' conflicts with unique bind parameter of the same name"
  | noLiteral v .unknown =>
    "No literal value renderer is available for literal value \"" ++ shortened v
      ++ "\" with datatype " ++ SqlType.unknown.name
  | noLiteral v type =>
    "Could not render literal value \"" ++ shortened v ++ "\" with datatype " ++ type.name
      ++ "; see parent stack trace for more detail."
  | noGroupLiteral => "'NullType' object has no attribute 'types'"
  | placeholderCount found given =>
    "Statement has " ++ toString found ++ " placeholder(s) but " ++ toString given
      ++ " argument(s) were given"
  | unknownBind name =>
    "This text() construct doesn't define a bound parameter named " ++ name.render
  | parameter cause => cause.message
  | notMapped => "No inspection system is available for object of type <class 'type'>"
  | unbound => "Db is bound to neither a model nor a table name"
  | needsModel table =>
    let shown := match table with
      | some t => quoteText t
      | none => "None"
    "Operation needs a model binding (table " ++ shown ++ " has no known key)"
  | noModel => "Executor(): model must not be None"
  | noTableName model => "Executor(): table name of " ++ model ++ " is empty"
  | unknownAttribute field model =>
    quoteText field ++ " is an invalid keyword argument for " ++ model
  | constructorArguments wording => wording
  | everyRow action table => "Refusing to " ++ action ++ " every row of " ++ table
  | noIdentity table => "Entity has no primary key value for " ++ table
  | unknownKey name => quoteText name
  | unknownColumns names => "Unconsumed column names: " ++ ", ".intercalate (sortNames names)
  | multipleTables word =>
    "This backend does not support multiple-table criteria within " ++ word
  | noColumn => "0"
  | statement cause => "(" ++ cause.className ++ ") " ++ cause.message
  | driver _ message => message
  | cancelled => ""
  | noResultRows =>
    "This result object does not return rows. It has been closed automatically."
  | noRow => "No row was found when one was required"
  | manyRows => "Multiple rows were found when exactly one was required"
  | ambiguousColumn name =>
    "Ambiguous column name '" ++ name ++ "' in result set column descriptions"
  | notInteger v =>
    "invalid literal for int() with base 10: " ++ String.ofList (v.render.toList.take shownLength)
  | tooManyDigits found =>
    "Exceeds the limit (" ++ toString maxDigits ++ " digits) for integer string conversion: value has "
      ++ toString found ++ " digits; use sys.set_int_max_str_digits() to increase the limit"
  | notNumeric kind =>
    "int() argument must be a string, a bytes-like object or a real number, not '" ++ kind ++ "'"
  | nanInteger => "cannot convert float NaN to integer"
  | infiniteInteger => "cannot convert float infinity to integer"
  | invalidSettings problems => "; ".intercalate (problems.map problemText)
  | nullCharacter => "embedded null byte"
  | illegalVariableName => "illegal environment variable name"
  | invalidUrl => "Could not parse SQLAlchemy URL from given URL string"
  | notAsync =>
    "The asyncio extension requires an async driver to be used. The loaded 'pysqlite' is not async."
  | unknownDialect name => "Can't load plugin: sqlalchemy.dialects:" ++ name
  | unknownPlugin name => "Can't load plugin: sqlalchemy.plugins:" ++ name
  | driverParts => "too many values to unpack (expected 2)"
  | serverForFile url =>
    "Invalid SQLite URL: " ++ url ++ "\nValid SQLite URL forms are sqlite:///:memory: or "
      ++ "sqlite:////absolute/path/to/file.db"

end Error

end TableQuery
