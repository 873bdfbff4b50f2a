import ScripCheck.Text.Quoted

/-!
# Errors of a configuration

* `Problem`: what is wrong; `Problem.message`: its text.
* `Error`: a problem and the text that was left where it was found.
* `Error.message`: the problem and the line and column in the document.
* `Rejection`: a problem with that message.
-/

namespace ScripCheck.Toml

/-- The words of a dotted key. -/
abbrev Path := List String

/-- A path as messages show it. -/
def Path.display : Path → String
  | [k] => "(" ++ quoted k ++ ",)"
  | ks => "(" ++ String.intercalate ", " (ks.map quoted) ++ ")"

/-- What is wrong with a document. -/
inductive Problem where
  | statement
  | statementEnd
  | keyStart
  | equalsMissing
  | tableEnd
  | arrayTableEnd
  | declaredTwice (path : Path)
  | immutable (path : Path)
  | redefined (path : Path)
  | overwritten
  | duplicate (key : String)
  | arrayOpen
  | inlineOpen
  | escape
  | hex
  | notScalar
  | expected (closing : String)
  | invalidCharacter (c : Char)
  | illegalCharacter (c : Char)
  | unterminated
  | value
  | date
  /-- An integer with more digits than any number may have. This problem has no place. -/
  | digits (count limit : Nat)
deriving DecidableEq

/-- The text of a problem. -/
def Problem.message : Problem → String
  | statement => "Invalid statement"
  | statementEnd => "Expected newline or end of document after a statement"
  | keyStart => "Invalid initial character for a key part"
  | equalsMissing => "Expected '=' after a key in a key/value pair"
  | tableEnd => "Expected ']' at the end of a table declaration"
  | arrayTableEnd => "Expected ']]' at the end of an array declaration"
  | declaredTwice path => "Cannot declare " ++ path.display ++ " twice"
  | immutable path => "Cannot mutate immutable namespace " ++ path.display
  | redefined path => "Cannot redefine namespace " ++ path.display
  | overwritten => "Cannot overwrite a value"
  | duplicate key => "Duplicate inline table key " ++ quoted key
  | arrayOpen => "Unclosed array"
  | inlineOpen => "Unclosed inline table"
  | escape => "Unescaped '\\' in a string"
  | hex => "Invalid hex value"
  | notScalar => "Escaped character is not a Unicode scalar value"
  | expected closing => "Expected " ++ quoted closing
  | invalidCharacter c => "Found invalid character " ++ quoted (String.singleton c)
  | illegalCharacter c => "Illegal character " ++ quoted (String.singleton c)
  | unterminated => "Unterminated string"
  | value => "Invalid value"
  | date => "Invalid date or datetime"
  | digits count limit =>
    "Exceeds the limit (" ++ toString limit ++
      " digits) for integer string conversion: value has " ++ toString count ++
      " digits; use sys.set_int_max_str_digits() to increase the limit"

/-- A problem, found where the text `rest` was left. -/
structure Error where
  problem : Problem
  rest : List Char

/-- The place where `rest` is left of the document: a line and a column, both from 1. -/
def place (document rest : List Char) : String :=
  if rest.isEmpty then "end of document"
  else
    let before := document.take (document.length - rest.length)
    let line := before.count '\n' + 1
    let column := (before.reverse.takeWhile (· ≠ '\n')).length + 1
    "line " ++ toString line ++ ", column " ++ toString column

/-- The problem with its place in the document. -/
def Error.message (document : List Char) (e : Error) : String :=
  match e.problem with
  | .digits .. => e.problem.message
  | p => p.message ++ " (at " ++ place document e.rest ++ ")"

/-- Why a document has no table, with the text that tells where. -/
structure Rejection where
  problem : Problem
  message : String

/-- The error as the document's reader reports it. -/
def Error.rejection (document : List Char) (e : Error) : Rejection :=
  ⟨e.problem, e.message document⟩

end ScripCheck.Toml
