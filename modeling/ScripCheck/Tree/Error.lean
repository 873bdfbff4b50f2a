import ScripCheck.Diagnostic.Basic

/-!
# Syntax errors

* `SyntaxError`: a cause and the span that it is about.
* `SyntaxError.message`: the text of each cause.
-/

namespace ScripCheck

/-- What stood where something else was expected. -/
inductive Found where
  | endOfInput
  | lineBreak
  | text (s : String)
deriving DecidableEq

/-- How messages name it. -/
def Found.display : Found → String
  | endOfInput => "EOF"
  | lineBreak => Kind.newline.display
  | text s => s

/-- Why a declaration was given up. -/
inductive SyntaxError.Cause where
  /-- One of some kinds of tokens was expected. -/
  | expected (kinds : List Kind) (found : Found)
  /-- A number literal that spells no number. -/
  | numeral
deriving DecidableEq

/-- A syntax error. -/
structure SyntaxError where
  cause : SyntaxError.Cause
  span : Span
deriving DecidableEq

namespace SyntaxError

/-- What the diagnostic says. -/
def message (e : SyntaxError) : String :=
  match e.cause with
  | .expected kinds found =>
    "Expected `" ++ Kind.describe kinds ++ "`, found `" ++ found.display ++ "`"
  | .numeral => "invalid numeric literal"

/-- The diagnostic of a syntax error. -/
def diagnostic (e : SyntaxError) : Diagnostic := ⟨e.message, e.span⟩

end SyntaxError

end ScripCheck
