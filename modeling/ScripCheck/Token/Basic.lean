import ScripCheck.Source.Span
import ScripCheck.Token.Kind

/-!
# Tokens

A token is a piece of the source text with its kind and its place.
-/

namespace ScripCheck

/-- A piece of a source text. -/
structure Token where
  kind : Kind
  text : String
  span : Span
deriving DecidableEq

/-- The token moved `d` places to the right. -/
def Token.shift (d : Int) (t : Token) : Token := { t with span := t.span.shift d }

end ScripCheck
