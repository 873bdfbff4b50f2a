import ScripCheck.Text.Quoted
import ScripCheck.Token.Basic

/-!
# Token dumps

One line for each token: its kind in a column of ten characters, its span, and its quoted text.
-/

namespace ScripCheck

/-- The text with blanks after it, up to `width` characters. -/
def padRight (width : Nat) (s : String) : String :=
  s ++ String.ofList (List.replicate (width - s.length) ' ')

/-- The line of a token, without its end. -/
def Token.row (t : Token) : String :=
  padRight 10 t.kind.label ++ " " ++ toString t.span.lo ++ ".." ++ toString t.span.hi ++ " " ++
    quoted t.text

/-- Each text on a line of its own. -/
def unlines (rows : List String) : String := String.join (rows.map (· ++ "\n"))

/-- The lines of all tokens. -/
def dumpTokens (ts : List Token) : String := unlines (ts.map Token.row)

end ScripCheck
