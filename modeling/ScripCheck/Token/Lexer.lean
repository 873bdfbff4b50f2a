import ScripCheck.Token.Basic
import ScripCheck.Token.Rule

/-!
# From text to tokens

A text is first cut into lexemes, which lose nothing (`lexemes`). What the reader of declarations
sees is a selection of them: blanks go, and so do line breaks that end no statement
(`dropLayout`). Characters that fit no rule are reported, neighbours together (`strays`).

* `lex`: the tokens of a text, or all its lexical errors.
-/

namespace ScripCheck

/-- The kind of a lexeme: some words are no plain identifiers. -/
def Kind.refine (kind : Kind) (text : String) : Kind :=
  if kind = .ident then .ofWord text else kind

/-- The text cut into lexemes, the first one at the offset `lo`. -/
def lexemes (lo : Nat) : List Char → List Token
  | [] => []
  | c :: cs =>
    let (kind, n) := longestLexeme (c :: cs)
    let text := String.ofList ((c :: cs).take n)
    ⟨kind.refine text, text, ⟨lo, (lo + n : Nat)⟩⟩ :: lexemes (lo + n) (cs.drop (n - 1))
termination_by cs => cs.length
decreasing_by rw [List.length_drop, List.length_cons]; omega

/-- The lexemes without layout. `last` is the kind of the token before them. -/
def dropLayout (last : Option Kind) : List Token → List Token
  | [] => []
  | t :: ts =>
    if t.kind = .blank ∨ t.kind = .stray then dropLayout last ts
    else if t.kind = .newline ∧ last.all Kind.absorbsNewline then dropLayout last ts
    else t :: dropLayout (some t.kind) ts

/-- A run of neighbouring characters that fit no rule. -/
structure LexError where
  text : String
  span : Span
deriving DecidableEq

namespace LexError

/-- The run continued by another one. -/
def merge (a b : LexError) : LexError := ⟨a.text ++ b.text, a.span.join b.span⟩

/-- What the diagnostic says. -/
def message (e : LexError) : String :=
  let noun := if e.text.length = 1 then "character" else "characters"
  "unexpected " ++ noun ++ " `" ++ e.text ++ "`"

end LexError

/-- The lexical errors among some lexemes: runs of strays that touch are one error. -/
def strays : List Token → List LexError
  | [] => []
  | t :: ts =>
    if t.kind = .stray then
      match strays ts with
      | [] => [⟨t.text, t.span⟩]
      | e :: es =>
        if t.span.hi = e.span.lo then LexError.merge ⟨t.text, t.span⟩ e :: es
        else ⟨t.text, t.span⟩ :: e :: es
    else strays ts

/-- The tokens of a text, or all its lexical errors. -/
def lex (src : List Char) : Except (List LexError) (List Token) :=
  let all := lexemes 0 src
  match strays all with
  | [] => .ok (dropLayout none all)
  | e :: es => .error (e :: es)

end ScripCheck
