import ScripCheck.Token.Kind
import ScripCheck.Token.Pattern

/-!
# Lexical rules

The table of rules, and the choice among them: the longest match wins, and of equally long ones
the earlier rule.

* `rules`: the table. Its last rule accepts any one character, so a nonempty text always matches.
* `longestLexeme`: the kind and the length of the lexeme at the front of a text.
-/

namespace ScripCheck

/-- A kind of lexeme and its shape. -/
structure Rule where
  kind : Kind
  pattern : Pattern

/-- Letters, digits and signs are those of ASCII. -/
def isWordStart (c : Char) : Bool := c.isAlpha || c == '_'

/-- The optional sign and the digits of a number. -/
def signedDigits : Pattern :=
  .seq (.optional (.one fun c => c == '+' || c == '-')) (.plus (.one Char.isDigit))

/-- The rules, in order. -/
def rules : List Rule :=
  [⟨.blank, .plus (.one fun c => c == ' ' || c == '\t')⟩,
    ⟨.newline, .one fun c => c == '\n' || c == '\r'⟩,
    ⟨.ident, .seq (.one isWordStart) (.many (.one fun c => isWordStart c || c.isDigit))⟩,
    ⟨.intLit, signedDigits⟩,
    ⟨.floatLit, .seq signedDigits (.seq (.exactly ".") (.plus (.one Char.isDigit)))⟩,
    ⟨.strLit, .seq (.exactly "\"") (.seq (.many (.one (· != '"'))) (.exactly "\""))⟩,
    ⟨.equals, .exactly "="⟩,
    ⟨.addEquals, .exactly "+="⟩,
    ⟨.subEquals, .exactly "-="⟩,
    ⟨.mulEquals, .exactly "*="⟩,
    ⟨.divEquals, .exactly "/="⟩,
    ⟨.plus, .exactly "+"⟩,
    ⟨.minus, .exactly "-"⟩,
    ⟨.star, .exactly "*"⟩,
    ⟨.slash, .exactly "/"⟩,
    ⟨.dot, .exactly "."⟩,
    ⟨.comma, .exactly ","⟩,
    ⟨.lparen, .exactly "("⟩,
    ⟨.rparen, .exactly ")"⟩,
    ⟨.lbrace, .exactly "\x7b"⟩,
    ⟨.rbrace, .exactly "\x7d"⟩,
    ⟨.stray, .one fun _ => true⟩]

/-- The better of a match found so far and the match of one more rule. -/
def Rule.improve (cs : List Char) (best : Kind × Nat) (r : Rule) : Kind × Nat :=
  match r.pattern.longest? cs with
  | some n => if best.2 < n then (r.kind, n) else best
  | none => best

/-- The kind and the length of the lexeme at the front of a text. -/
def longestLexeme (cs : List Char) : Kind × Nat := rules.foldl (Rule.improve cs) (.stray, 0)

end ScripCheck
