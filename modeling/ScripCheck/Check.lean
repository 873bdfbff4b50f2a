import ScripCheck.Tree.Parser

/-!
# Checking a source text

The text is cut into tokens, and the tokens are read as a program. Only one of the two steps
reports: if there are lexical errors, the tokens are not read.

* `check`: the program, or why there is none.
* `Failure.diagnostics`: the diagnostics of either step.
-/

namespace ScripCheck

/-- Why a text is no program. -/
inductive Failure where
  | lexical (errors : List LexError)
  | syntactic (errors : List SyntaxError)
  | fault (f : Fault)

/-- All diagnostics of a failure. -/
def Failure.diagnostics : Failure → List Diagnostic
  | lexical es => es.map (·.diagnostic)
  | syntactic es => es.map (·.diagnostic)
  | fault _ => []

/-- The program that some tokens of a text spell. -/
def checkTokens (src : List Char) (tokens : List Token) : Except Failure Program :=
  match parse src tokens with
  | .error f => .error (.fault f)
  | .ok p =>
    match p.program? src with
    | .error es => .error (.syntactic es)
    | .ok program => .ok program

/-- The program that a text spells. -/
def check (src : List Char) : Except Failure Program :=
  match lex src with
  | .error es => .error (.lexical es)
  | .ok tokens => checkTokens src tokens

end ScripCheck
