import ScripCheck.Source.Position
import ScripCheck.Source.Span
import ScripCheck.Token.Lexer

/-!
# Diagnostics

A diagnostic is a message about a span of the source text. It is shown with the first line of
that span, underlined.

* `Diagnostic.render`: five lines. The message; file, line and column; a blank gutter; the source
  line; the underline, which runs to the end of the span, or of the line if the span goes on.
-/

namespace ScripCheck

/-- A message about a part of the source text. -/
structure Diagnostic where
  message : String
  span : Span
deriving DecidableEq

/-- The diagnostic of a lexical error. -/
def LexError.diagnostic (e : LexError) : Diagnostic := ⟨e.message, e.span⟩

/-- `n` times the character `c`. -/
def repeated (c : Char) (n : Nat) : String := String.ofList (List.replicate n c)

namespace Diagnostic

/-- Where the span starts. -/
def start (d : Diagnostic) (src : List Char) : Position := .ofOffset src d.span.lo

/-- Where the span ends. -/
def stop (d : Diagnostic) (src : List Char) : Position := .ofOffset src d.span.hi

/-- The length of the underline: at least 1. -/
def underlineLength (d : Diagnostic) (src : List Char) : Nat :=
  let first := d.start src
  let last := d.stop src
  if last.line = first.line then max 1 (last.column - first.column)
  else max 1 ((lineText src first.line).length + 1 - first.column)

/-- The diagnostic as it is shown to the user. -/
def render (d : Diagnostic) (src : List Char) (filename : String) : String :=
  let first := d.start src
  let number := toString first.line
  let margin := repeated ' ' (number.length + 1)
  "error: " ++ d.message ++ "\n" ++
    margin ++ "--> " ++ filename ++ ":" ++ number ++ ":" ++ toString first.column ++ "\n" ++
    margin ++ "|\n" ++
    number ++ " | " ++ String.ofList (lineText src first.line) ++ "\n" ++
    margin ++ "| " ++ repeated ' ' (first.column - 1) ++ repeated '~' (d.underlineLength src)

end Diagnostic

/-! ## All diagnostics of one failure -/

/-- The diagnostics of one failed check of a file. -/
structure Batch where
  diagnostics : List Diagnostic
  filename : String

namespace Batch

/-- The number of diagnostics and their messages, on one line. -/
def summary (b : Batch) : String :=
  toString b.diagnostics.length ++ " error(s): " ++
    String.intercalate "; " (b.diagnostics.map (·.message))

/-- The diagnostics that a limit lets through; a limit that is not positive lets all through. -/
def shown (b : Batch) (limit : Int) : List Diagnostic :=
  if 0 < limit then b.diagnostics.take limit.toNat else b.diagnostics

/-- The diagnostics up to the limit, a blank line between two, and a last line that counts the
hidden ones. An empty `filename` stands for the batch's own. -/
def render (b : Batch) (src : List Char) (filename : String) (limit : Int) : String :=
  let filename := if filename.isEmpty then b.filename else filename
  let shown := b.shown limit
  let hidden := b.diagnostics.length - shown.length
  let tail := if hidden = 0 then [] else ["... and " ++ toString hidden ++ " more error(s)"]
  String.intercalate "\n\n" (shown.map (·.render src filename) ++ tail)

end Batch

end ScripCheck
