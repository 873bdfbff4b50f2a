import ScripCheck.Check
import ScripCheck.Command.Settings
import ScripCheck.Token.Dump
import ScripCheck.Tree.Outline

/-!
# The verdict on an input

One check of the input file: its text is read with all line breaks unified, cut into tokens and
read as a program. The dumps that the settings ask for are written on the way, each as soon as its
step has succeeded.

* `inspect`: the dumps and the verdict.
* `Verdict.text`: what the user is told.
-/

namespace ScripCheck.Command

open Files

/-- What ends a run without an exit code. -/
inductive Abort where
  | config (e : ConfigError)
  /-- The path of the input has a NUL character. -/
  | nul
  /-- The input is not valid UTF-8. -/
  | encoding (f : Utf8.Fault)
  | fault (f : Fault)
  /-- There are diagnostics, and the limit on them is blank. -/
  | blankLimit

/-- The text of an abort. -/
def Abort.message : Abort → String
  | config e => e.message
  | nul => "embedded null byte"
  | encoding f => f.message
  | fault f => f.message
  | blankLimit => "'>' not supported between instances of 'list' and 'int'"

/-- What a check of the input finds. -/
inductive Verdict where
  | passed (declarations : Nat)
  | failed (src : List Char) (diagnostics : List Diagnostic) (limit : Nat)
  | unreadable (d : Denial)
  | aborted (a : Abort)

/-- One check of the input. -/
structure Inspection where
  dumps : String
  verdict : Verdict

/-- A dump, if it is asked for. -/
def dumpIf (wanted : Bool) (text : String) : String := if wanted then text else ""

/-- The verdict on a text with diagnostics. -/
def Settings.failure (s : Settings) (src : List Char) (ds : List Diagnostic) : Verdict :=
  match s.maxErrors with
  | .count n => .failed src ds n
  | .blank => .aborted .blankLimit

/-- The check of a text. -/
def inspectText (s : Settings) (src : List Char) : Inspection :=
  match lex src with
  | .error es => ⟨"", s.failure src (es.map (·.diagnostic))⟩
  | .ok tokens =>
    let dumps := dumpIf s.tokens (dumpTokens tokens)
    match checkTokens src tokens with
    | .ok program => ⟨dumps ++ dumpIf s.debug program.dump, .passed program.declarations.length⟩
    | .error (.fault f) => ⟨dumps, .aborted (.fault f)⟩
    | .error e => ⟨dumps, s.failure src e.diagnostics⟩

/-- The check of the input file. -/
def inspect (s : Settings) (files : Snapshot) : Inspection :=
  match files.readText s.input with
  | .error .nul => ⟨"", .aborted .nul⟩
  | .error (.denied d) => ⟨"", .unreadable d⟩
  | .error (.encoding f) => ⟨"", .aborted (.encoding f)⟩
  | .ok src => inspectText s (unifyBreaks src)

/-- What the user is told about the input. -/
def Verdict.text (s : Settings) : Verdict → String
  | passed n => s.input.toString ++ ": ok (" ++ toString n ++ " declarations)\n"
  | failed src ds limit => (Batch.mk ds s.input.toString).render src "" limit ++ "\n"
  | unreadable d => "error: " ++ d.message s.input.toString ++ "\n"
  | aborted _ => ""

/-- What ends the run that was aborted. -/
def Verdict.abort? : Verdict → Option Abort
  | aborted a => some a
  | _ => none

end ScripCheck.Command
