import ScripCheck.Command.Watch

/-!
# Runs of the command

A run reads its arguments and its configuration, and then checks the input once, or watches it.

* `Report`: what a run writes and how it ends.
* `run`: the report for the words of a command line and the files it meets.
* The exit code is 0 if the input is a program, 1 if it has diagnostics, and 2 if the configuration
  or the input cannot be used.
-/

namespace ScripCheck.Command

open Files

/-- How a run ends. -/
inductive Ending where
  | exit (code : Nat)
  /-- The words of the command line are no arguments, or ask for the help only. -/
  | stop (code : Nat)
  | abort (a : Abort)

/-- What a run writes to its two streams, and how it ends. -/
structure Report where
  out : String
  err : String
  /-- What a watch writes to the error stream up to each of its pauses. -/
  polls : List String
  ending : Ending

/-- The report of a run that checks the input once. -/
def runOnce (s : Settings) (files : Snapshot) : Report :=
  let i := inspect s files
  let text := i.verdict.text s
  match i.verdict with
  | .passed _ => ⟨text, i.dumps, [], .exit 0⟩
  | .failed .. => ⟨"", i.dumps ++ text, [], .exit 1⟩
  | .unreadable _ => ⟨"", i.dumps ++ text, [], .exit 2⟩
  | .aborted a => ⟨"", i.dumps, [], .abort a⟩

/-- The report of a run that watches the input. -/
def runWatch (s : Settings) (moments : List Snapshot) : Report :=
  let w := watch s moments
  let ending := match w.abort with
    | some a => .abort a
    | none => .exit 0
  ⟨"", w.text, w.polls, ending⟩

/-- The line about an error of the configuration, if it is one that is told to the user. -/
def ConfigError.line? : ConfigError → Option String
  | limit shown => some ("error: " ++ (limit shown).message ++ "\n")
  | toml r =>
    match r.problem with
    | .digits .. => none
    | _ => some ("error: invalid config file: " ++ r.message ++ "\n")
  | _ => none

/-- The report of a run without settings. -/
def ConfigError.report (e : ConfigError) : Report :=
  match e.line? with
  | some line => ⟨"", line, [], .exit 2⟩
  | none => ⟨"", "", [], .abort (.config e)⟩

/-- The report of a run without arguments. -/
def Stop.report : Stop → Report
  | help => ⟨helpText, "", [], .stop 0⟩
  | usage e => ⟨"", e.text, [], .stop 2⟩

/-- The report of a run. The configuration is read from `files`, and so is the input; a watch looks
at `files` first and at each of `later` after a pause. -/
def run (words : List String) (files : Snapshot) (later : List Snapshot) : Report :=
  match Arguments.read words with
  | .error stop => stop.report
  | .ok a =>
    match Settings.resolve files a with
    | .error e => e.report
    | .ok s => if s.watch then runWatch s (files :: later) else runOnce s files

end ScripCheck.Command
