import ScripCheck.Command.Run

/-!
# The command

Reads the files that a run needs, and writes its report. To look at a file is to read it: the digest
of its content stands for its time of modification.
-/

namespace ScripCheck.Command

open Files

/-- What the system denies with an error. -/
def denial? : IO.Error → Option Denial
  | .noFileOrDirectory .. => some .missing
  | .inappropriateType _ code _ => some (if code = 21 then .isDirectory else .notDirectory)
  | .invalidArgument .. => some .nameTooLong
  | _ => none

/-- What a path leads to now. -/
def entryAt (p : Path) : IO (Except Denial Entry) := do
  try
    let content ← IO.FS.readBinFile p.toString
    return .ok (.file content.toList ((hash content).toNat + 1))
  catch e =>
    match denial? e with
    | some .isDirectory => return .ok (.directory 1)
    | some d => return .error d
    | none => throw e

/-- What some paths lead to now; no other path is asked for. -/
def snapshotOf (paths : List Path) : IO Snapshot := do
  let entries ← paths.mapM fun p => do return (p, ← entryAt p)
  return fun p => (entries.lookup p).getD (.error .missing)

/-- The paths that a run reads. -/
def pathsOf (words : List String) : List Path :=
  match Arguments.read words with
  | .ok a => [a.configPath, a.inputPath]
  | .error _ => []

/-- The settings of a run that watches its input. -/
def watchSettings? (words : List String) (files : Snapshot) : Option Settings :=
  match Arguments.read words with
  | .error _ => none
  | .ok a =>
    match Settings.resolve files a with
    | .error _ => none
    | .ok s => if s.watch then some s else none

/-- Ends a run that was aborted. -/
def tellAbort (a : Abort) : IO UInt32 := do
  IO.eprintln a.message
  return 1

/-- Writes a report. -/
def tell (r : Report) : IO UInt32 := do
  IO.print r.out
  IO.eprint r.err
  match r.ending with
  | .exit code => return code.toUInt32
  | .stop code => return code.toUInt32
  | .abort a => tellAbort a

/-- Looks at the input twice a second, until the watch is left or aborted. -/
partial def watchOn (s : Settings) (seen : Int) : IO UInt32 := do
  let p := poll s seen (← snapshotOf [s.input])
  IO.eprint p.text
  match p.abort with
  | some a => tellAbort a
  | none =>
    IO.sleep 500
    watchOn s p.seen

/-- A run on the files of the system. -/
def execute (words : List String) : IO UInt32 := do
  let files ← snapshotOf (pathsOf words)
  match watchSettings? words files with
  | some s => do
    IO.eprint (watchLine s)
    watchOn s 0
  | none => tell (run words files [])

end ScripCheck.Command

/-- The command. -/
def main (words : List String) : IO UInt32 := ScripCheck.Command.execute words
