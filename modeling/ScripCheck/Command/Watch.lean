import ScripCheck.Command.Verdict

/-!
# Watching an input

A watch looks at the input again and again. At each poll it checks the input if its time of
modification is not the one seen last; before the first look that is the time 0. An input that
cannot be looked at changes nothing. All it has to tell goes to the error stream.

* `poll`: one look.
* `watch`: the looks at the files of successive moments.
-/

namespace ScripCheck.Command

open Files

/-- What one look at the input gives. -/
structure Poll where
  /-- The time of modification that was seen last. -/
  seen : Int
  text : String
  abort : Option Abort

/-- One look at the input, when its time of modification was `seen` before. -/
def poll (s : Settings) (seen : Int) (files : Snapshot) : Poll :=
  match files.look s.input with
  | .error .nul => ⟨seen, "", some .nul⟩
  | .error (.denied _) => ⟨seen, "", none⟩
  | .ok e =>
    if e.modified = seen then ⟨seen, "", none⟩
    else
      let i := inspect s files
      ⟨e.modified, i.dumps ++ i.verdict.text s, i.verdict.abort?⟩

/-- What a watch writes. -/
structure Watching where
  /-- The text of each poll that was followed by a pause. -/
  polls : List String
  /-- The text after the last pause. -/
  tail : String
  /-- What ended the watch, if it was not left. -/
  abort : Option Abort

/-- All that a watch writes. -/
def Watching.text (w : Watching) : String := String.join w.polls ++ w.tail

/-- The looks at the files of successive moments. `before` is what was written before the first. -/
def watchFrom (s : Settings) (seen : Int) (before : String) : List Snapshot → Watching
  | [] => ⟨[], before, none⟩
  | files :: later =>
    let p := poll s seen files
    match p.abort with
    | some a => ⟨[], before ++ p.text, some a⟩
    | none =>
      let w := watchFrom s p.seen "" later
      { w with polls := (before ++ p.text) :: w.polls }

/-- The first line of a watch. -/
def watchLine (s : Settings) : String := "Watching " ++ s.input.toString ++ " for changes...\n"

/-- A watch of the input over the files of successive moments. -/
def watch (s : Settings) (moments : List Snapshot) : Watching := watchFrom s 0 (watchLine s) moments

end ScripCheck.Command
