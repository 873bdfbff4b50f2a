import ScripCheck.Files.Path
import ScripCheck.Text.Quoted
import ScripCheck.Text.Utf8

/-!
# What a path leads to

A snapshot is what every path leads to at one moment: a file, a directory, or a denial. Each entry
has a time of modification, which only serves to be compared.

* `Snapshot.look`: the entry of a path. No snapshot is asked about a path with a NUL character.
* `Snapshot.readText`: the characters of a file.
-/

namespace ScripCheck.Files

/-- What a path leads to. -/
inductive Entry where
  | file (content : List UInt8) (modified : Int)
  | directory (modified : Int)
deriving DecidableEq

/-- When an entry was modified. -/
def Entry.modified : Entry → Int
  | file _ m => m
  | directory m => m

/-- Why a path leads to nothing that can be read. -/
inductive Denial where
  | missing
  /-- A file stands where the path needs a directory. -/
  | notDirectory
  | isDirectory
  | nameTooLong
deriving DecidableEq

namespace Denial

/-- The number of the denial in messages. -/
def number : Denial → Nat
  | missing => 2
  | notDirectory => 20
  | isDirectory => 21
  | nameTooLong => 36

/-- The words of the denial in messages. -/
def text : Denial → String
  | missing => "No such file or directory"
  | notDirectory => "Not a directory"
  | isDirectory => "Is a directory"
  | nameTooLong => "File name too long"

/-- The message about a path. -/
def message (d : Denial) (path : String) : String :=
  "[Errno " ++ toString d.number ++ "] " ++ d.text ++ ": " ++ quoted path

end Denial

/-- What every path leads to at one moment. -/
abbrev Snapshot := Path → Except Denial Entry

/-- Why a path has no entry. -/
inductive LookError where
  /-- The path has a NUL character, which no name may have. -/
  | nul
  | denied (d : Denial)
deriving DecidableEq

/-- Why a path has no text. -/
inductive ReadError where
  | nul
  | denied (d : Denial)
  | encoding (f : Utf8.Fault)

/-- A name of the path has a NUL character. -/
def Path.hasNul (p : Path) : Bool := p.names.any fun n => n.toList.contains '\x00'

namespace Snapshot

/-- The entry of a path. -/
def look (files : Snapshot) (p : Path) : Except LookError Entry :=
  if p.hasNul then .error .nul
  else match files p with
    | .ok e => .ok e
    | .error d => .error (.denied d)

/-- The characters of the file at a path. -/
def readText (files : Snapshot) (p : Path) : Except ReadError (List Char) :=
  match files.look p with
  | .error .nul => .error .nul
  | .error (.denied d) => .error (.denied d)
  | .ok (.directory _) => .error (.denied .isDirectory)
  | .ok (.file content _) =>
    match Utf8.decode content with
    | .ok cs => .ok cs
    | .error f => .error (.encoding f)

end Snapshot

end ScripCheck.Files
