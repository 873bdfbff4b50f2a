import ScripCheck.Files.Snapshot

/-!
# Trees of files

The files below a working directory, as a value. What is above the working directory is one empty
directory, and an absolute path starts there.

* `Tree.write`, `Tree.makeDirectory`, `Tree.remove`, `Tree.touch`: the changes. A directory in
  which a name appears or disappears is modified.
* `Tree.snapshot`: what every path leads to.
-/

namespace ScripCheck.Files

/-- A file, or a directory and what it holds. -/
inductive Tree where
  | file (content : List UInt8) (modified : Int)
  | directory (modified : Int) (entries : List (String × Tree))

namespace Tree

/-- What a path sees of a tree. -/
def entry : Tree → Entry
  | file content m => .file content m
  | directory m _ => .directory m

/-- The directory above the working directory. -/
def outside : Tree := directory 1 []

/-! ## Looking -/

/-- The most bytes of a name and of a path. -/
def maxName : Nat := 255

def maxPath : Nat := 4095

/-- Follows names from the directory `here`; `above` holds the directories that `..` goes back
to. -/
def follow (above : List Tree) (here : Tree) : List String → Except Denial Tree
  | [] => .ok here
  | name :: names =>
    match here with
    | file .. => .error .notDirectory
    | directory _ entries =>
      if name = ".." then
        match above with
        | [] => follow [] outside names
        | up :: above => follow above up names
      else if maxName < name.utf8ByteSize then .error .nameTooLong
      else match entries.lookup name with
        | none => .error .missing
        | some t => follow (here :: above) t names

/-- What every path leads to, for a tree that is the working directory. -/
def snapshot (t : Tree) : Snapshot := fun p =>
  if maxPath < p.toString.utf8ByteSize then .error .nameTooLong
  else
    let start := if p.root = .here then t else outside
    match follow [] start p.names with
    | .ok t => .ok t.entry
    | .error d => .error d

/-! ## Changing -/

/-- The entries with one name replaced, added at the end, or taken out. -/
def setEntry (name : String) (new : Option Tree) : List (String × Tree) → List (String × Tree)
  | [] => (new.map (name, ·)).toList
  | (n, t) :: rest =>
    if n = name then (new.map (name, ·)).toList ++ rest else (n, t) :: setEntry name new rest

/-- Changes what the names lead to, where `none` stands for nothing. The directories on the way are
made if there is something to hold. -/
def alter (now : Int) (change : Option Tree → Option Tree) :
    List String → Option Tree → Option Tree
  | [], t => change t
  | _ :: _, some (file content m) => some (file content m)
  | name :: names, none =>
    match alter now change names none with
    | none => none
    | some t => some (directory now [(name, t)])
  | name :: names, some (directory m entries) =>
    let old := entries.lookup name
    let new := alter now change names old
    let m := if old.isSome = new.isSome then m else now
    some (directory m (setEntry name new entries))

/-- The tree after a change of what a path leads to. -/
def change (t : Tree) (now : Int) (p : Path) (f : Option Tree → Option Tree) : Tree :=
  (alter now f p.names (some t)).getD t

/-- Writes a file; a directory stays one. -/
def write (t : Tree) (now : Int) (p : Path) (content : List UInt8) : Tree :=
  t.change now p fun
    | some (directory m entries) => some (directory m entries)
    | _ => some (file content now)

/-- Makes a directory, if there is nothing yet. -/
def makeDirectory (t : Tree) (now : Int) (p : Path) : Tree :=
  t.change now p fun old => some (old.getD (directory now []))

/-- Removes a file or an empty directory. -/
def remove (t : Tree) (now : Int) (p : Path) : Tree :=
  t.change now p fun
    | some (directory m (e :: entries)) => some (directory m (e :: entries))
    | _ => none

/-- Sets the time of modification. -/
def touch (t : Tree) (modified : Int) (p : Path) : Tree :=
  t.change modified p fun old => old.map fun
    | file content _ => file content modified
    | directory _ entries => directory modified entries

end Tree

end ScripCheck.Files
