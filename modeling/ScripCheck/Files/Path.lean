/-!
# Paths

A path is a row of names below a root, or below the working directory. Empty names and names `.`
mean nothing and are left out; `..` is kept, because what it means depends on the files.

* `Path.ofString`, `Path.toString`: a path and its text.
* `Path.parent`: the path without its last name; `Path.child`: with one more.
-/

namespace ScripCheck.Files

/-- Where a path starts. -/
inductive Root where
  /-- At the working directory. -/
  | here
  | slash
  /-- At the root that two slashes name. -/
  | twoSlashes
deriving DecidableEq

/-- The slashes of a root. -/
def Root.text : Root → String
  | here => ""
  | slash => "/"
  | twoSlashes => "//"

/-- A root and the names below it. -/
structure Path where
  root : Root
  names : List String
deriving DecidableEq

namespace Path

/-- The root that a text starts with: two slashes are a root of their own, three and more are
one. -/
def rootOf : List Char → Root
  | '/' :: '/' :: '/' :: _ => .slash
  | '/' :: '/' :: _ => .twoSlashes
  | '/' :: _ => .slash
  | _ => .here

/-- The path that a text spells. -/
def ofString (s : String) : Path :=
  ⟨rootOf s.toList,
    ((s.toList.splitOn '/').map String.ofList).filter fun n => n ≠ "" ∧ n ≠ "."⟩

/-- The text of a path; the working directory is written `.`. -/
def toString (p : Path) : String :=
  if p.root = .here ∧ p.names = [] then "."
  else p.root.text ++ String.intercalate "/" p.names

/-- The directory that holds what the path leads to; a root and the working directory stand for
their own. -/
def parent (p : Path) : Path := ⟨p.root, p.names.dropLast⟩

/-- The path of a name in the directory `p`. -/
def child (p : Path) (name : String) : Path := ⟨p.root, p.names ++ [name]⟩

@[simp] theorem parent_child (p : Path) (name : String) : (p.child name).parent = p := by
  simp [parent, child]

end Path

end ScripCheck.Files
