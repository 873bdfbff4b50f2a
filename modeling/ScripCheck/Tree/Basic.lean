import ScripCheck.Number.Binary64
import ScripCheck.Source.Span

/-!
# Syntax trees

A program is a list of declarations: variables, global variables, and functions whose bodies hold
variables and global variables. Every node knows the span of its text.

* `Name.parts`: the words of a dotted name.
* `Decl.span`, `Item.span`: the span of any declaration.
-/

namespace ScripCheck

/-- A dotted name such as `a.b.c`. -/
structure Name where
  path : String
  span : Span
deriving DecidableEq

/-- The texts between the dots of a path; the empty path has one empty text. -/
def pathParts (path : List Char) : List (List Char) := path.splitOn '.'

/-- The words of a dotted name. -/
def Name.parts (n : Name) : List String := (pathParts n.path.toList).map .ofList

/-- What a literal stands for. -/
inductive Value where
  | int (n : Int)
  | float (x : Binary64)
  | bool (b : Bool)
  /-- A text, without the quotes around it. -/
  | str (s : String)
deriving DecidableEq

/-- A literal. -/
structure Literal where
  value : Value
  span : Span
deriving DecidableEq

/-- A variable: `Type name = value`. -/
structure VarDef where
  type : Name
  name : Name
  value : Literal
  span : Span
deriving DecidableEq

/-- A declaration that may stand in a function body. -/
inductive Item where
  | var (d : VarDef)
  /-- A variable after the word `global`. -/
  | global (d : VarDef) (span : Span)
deriving DecidableEq

/-- The body of a function, braces included. -/
structure Block where
  body : List Item
  span : Span
deriving DecidableEq

/-- A function: `func name(params)` and its body. -/
structure FuncDef where
  name : Name
  params : List Name
  body : Block
  span : Span
deriving DecidableEq

/-- A declaration at top level. -/
inductive Decl where
  | item (i : Item)
  | func (f : FuncDef)
deriving DecidableEq

/-- The declarations of a source text, in order. -/
structure Program where
  declarations : List Decl
  span : Span
deriving DecidableEq

/-- The span of a variable or global variable. -/
def Item.span : Item → Span
  | var d => d.span
  | global _ span => span

/-- The span of a declaration. -/
def Decl.span : Decl → Span
  | item i => i.span
  | func f => f.span

end ScripCheck
