import ScripCheck.Number.Shortest
import ScripCheck.Token.Dump
import ScripCheck.Tree.Basic

/-!
# Tree dumps

An outline is a tree without spans, as dumps show it: one line for each node, indented by its depth.
Outlines are more general than programs. Any node may stand in any place, and there are calls, which
no declaration contains yet.

* `Outline.inline`: a node within a line; `Outline.rows`: the lines of a node.
* `Program.dumpBy`: the dump of a program, for any class of printable characters. `Program.dump`: for
  that of `isPrintable`.
-/

namespace ScripCheck

/-- A tree as dumps show it. -/
inductive Outline where
  | name (path : String)
  | literal (v : Value)
  | var (type name : String) (value : Outline)
  | global (decl : Outline)
  | block (body : List Outline)
  | func (name : String) (params : List Outline) (body : Outline)
  | call (callee : Outline) (args : List Outline)

section

variable (printable : Char → Bool)

/-- The value of a literal as dumps show it. -/
def Value.display : Value → String
  | int n => "IntLit(" ++ toString n ++ ")"
  | float x => "FloatLit(" ++ x.render .plain ++ ")"
  | bool b => "BoolLit(" ++ (if b then "True" else "False") ++ ")"
  | str s => "StrLit(" ++ quotedBy printable s ++ ")"

namespace Outline

/-- A node within a line: only names and literals show what they hold. -/
def inline : Outline → String
  | name path => "Name(" ++ path ++ ")"
  | literal v => v.display printable
  | var .. => "VarDef"
  | global _ => "Global"
  | block _ => "Block"
  | func .. => "FuncDef"
  | call .. => "Call"

/-- Nodes within a line, between parentheses. -/
def inlineAll (os : List Outline) : String :=
  "(" ++ String.intercalate ", " (os.map (inline printable)) ++ ")"

/-- A line at the depth. -/
def indented (depth : Nat) (s : String) : String :=
  String.ofList (List.replicate (2 * depth) ' ') ++ s

mutual

/-- The lines of a node. -/
def rows (depth : Nat) : Outline → List String
  | var type x value =>
    indented depth ("VarDef " ++ type ++ " " ++ x) :: rows (depth + 1) value
  | global decl => indented depth "Global" :: rows (depth + 1) decl
  | block body => indented depth "Block" :: rowsAll (depth + 1) body
  | func f params body =>
    indented depth ("FuncDef " ++ f ++ inlineAll printable params) :: rows (depth + 1) body
  | call callee args =>
    [indented depth ("Call " ++ callee.inline printable ++ inlineAll printable args)]
  | name path => [indented depth ("Name(" ++ path ++ ")")]
  | literal v => [indented depth (v.display printable)]

/-- The lines of some nodes. -/
def rowsAll (depth : Nat) : List Outline → List String
  | [] => []
  | o :: os => rows depth o ++ rowsAll depth os

end

/-- The dump of some declarations, where some characters are printable. -/
def dumpBy (os : List Outline) : String := unlines ("Program" :: rowsAll printable 1 os)

/-- The dump of some declarations. -/
def dump (os : List Outline) : String := dumpBy isPrintable os

end Outline

end

/-! ## Outlines of programs -/

/-- The outline of a variable. -/
def VarDef.outline (d : VarDef) : Outline := .var d.type.path d.name.path (.literal d.value.value)

/-- The outline of a declaration of a body. -/
def Item.outline : Item → Outline
  | var d => d.outline
  | global d _ => .global d.outline

/-- The outline of a declaration. -/
def Decl.outline : Decl → Outline
  | item i => i.outline
  | func f =>
    .func f.name.path (f.params.map fun n => .name n.path) (.block (f.body.body.map Item.outline))

/-- The dump of a program, where some characters are printable. -/
def Program.dumpBy (printable : Char → Bool) (p : Program) : String :=
  Outline.dumpBy printable (p.declarations.map Decl.outline)

/-- The dump of a program. -/
def Program.dump (p : Program) : String := p.dumpBy isPrintable

end ScripCheck
