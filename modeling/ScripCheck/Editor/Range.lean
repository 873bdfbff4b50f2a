import ScripCheck.Diagnostic.Basic

/-!
# Places in a document

An editor counts lines and characters from 0, and a character has one or more units of the encoding
that it chose. The lines of its documents also end at the other breaks of Unicode, and a text that
ends with a break has no empty line after it.

Documents and the change of units are not the checker's own. They belong to the library that its
server runs on, pygls, and are taken as in release 2.1.1: `documentLines` is `lines` of a document,
`Encoding.units` is `client_num_units` of a position codec, and `Place.ofPosition` is its
`position_to_client_units`, which `range_to_client_units` applies to both ends.

* `Encoding.units`: the length of a text in an encoding.
* `documentLines`: the lines of a document, with their ends.
* `Place.ofPosition`: the place of a position; after all lines if there is no such line.
-/

namespace ScripCheck.Editor

/-- The encoding in whose units an editor counts. -/
inductive Encoding where
  | utf8
  | utf16
  | utf32
deriving DecidableEq

namespace Encoding

/-- The encoding with a name; an editor that names no other one counts in UTF-16. -/
def ofName (name : String) : Encoding :=
  if name = "utf-8" then utf8 else if name = "utf-32" then utf32 else utf16

/-- The units of one character. -/
def width : Encoding → Char → Nat
  | utf8, c => c.utf8Size
  | utf16, c => if 0xFFFF < c.toNat then 2 else 1
  | utf32, _ => 1

/-- The units of a text. -/
def units (e : Encoding) : List Char → Nat
  | [] => 0
  | c :: cs => e.width c + e.units cs

@[simp] theorem units_nil (e : Encoding) : e.units [] = 0 := rfl

end Encoding

/-! ## Lines of a document -/

/-- A character that ends a line of a document. -/
def isLineBreak (c : Char) : Bool :=
  let n := c.toNat
  (0x0A ≤ n && n ≤ 0x0D) || (0x1C ≤ n && n ≤ 0x1E) || n == 0x85 || n == 0x2028 || n == 0x2029

/-- The character `c`, with the text `next` after it, ends a line of a document. -/
def endsDocumentLine (c : Char) (next : List Char) : Bool :=
  isLineBreak c && !(c == '\r' && next.head? == some '\n')

/-- The lines of a document, with their ends. -/
def documentLines : List Char → List (List Char)
  | [] => []
  | c :: cs =>
    if endsDocumentLine c cs then [c] :: documentLines cs
    else match documentLines cs with
      | [] => [[c]]
      | l :: ls => (c :: l) :: ls

/-! ## Places -/

/-- A line and a character in it, counted from 0. -/
structure Place where
  line : Nat
  character : Nat
deriving DecidableEq

/-- The place of a position in the lines of a document. -/
def Place.ofPosition (e : Encoding) (ls : List (List Char)) (p : Position) : Place :=
  match ls[p.line - 1]? with
  | none => ⟨ls.length, 0⟩
  | some l => ⟨p.line - 1, e.units (l.take (p.column - 1))⟩

/-- A diagnostic as an editor shows it. -/
structure Notice where
  start : Place
  stop : Place
  message : String
deriving DecidableEq

/-- The notice of a diagnostic about the document `src`. -/
def Notice.ofDiagnostic (e : Encoding) (src : List Char) (d : Diagnostic) : Notice :=
  let place := Place.ofPosition e (documentLines src)
  ⟨place (d.start src), place (d.stop src), d.message⟩

end ScripCheck.Editor
