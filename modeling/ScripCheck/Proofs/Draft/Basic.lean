import Mathlib.Data.List.Forall2
import ScripCheck.Proofs.Number.Numeral
import ScripCheck.Proofs.Token.Language
import ScripCheck.Tree.Basic

/-!
# Drafts of programs

A draft is a program without places: words, names, values and declarations. It can be written down
as a text, and it can be compared with the declarations that are read.

* `Draft.Word`, ..., `Draft.Declaration`: drafts. Every draft can be written down: words are no
  keywords, texts have no quotes, and integers are short enough to be read.
* `Word.chars`, ..., `Declaration.chars`: the text of a draft.
* `Path.Matches`, ..., `Declaration.Matches`: what is read is what the draft says.
-/

namespace ScripCheck

namespace Draft

/-- An identifier: a word that is no keyword. -/
structure Word where
  first : Char
  more : List Char
  starts : isWordStart first = true
  goesOn : ∀ c ∈ more, isWordPart c = true
  plain : String.ofList (first :: more) ∉ Kind.words.map (·.1)

def Word.chars (w : Word) : List Char := w.first :: w.more

/-- A dotted name. -/
structure Path where
  first : Word
  more : List Word

def Path.words (p : Path) : List Word := p.first :: p.more

/-- The words with dots between them. -/
def Path.chars (p : Path) : List Char := p.first.chars ++ p.more.flatMap fun w => '.' :: w.chars

/-- A nonempty row of digits. -/
structure Digits where
  chars : List Char
  nonempty : chars ≠ []
  digits : ∀ c ∈ chars, c.isDigit = true

/-- A fraction, by its text. -/
structure Fraction where
  sign : Sign
  whole : Digits
  part : Digits

def Fraction.chars (f : Fraction) : List Char :=
  f.sign.chars ++ (f.whole.chars ++ '.' :: f.part.chars)

/-- The value of a variable. -/
inductive Constant where
  | int (n : Int) (short : (Nat.toDigits 10 n.natAbs).length ≤ 4300)
  | float (f : Fraction)
  | bool (b : Bool)
  | str (cs : List Char) (unquoted : '"' ∉ cs)

/-- The value as a literal. Integers are written in decimal. -/
def Constant.chars : Constant → List Char
  | int n _ => (toString n).toList
  | float f => f.chars
  | bool true => "True".toList
  | bool false => "False".toList
  | str cs _ => '"' :: (cs ++ ['"'])

/-- A variable: `Type name = value`. -/
structure Variable where
  type : Word
  name : Path
  value : Constant

/-- The variable with the line break that ends it. -/
def Variable.chars (v : Variable) : List Char :=
  v.type.chars ++ (" ".toList ++ (v.name.chars ++ (" = ".toList ++ (v.value.chars ++ ['\n']))))

/-- What may stand in a body. -/
inductive Statement where
  | var (v : Variable)
  | global (v : Variable)

def Statement.chars : Statement → List Char
  | var v => v.chars
  | global v => "global ".toList ++ v.chars

/-- What may stand at top level. -/
inductive Declaration where
  | statement (s : Statement)
  | func (name : Path) (params : List Path) (body : List Statement)

/-- The names with commas between them. -/
def listChars : List Path → List Char
  | [] => []
  | p :: ps => p.chars ++ ps.flatMap fun p => ", ".toList ++ p.chars

def Declaration.chars : Declaration → List Char
  | statement s => s.chars
  | func name params body => "func ".toList ++ (name.chars ++ ("(".toList ++ (listChars params ++
      (") \x7b\n".toList ++ (body.flatMap Statement.chars ++ "\x7d\n".toList)))))

/-! ## What is read -/

/-- The name has these words. -/
structure Path.Matches (p : Path) (n : Name) : Prop where
  path : n.path.toList = p.chars
  parts : n.parts = p.words.map fun w => String.ofList w.chars

/-- The value of a fraction is that of its text. -/
inductive Constant.Matches : Constant → Value → Prop where
  | int {n : Int} {short : (Nat.toDigits 10 n.natAbs).length ≤ 4300} :
    Matches (.int n short) (.int n)
  | float {f : Fraction} {x : Binary64} (reads : Binary64.read? (String.ofList f.chars) = some x) :
    Matches (.float f) (.float x)
  | bool {b : Bool} : Matches (.bool b) (.bool b)
  | str {cs : List Char} {unquoted : '"' ∉ cs} :
    Matches (.str cs unquoted) (.str (String.ofList cs))

structure Variable.Matches (v : Variable) (d : VarDef) : Prop where
  type : Path.Matches ⟨v.type, []⟩ d.type
  name : v.name.Matches d.name
  value : v.value.Matches d.value.value

inductive Statement.Matches : Statement → Item → Prop where
  | var {v : Variable} {d : VarDef} (var : v.Matches d) : Matches (.var v) (.var d)
  | global {v : Variable} {d : VarDef} (var : v.Matches d) (span : Span) :
    Matches (.global v) (.global d span)

inductive Declaration.Matches : Declaration → Decl → Prop where
  | statement {s : Statement} {i : Item} (item : s.Matches i) : Matches (.statement s) (.item i)
  | func {n : Path} {ps : List Path} {ss : List Statement} {f : FuncDef} (name : n.Matches f.name)
    (params : List.Forall₂ Path.Matches ps f.params)
    (body : List.Forall₂ Statement.Matches ss f.body.body) : Matches (.func n ps ss) (.func f)

end Draft

end ScripCheck
