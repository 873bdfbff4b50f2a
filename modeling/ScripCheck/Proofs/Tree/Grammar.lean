import ScripCheck.Tree.Parser

/-!
# The grammar of programs

A phrase is a list of tokens that stands for a node. Each relation here is one rule of the grammar,
between the tokens of the phrase and the node, spans included.

* `Name := IDENT (DOT IDENT)*`: `NamePhrase`.
* `Atom`: one token, `Denotes`.
* `VarDecl := IDENT Name EQUALS Atom`: `VarPhrase`; with or without `GLOBAL`: `ItemPhrase`.
* `Params := [Name (COMMA Name)*]`: `ParamsPhrase`.
* `FuncDecl := FUNC Name LPAREN Params RPAREN LBRACE Part* RBRACE`: `HeaderPhrase`, `FuncPhrase`.
* `Part := NEWLINE | Item NEWLINE`: `PartPhrase`; a program is a row of these and of functions:
  `Derives`.
-/

namespace ScripCheck

/-- From the start of the first token to the furthest end of any. -/
def cover : List Token → Span
  | [] => default
  | t :: ts => ts.foldl (fun span u => span.reach u.span.hi) t.span

/-- The boolean literals among the tokens are the two words. -/
def BooleansSpelled (ts : List Token) : Prop :=
  ∀ t ∈ ts, t.kind = .boolLit → t.text = "True" ∨ t.text = "False"

/-- Any number of phrases, one after another. -/
inductive Star {α : Type} (L : List Token → α → Prop) : List Token → List α → Prop where
  | nil : Star L [] []
  | cons {us vs : List Token} {a : α} {as : List α} (head : L us a) (tail : Star L vs as) :
    Star L (us ++ vs) (a :: as)

/-! ## Variables -/

/-- A dot and a word. -/
inductive DottedPhrase : List Token → Token → Prop where
  | intro {d t : Token} (dot : d.kind = .dot) (word : t.kind = .ident) : DottedPhrase [d, t] t

/-- Words with dots between them. -/
inductive NamePhrase : List Token → Name → Prop where
  | intro {t : Token} {us ws : List Token} (word : t.kind = .ident) (more : Star DottedPhrase us ws) :
    NamePhrase (t :: us) ⟨String.intercalate "." ((t :: ws).map (·.text)), cover (t :: us)⟩

theorem unquote_quoted (cs : List Char) :
    unquote (String.ofList ('"' :: (cs ++ ['"']))) = String.ofList cs := by
  simp [unquote]

/-- What the token of a literal stands for. -/
inductive Denotes (t : Token) : Value → Prop where
  | int {n : Int} (kind : t.kind = .intLit) (reads : readInteger? t.text = some n) :
    Denotes t (.int n)
  | float {x : Binary64} (kind : t.kind = .floatLit) (reads : Binary64.read? t.text = some x) :
    Denotes t (.float x)
  | yes (kind : t.kind = .boolLit) (text : t.text = "True") : Denotes t (.bool true)
  | no (kind : t.kind = .boolLit) (text : t.text = "False") : Denotes t (.bool false)
  | str (kind : t.kind = .strLit) : Denotes t (.str (unquote t.text))

theorem Denotes.kind_mem {t : Token} {v : Value} (h : Denotes t v) : t.kind ∈ literalKinds := by
  cases h <;> simp [literalKinds, *]

/-- A variable, without the line break that ends it. -/
inductive VarPhrase : List Token → VarDef → Prop where
  | intro {t e v : Token} {us : List Token} {n : Name} {x : Value} (type : t.kind = .ident)
    (name : NamePhrase us n) (equals : e.kind = .equals) (value : Denotes v x) :
    VarPhrase (t :: (us ++ [e, v]))
      ⟨⟨t.text, t.span⟩, n, ⟨x, v.span⟩, cover (t :: (us ++ [e, v]))⟩

/-- A variable or global variable, without the line break that ends it. -/
inductive ItemPhrase : List Token → Item → Prop where
  | var {us : List Token} {d : VarDef} (var : VarPhrase us d) : ItemPhrase us (.var d)
  | global {g : Token} {us : List Token} {d : VarDef} (word : g.kind = .globalWord)
    (var : VarPhrase us d) : ItemPhrase (g :: us) (.global d (cover (g :: us)))

/-- An empty line, or a variable with its line break. -/
inductive PartPhrase : List Token → Option Item → Prop where
  | blank {t : Token} (newline : t.kind = .newline) : PartPhrase [t] none
  | item {us : List Token} {i : Item} {t : Token} (item : ItemPhrase us i)
    (newline : t.kind = .newline) : PartPhrase (us ++ [t]) (some i)

/-! ## Functions and programs -/

/-- A comma and a name. -/
inductive NextParamPhrase : List Token → Name → Prop where
  | intro {c : Token} {us : List Token} {n : Name} (comma : c.kind = .comma)
    (name : NamePhrase us n) : NextParamPhrase (c :: us) n

/-- Names with commas between them, or nothing. -/
inductive ParamsPhrase : List Token → List Name → Prop where
  | none : ParamsPhrase [] []
  | some {us vs : List Token} {n : Name} {ns : List Name} (first : NamePhrase us n)
    (more : Star NextParamPhrase vs ns) : ParamsPhrase (us ++ vs) (n :: ns)

/-- The tokens of a function before its body. -/
inductive HeaderPhrase : List Token → Name → List Name → Prop where
  | intro {f l r : Token} {us vs : List Token} {n : Name} {ns : List Name}
    (word : f.kind = .funcWord) (name : NamePhrase us n) (lparen : l.kind = .lparen)
    (params : ParamsPhrase vs ns) (rparen : r.kind = .rparen) :
    HeaderPhrase (f :: (us ++ l :: (vs ++ [r]))) n ns

/-- A function. -/
inductive FuncPhrase : List Token → FuncDef → Prop where
  | intro {l r : Token} {us vs : List Token} {n : Name} {ns : List Name} {is : List (Option Item)}
    (header : HeaderPhrase us n ns) (lbrace : l.kind = .lbrace) (body : Star PartPhrase vs is)
    (rbrace : r.kind = .rbrace) :
    FuncPhrase (us ++ l :: (vs ++ [r]))
      ⟨n, ns, ⟨is.filterMap id, cover (l :: (vs ++ [r]))⟩, cover (us ++ l :: (vs ++ [r]))⟩

/-- A part of a program: an empty line, a variable with its line break, or a function. -/
inductive DeclPhrase : List Token → Option Decl → Prop where
  | part {us : List Token} {i : Option Item} (part : PartPhrase us i) :
    DeclPhrase us (i.map .item)
  | func {us : List Token} {f : FuncDef} (func : FuncPhrase us f) :
    DeclPhrase us (some (.func f))

/-- The tokens are a program with these declarations. -/
inductive Derives : List Token → List Decl → Prop where
  | intro {us : List Token} {ds : List (Option Decl)} (parts : Star DeclPhrase us ds) :
    Derives us (ds.filterMap id)

end ScripCheck
