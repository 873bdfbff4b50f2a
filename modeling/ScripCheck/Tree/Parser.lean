import ScripCheck.Tree.Basic
import ScripCheck.Tree.Recovery

/-!
# From tokens to declarations

* `name`, `literal`, `varDef`, `globalItem`, `block`, `funcDef`: one production for each kind of
  node.
* `statement`, `declaration`: a declaration of a body or of the top level; one that is given up
  leaves nothing.
* `parse`: the declarations and all syntax errors of a list of tokens.

A variable ends at a line break. Its production looks for the break, and the declaration takes it,
so the break is no part of the variable's span.
-/

namespace ScripCheck

variable (src : List Char)

/-! ## Names and literals -/

/-- One word. -/
def typeName : Production Name := do
  let (t, span) ← spanned src (expect src [.ident])
  return ⟨t.text, span⟩

/-- A dot and a word. -/
def dottedWord : Production Token := do
  let _ ← advance
  expect src [.ident]

theorem advances_dottedWord : Advances (·.at? [.dot]) (dottedWord src) :=
  advances_advance.bind fun _ => shrinks_expect src

/-- Words with dots between them. -/
def name : Production Name := do
  let ((first, more), span) ← spanned src do
    let first ← expect src [.ident]
    let more ← Production.whileAt (·.at? [.dot]) (dottedWord src) (advances_dottedWord src)
    return (first, more)
  return ⟨String.intercalate "." ((first :: more).map (·.text)), span⟩

/-- The kinds of literals. -/
def literalKinds : List Kind := [.intLit, .floatLit, .boolLit, .strLit]

/-- A text without its first and its last character. -/
def unquote (s : String) : String := String.ofList (s.toList.drop 1).dropLast

/-- The value of a number literal; none if its text at `span` spells no number. -/
def numberOr (span : Span) (v : Option Value) : Production Value := fun s =>
  match v with
  | some v => .found v s
  | none => .abandoned (s.record ⟨.numeral, span⟩)

/-- The value of a boolean literal. -/
def boolean (text : String) : Production Value := fun s =>
  if text = "True" then .found (.bool true) s
  else if text = "False" then .found (.bool false) s
  else .faulted (.boolean text)

/-- What a literal's token stands for. -/
def literalValue (t : Token) : Production Value :=
  match t.kind with
  | .strLit => pure (.str (unquote t.text))
  | .boolLit => boolean t.text
  | .intLit => numberOr t.span ((readInteger? t.text).map .int)
  | _ => numberOr t.span ((Binary64.read? t.text).map .float)

/-- A literal. -/
def literal : Production Literal := do
  let t ← expect src literalKinds
  return ⟨← literalValue t, t.span⟩

/-! ## Variables -/

/-- A variable, up to the line break that ends it. -/
def varDef : Production VarDef := do
  let ((type, name, value), span) ← spanned src do
    let type ← typeName src
    let name ← name src
    let _ ← expect src [.equals]
    let value ← literal src
    require src [.newline]
    return (type, name, value)
  return ⟨type, name, value, span⟩

/-- A variable as a declaration. -/
def varItem : Production Item := do return .var (← varDef src)

/-- A variable after the word `global`. -/
def globalItem : Production Item := do
  let (d, span) ← spanned src do
    let _ ← advance
    varDef src
  return .global d span

/-- A declaration and the token that ends it. -/
def terminated {α : Type} (p : Production α) : Production α := do
  let a ← p
  let _ ← advance
  return a

/-- A variable or global variable with its line break, if the next token starts one. -/
def item? (inBody : Bool) (other : Production (Option Item)) : Production (Option Item) := fun s =>
  if s.at? [.ident] then orResync inBody (terminated (varItem src)) s
  else if s.at? [.globalWord] then orResync inBody (terminated (globalItem src)) s
  else other s

/-! ## Progress of the productions -/

theorem shrinks_name : Shrinks (name src) :=
  (Shrinks.spanned src ((shrinks_expect src).bind fun _ => (shrinks_whileAt _).bind fun _ =>
    shrinks_pure _)).bind fun _ => shrinks_pure _

theorem shrinks_numberOr (span : Span) (v : Option Value) : Shrinks (numberOr span v) := fun s => by
  cases v <;> exact Nat.le_refl _

theorem shrinks_boolean (text : String) : Shrinks (boolean text) := fun s => by
  unfold boolean
  split
  · exact Nat.le_refl _
  · split
    · exact Nat.le_refl _
    · trivial

theorem shrinks_literalValue (t : Token) : Shrinks (literalValue t) := by
  unfold literalValue
  split
  · exact shrinks_pure _
  · exact shrinks_boolean _
  · exact shrinks_numberOr _ _
  · exact shrinks_numberOr _ _

theorem shrinks_literal : Shrinks (literal src) :=
  (shrinks_expect src).bind fun t => (shrinks_literalValue t).bind fun _ => shrinks_pure _

theorem advances_varDef : Advances (·.at? [.ident]) (varDef src) :=
  (Advances.spanned src
    ((((advances_expect src).spanned src fun _ _ h => h).bind fun _ => shrinks_pure _).bind
      fun _ => (shrinks_name src).bind fun _ => (shrinks_expect src).bind fun _ =>
        (shrinks_literal src).bind fun _ => (shrinks_require src).bind fun _ => shrinks_pure _)
    fun _ _ h => h).bind fun _ => shrinks_pure _

theorem shrinks_varDef : Shrinks (varDef src) :=
  (Shrinks.spanned src
    (((Shrinks.spanned src (shrinks_expect src)).bind fun _ => shrinks_pure _).bind
      fun _ => (shrinks_name src).bind fun _ => (shrinks_expect src).bind fun _ =>
        (shrinks_literal src).bind fun _ => (shrinks_require src).bind fun _ =>
          shrinks_pure _)).bind fun _ => shrinks_pure _

theorem advances_globalItem : Advances (·.at? [.globalWord]) (globalItem src) :=
  (Advances.spanned src (advances_advance.bind fun _ => shrinks_varDef src) fun _ _ h => h).bind
    fun _ => shrinks_pure _

theorem Advances.terminated {α : Type} {go : Cursor → Bool} {p : Production α}
    (hp : Advances go p) : Advances go (terminated p) :=
  hp.bind fun _ => shrinks_advance.bind fun _ => shrinks_pure _

theorem advances_item? {go : Cursor → Bool} (inBody : Bool) {other : Production (Option Item)}
    (h : Advances go other) : Advances go (item? src inBody other) := fun s hs => by
  unfold item?
  split
  · next hk =>
    exact (((advances_varDef src).bind fun _ => shrinks_pure _).terminated.orResync inBody) s hk
  · split
    · next hk => exact ((advances_globalItem src).terminated.orResync inBody) s hk
    · exact h s hs

/-! ## Bodies and functions -/

/-- The kinds of tokens that start a statement of a body. -/
def statementStarts : List Kind := [.globalWord, .ident]

/-- The kinds of tokens that start a declaration. -/
def declarationStarts : List Kind := [.globalWord, .funcWord, .ident]

/-- Nothing, after the tokens at the cursor were reported. -/
def reported {α : Type} (starts : List Kind) (inBody : Bool) : Production (Option α) := do
  unexpected src starts inBody
  return none

theorem advances_reported {α : Type} (starts : List Kind) (inBody : Bool) :
    Advances (fun _ => true) (reported src starts inBody : Production (Option α)) :=
  (advances_unexpected src starts inBody).bind fun _ => shrinks_pure _

/-- A declaration of a body, or nothing. -/
def statement : Production (Option Item) := item? src true (reported src statementStarts true)

/-- Nothing at an empty line, or else what the production reads. -/
def orEmptyLine {α : Type} (p : Production (Option α)) : Production (Option α) := fun s =>
  if s.at? [.newline] then (do let _ ← advance; return none : Production (Option α)) s else p s

theorem advances_orEmptyLine {α : Type} {go : Cursor → Bool} {p : Production (Option α)}
    (hp : Advances go p) : Advances go (orEmptyLine p) := fun s hs => by
  unfold orEmptyLine
  split
  · next hk => exact (advances_advance.bind fun _ => shrinks_pure _) s hk
  · exact hp s hs

theorem advances_statement : Advances (fun _ => true) (statement src) :=
  advances_item? src true (advances_reported src _ true)

/-- The body of a function has not ended. -/
def inBlock (s : Cursor) : Bool := !s.rest.isEmpty && !s.at? [.rbrace]

/-- The statements between two braces. -/
def block : Production Block := do
  let (items, span) ← spanned src do
    let _ ← expect src [.lbrace]
    let items ← Production.whileAt inBlock (orEmptyLine (statement src))
      (advances_orEmptyLine fun s _ => advances_statement src s rfl)
    let _ ← expect src [.rbrace]
    return items.filterMap id
  return ⟨items, span⟩

/-- A comma and a name. -/
def nextParam : Production Name := do
  let _ ← advance
  name src

theorem advances_nextParam : Advances (·.at? [.comma]) (nextParam src) :=
  advances_advance.bind fun _ => shrinks_name src

/-- Names with commas between them, or nothing. -/
def params : Production (List Name) := fun s =>
  if s.at? [.ident] then
    (do
      let first ← name src
      let more ← Production.whileAt (·.at? [.comma]) (nextParam src) (advances_nextParam src)
      return first :: more : Production (List Name)) s
  else .found [] s

/-- A function. -/
def funcDef : Production FuncDef := do
  let ((name, params, body), span) ← spanned src do
    let _ ← advance
    let name ← name src
    let _ ← expect src [.lparen]
    let params ← params src
    let _ ← expect src [.rparen]
    let body ← block src
    return (name, params, body)
  return ⟨name, params, body, span⟩

theorem shrinks_block : Shrinks (block src) :=
  (Shrinks.spanned src ((shrinks_expect src).bind fun _ => (shrinks_whileAt _).bind fun _ =>
    (shrinks_expect src).bind fun _ => shrinks_pure _)).bind fun _ => shrinks_pure _

theorem shrinks_params : Shrinks (params src) := fun s => by
  unfold params
  split
  · exact ((shrinks_name src).bind fun _ => (shrinks_whileAt _).bind fun _ => shrinks_pure _) s
  · exact Nat.le_refl _

theorem advances_funcDef : Advances (·.at? [.funcWord]) (funcDef src) :=
  (Advances.spanned src
    (advances_advance.bind fun _ => (shrinks_name src).bind fun _ => (shrinks_expect src).bind
      fun _ => (shrinks_params src).bind fun _ => (shrinks_expect src).bind fun _ =>
        (shrinks_block src).bind fun _ => shrinks_pure _) fun _ _ h => h).bind fun _ =>
    shrinks_pure _

/-! ## Programs -/

/-- A declaration of the top level, or nothing. -/
def declaration : Production (Option Decl) := fun s =>
  if s.at? [.funcWord] then orResync false (do return .func (← funcDef src)) s
  else
    (do return (← item? src false (reported src declarationStarts false)).map .item :
      Production (Option Decl)) s

theorem advances_declaration : Advances (fun _ => true) (declaration src) := fun s hs => by
  unfold declaration
  split
  · next hk => exact (((advances_funcDef src).bind fun _ => shrinks_pure _).orResync false) s hk
  · exact ((advances_item? src false (advances_reported src _ false)).bind fun _ =>
      shrinks_pure _) s hs

/-- Tokens are left. -/
def inProgram (s : Cursor) : Bool := !s.rest.isEmpty

/-- The declarations up to the end. -/
def declarations : Production (List Decl) := do
  let ds ← Production.whileAt inProgram (orEmptyLine (declaration src))
    (advances_orEmptyLine fun s _ => advances_declaration src s rfl)
  return ds.filterMap id

/-- What reading a list of tokens gives: the declarations that could be read, also those after an
error, and the errors. -/
structure Parsed where
  declarations : List Decl
  errors : List SyntaxError
deriving DecidableEq

/-- Reads a list of tokens of the text `src`. -/
def parse (tokens : List Token) : Except Fault Parsed :=
  match declarations src ⟨tokens, [], []⟩ with
  | .found ds s => .ok ⟨ds, s.errors⟩
  | .abandoned s => .ok ⟨[], s.errors⟩
  | .faulted f => .error f

/-- The program, if there are no errors. -/
def Parsed.program? (p : Parsed) : Except (List SyntaxError) Program :=
  match p.errors with
  | [] => .ok ⟨p.declarations, ⟨0, src.length⟩⟩
  | e :: es => .error (e :: es)

end ScripCheck
