/-!
# Token kinds

The closed set of kinds that a lexeme can have, in a fixed order that lists of kinds in messages
follow.

* `Kind.display`: how messages name the kind; `Kind.label`: how dumps name it.
* `Kind.describe`: a list of kinds as messages show it.
* `Kind.ofWord`: the words that are not plain identifiers.
* `Kind.absorbsNewline`: a line break right after such a token ends no statement.
-/

namespace ScripCheck

/-- What a token is. -/
inductive Kind where
  | newline
  | globalWord
  | funcWord
  | whileWord
  | ifWord
  | returnWord
  | ident
  | intLit
  | floatLit
  | boolLit
  | strLit
  | equals
  | addEquals
  | subEquals
  | mulEquals
  | divEquals
  | plus
  | minus
  | star
  | slash
  | dot
  | comma
  | lparen
  | rparen
  | lbrace
  | rbrace
  /-- Blanks between tokens; the lexer drops them. -/
  | blank
  /-- A character that no rule accepts; it becomes a diagnostic. -/
  | stray
deriving DecidableEq, Repr

namespace Kind

/-- Every kind, in order. -/
def all : List Kind :=
  [newline, globalWord, funcWord, whileWord, ifWord, returnWord, ident, intLit, floatLit, boolLit,
    strLit, equals, addEquals, subEquals, mulEquals, divEquals, plus, minus, star, slash, dot,
    comma, lparen, rparen, lbrace, rbrace, blank, stray]

/-- The place of the kind in `all`. -/
def rank (k : Kind) : Nat := all.idxOf k

/-- The kind as messages name it. -/
def display : Kind → String
  | newline => "Newline"
  | globalWord => "global"
  | funcWord => "func"
  | whileWord => "while"
  | ifWord => "if"
  | returnWord => "return"
  | ident => "Identifier"
  | intLit => "Integer"
  | floatLit => "Float"
  | boolLit => "Boolean"
  | strLit => "String"
  | equals => "="
  | addEquals => "+="
  | subEquals => "-="
  | mulEquals => "*="
  | divEquals => "/="
  | plus => "+"
  | minus => "-"
  | star => "*"
  | slash => "/"
  | dot => "."
  | comma => ","
  | lparen => "("
  | rparen => ")"
  | lbrace => "\x7b"
  | rbrace => "\x7d"
  | blank => "Whitespace"
  | stray => "Error"

/-- The kind as token dumps name it. -/
def label : Kind → String
  | newline => "NEWLINE"
  | globalWord => "GLOBAL"
  | funcWord => "FUNC"
  | whileWord => "WHILE"
  | ifWord => "IF"
  | returnWord => "RETURN"
  | ident => "IDENT"
  | intLit => "INT_LIT"
  | floatLit => "FLOAT_LIT"
  | boolLit => "BOOL_LIT"
  | strLit => "STR_LIT"
  | equals => "EQUALS"
  | addEquals => "ADD_EQUALS"
  | subEquals => "SUB_EQUALS"
  | mulEquals => "MUL_EQUALS"
  | divEquals => "DIV_EQUALS"
  | plus => "PLUS"
  | minus => "MINUS"
  | star => "STAR"
  | slash => "SLASH"
  | dot => "DOT"
  | comma => "COMMA"
  | lparen => "LPAREN"
  | rparen => "RPAREN"
  | lbrace => "LBRACE"
  | rbrace => "RBRACE"
  | blank => "WHITESPACE"
  | stray => "ERROR"

/-- The kind that a label names. -/
def ofLabel? (s : String) : Option Kind := all.find? (·.label = s)

/-- The kinds in their order, as messages show them between backquotes. -/
def describe (kinds : List Kind) : String :=
  String.intercalate "`, `" ((kinds.mergeSort fun a b => a.rank ≤ b.rank).map display)

/-- The words that have a kind of their own. -/
def words : List (String × Kind) :=
  [("global", globalWord), ("func", funcWord), ("while", whileWord), ("if", ifWord),
    ("return", returnWord), ("True", boolLit), ("False", boolLit)]

/-- The kind of a word: its own, if it has one. -/
def ofWord (word : String) : Kind := (words.lookup word).getD ident

/-- An assignment sign. -/
def isAssign : Kind → Bool
  | equals | addEquals | subEquals | mulEquals | divEquals => true
  | _ => false

/-- A line break right after a token of this kind ends no statement. -/
def absorbsNewline (k : Kind) : Bool :=
  k.isAssign || match k with
    | newline | lparen | rparen | lbrace | rbrace => true
    | _ => false

/-- How far a token of this kind changes the depth of braces. -/
def nesting : Kind → Int
  | lbrace => 1
  | rbrace => -1
  | _ => 0

end Kind

end ScripCheck
