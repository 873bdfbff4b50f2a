import ScripCheck.Command.Limit
import ScripCheck.Text.Digit
import ScripCheck.Text.Quoted

/-!
# Words of a command line

Each word is a positional one, an option, or the separator after which all words are positional. A
long option may be shortened as far as it stays the only one, and may bring its value after `=`.

* `Switch`: the options.
* `Word.ofString`: what a word is; `Word.ofStrings`: what all words are.
* `UsageError`, `UsageError.message`: what can be wrong with a command line.
-/

namespace ScripCheck.Command

/-- The options. -/
inductive Switch where
  | help
  | config
  | maxErrors
  | tokens
  | debug
  | watch
deriving DecidableEq

namespace Switch

/-- The options in the order in which they are listed. -/
def all : List Switch := [help, config, maxErrors, tokens, debug, watch]

/-- The long form. -/
def long : Switch → String
  | help => "--help"
  | config => "--config"
  | maxErrors => "--max-errors"
  | tokens => "--tokens"
  | debug => "--debug"
  | watch => "--watch"

/-- The option in messages: every form of it. -/
def title : Switch → String
  | help => "-h/--help"
  | o => o.long

/-- The option needs a value. -/
def takesValue : Switch → Bool
  | config => true
  | maxErrors => true
  | _ => false

/-- The options whose long form starts with some text. -/
def candidates (start : List Char) : List Switch :=
  all.filter fun o => start.isPrefixOf o.long.toList

end Switch

/-- What is wrong with a command line. -/
inductive UsageError where
  | ambiguous (word : String) (candidates : List Switch)
  | valueMissing (o : Switch)
  | valueRefused (o : Switch) (e : LimitError)
  | valueUnwanted (o : Switch) (value : String)
  | inputMissing
  | unrecognized (words : List String)
deriving DecidableEq

/-- The text of a usage error. -/
def UsageError.message : UsageError → String
  | ambiguous word os =>
    "ambiguous option: " ++ word ++ " could match " ++ String.intercalate ", " (os.map Switch.long)
  | valueMissing o => "argument " ++ o.title ++ ": expected one argument"
  | valueRefused o e => "argument " ++ o.title ++ ": " ++ e.message
  | valueUnwanted o value =>
    "argument " ++ o.title ++ ": ignored explicit argument " ++ quoted value
  | inputMissing => "the following arguments are required: input"
  | unrecognized words => "unrecognized arguments: " ++ String.intercalate " " words

/-! ## Words -/

/-- A word of a command line. -/
inductive Word where
  | plain (text : String)
  | separator
  /-- An option in its long form, with the value after `=`. -/
  | switch (o : Switch) (value : Option String)
  /-- The short form of the option for help, and what follows it in the same word. -/
  | shortHelp (rest : List Char)
  | unknown (text : String)

namespace Word

/-- A row of digits. -/
def isDigits (cs : List Char) : Bool := !cs.isEmpty && cs.all fun c => (digitValue? c).isSome

/-- The text after a minus sign is a number: digits, perhaps with a point before the last of them.
A line break may end it. -/
def isNumber (cs : List Char) : Bool :=
  let cs := if cs.getLast? = some '\n' then cs.dropLast else cs
  let whole := cs.takeWhile fun c => (digitValue? c).isSome
  match cs.drop whole.length with
  | [] => isDigits whole
  | '.' :: part => isDigits part
  | _ => false

/-- The text before the first `=`, and the text after it. -/
def splitValue (cs : List Char) : List Char × Option String :=
  match cs.dropWhile (· ≠ '=') with
  | [] => (cs, none)
  | _ :: value => (cs.takeWhile (· ≠ '='), some (String.ofList value))

/-- A word that is no option: positional if it reads as a negative number or has a space. -/
def other (text : String) : Word :=
  if isNumber (text.toList.drop 1) || text.toList.contains ' ' then plain text else unknown text

/-- What a word before the separator is. -/
def ofString (text : String) : Except UsageError Word :=
  match text.toList with
  | '-' :: 'h' :: rest => .ok (shortHelp rest)
  | ['-', '-'] => .ok separator
  | '-' :: '-' :: cs =>
    let (name, value) := splitValue ('-' :: '-' :: cs)
    match Switch.candidates name with
    | [] => .ok (other text)
    | [o] => .ok (switch o value)
    | os => .error (.ambiguous text os)
  | '-' :: _ :: _ => .ok (other text)
  | _ => .ok (plain text)

/-- What the words of a command line are. -/
def ofStrings : List String → Except UsageError (List Word)
  | [] => .ok []
  | text :: texts => do
    match ← ofString text with
    | separator => return separator :: texts.map plain
    | w => return w :: (← ofStrings texts)

end Word

end ScripCheck.Command
