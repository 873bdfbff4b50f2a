import ScripCheck.Command.Option

/-!
# Arguments

What a command line asks for: an input file, and options in any order. A positional word that comes
after the input, and a word that is no option, are left over, which is an error of its own. Words
are read from left to right: a wrong value is reported before a missing input, and a missing input
before leftovers.

Words that join an option and a text, such as `--config=--` or `-hx`, are read as in release 3.11.7
of the option reader and before. Later releases read some of them in other ways.

* `Arguments.read`: the arguments that some words spell, or why the reading stops.
* `usageText`, `helpText`: what is shown then.
-/

namespace ScripCheck.Command

/-- What a command line asks for. -/
structure Arguments where
  input : String
  config : Option String
  maxErrors : Option Limit
  tokens : Bool
  debug : Bool
  watch : Bool
deriving DecidableEq

/-- Why the words are no arguments. -/
inductive Stop where
  /-- The help was asked for. -/
  | help
  | usage (e : UsageError)
deriving DecidableEq

/-- The usage of the command. -/
def usageText : String :=
  "usage: scrip [-h] [--config FILE] [--max-errors N] [--tokens] [--debug]\n" ++
  "             [--watch]\n" ++
  "             input\n"

/-- The help of the command. -/
def helpText : String :=
  usageText ++
  "\n" ++
  "Check Scrip source files for lexical and syntax errors\n" ++
  "\n" ++
  "positional arguments:\n" ++
  "  input           Input .scr file\n" ++
  "\n" ++
  "options:\n" ++
  "  -h, --help      show this help message and exit\n" ++
  "  --config FILE   Config file (default: auto-discover scrip.toml)\n" ++
  "  --max-errors N  Print at most N diagnostics, 0 for unlimited (default: 0)\n" ++
  "  --tokens        Dump the token stream to stderr\n" ++
  "  --debug         Dump AST to stderr\n" ++
  "  --watch         Watch for changes and recheck\n"

/-- The text of a usage error, under the usage. -/
def UsageError.text (e : UsageError) : String := usageText ++ "scrip: error: " ++ e.message ++ "\n"

/-! ## Reading -/

/-- What was read so far. -/
structure Progress where
  input : Option String
  config : Option String
  maxErrors : Option Limit
  tokens : Bool
  debug : Bool
  watch : Bool
  leftover : List String

namespace Progress

/-- Nothing was read. -/
def start : Progress := ⟨none, none, none, false, false, false, []⟩

/-- One more word is left over. -/
def leave (p : Progress) (text : String) : Progress := { p with leftover := p.leftover ++ [text] }

/-- A positional word: the input, if there is none yet. -/
def takePlain (p : Progress) (text : String) : Progress :=
  if p.input.isNone then { p with input := some text } else p.leave text

/-- An option that needs no value. -/
def takeFlag (p : Progress) : Switch → Except Stop Progress
  | .help => .error .help
  | .tokens => .ok { p with tokens := true }
  | .debug => .ok { p with debug := true }
  | .watch => .ok { p with watch := true }
  | o => .error (.usage (.valueMissing o))

/-- An option and its value. -/
def takeValue (p : Progress) (o : Switch) (value : String) : Except Stop Progress :=
  match o with
  | .config => .ok { p with config := some value }
  | .maxErrors =>
    match readLimit value with
    | .ok n => .ok { p with maxErrors := some (.count n) }
    | .error e => .error (.usage (.valueRefused o e))
  | _ => .error (.usage (.valueUnwanted o value))

/-- An option and the value after `=` in its word. The separator in that place stands for no value:
no configuration file, or a blank limit. From release 3.11.8 on it is a value like any other, the
name of a file, or a word that is refused as a limit. -/
def takeJoined (p : Progress) (o : Switch) (value : String) : Except Stop Progress :=
  if value = "--" then
    match o with
    | .config => .ok { p with config := none }
    | .maxErrors => .ok { p with maxErrors := some .blank }
    | _ => p.takeValue o value
  else p.takeValue o value

/-- What stops the reading at some text after the short option for help. The text may repeat the
option; anything else is a value, which the option does not take. -/
def repeatHelp : List Char → Stop
  | [] => .help
  | 'h' :: rest => repeatHelp rest
  | rest => .usage (.valueUnwanted .help (.ofList rest))

/-- What stops the reading at the short option for help, with `rest` after it in the same word. A
first `=` is no part of the value, and after it the value may be empty. Later releases of the option
reader give the help for `-hx`, and refuse the value in `-h=h`. -/
def shortHelp : List Char → Stop
  | ['='] => .usage (.valueUnwanted .help "")
  | '=' :: rest => repeatHelp rest
  | rest => repeatHelp rest

/-- What is read from some more words. The separator right before or after the input goes with
it. -/
def readWords (p : Progress) : List Word → Except Stop Progress
  | [] => .ok p
  | .separator :: .plain text :: ws =>
    if p.input.isNone then readWords (p.takePlain text) ws
    else readWords ((p.leave "--").leave text) ws
  | .separator :: ws => readWords (p.leave "--") ws
  | .plain text :: .separator :: ws =>
    if p.input.isNone then readWords (p.takePlain text) ws
    else readWords (p.leave text) (.separator :: ws)
  | .plain text :: ws => readWords (p.takePlain text) ws
  | .unknown text :: ws => readWords (p.leave text) ws
  | .shortHelp rest :: _ => .error (shortHelp rest)
  | .switch o (some value) :: ws => do readWords (← p.takeJoined o value) ws
  | .switch o none :: .plain text :: ws =>
    if o.takesValue then do readWords (← p.takeValue o text) ws
    else do readWords (← p.takeFlag o) (.plain text :: ws)
  | .switch o none :: ws => do readWords (← p.takeFlag o) ws
termination_by ws => ws.length

/-- The arguments, if the input is there and no word is left over. -/
def arguments (p : Progress) : Except Stop Arguments :=
  match p.input, p.leftover with
  | none, _ => .error (.usage .inputMissing)
  | some input, [] => .ok ⟨input, p.config, p.maxErrors, p.tokens, p.debug, p.watch⟩
  | some _, words => .error (.usage (.unrecognized words))

end Progress

/-- The arguments that some words spell. -/
def Arguments.read (texts : List String) : Except Stop Arguments :=
  match Word.ofStrings texts with
  | .error e => .error (.usage e)
  | .ok words => do (← Progress.start.readWords words).arguments

end ScripCheck.Command
