import ScripCheck.Command.Arguments
import ScripCheck.Files.Snapshot
import ScripCheck.Toml.Document

/-!
# Settings

What a run does: the arguments together with the configuration file. The file is the one that an
argument names, or `scrip.toml` beside the input; no file is an empty configuration. An argument
wins over the configuration, which is checked even so.

* `loadConfig`: the table of a configuration file.
* `Settings.resolve`: the settings for some arguments.
-/

namespace ScripCheck.Command

open Files

/-- The name of the configuration file beside an input. -/
def configName : String := "scrip.toml"

/-- Why there are no settings. -/
inductive ConfigError where
  | denied (d : Denial) (path : Path)
  | encoding (f : Utf8.Fault)
  | toml (r : Toml.Rejection)
  /-- The limit in the configuration is shown so, and is no number that is not negative. -/
  | limit (shown : String)
  /-- It is not such a number either, and cannot be shown. -/
  | unshownLimit

/-- The text of an error. -/
def ConfigError.message : ConfigError → String
  | denied d path => d.message path.toString
  | encoding f => f.message
  | toml r => r.message
  | limit shown => "invalid diagnostics.max_errors in config: " ++ shown
  | unshownLimit => tooLongMessage

/-- The error that a value is no limit. -/
def ConfigError.ofLimit (v : Toml.Value) : ConfigError :=
  match v.display with
  | some shown => limit shown
  | none => unshownLimit

/-- The table of the configuration file at a path; a path without a file is an empty table. -/
def loadConfig (files : Snapshot) (path : Path) : Except ConfigError Toml.Table :=
  match files.look path with
  | .error (.denied .nameTooLong) => .error (.denied .nameTooLong path)
  | .error _ => .ok []
  | .ok (.directory _) => .ok []
  | .ok (.file content _) =>
    match Utf8.decode content with
    | .error f => .error (.encoding f)
    | .ok cs =>
      match Toml.parse cs with
      | .error r => .error (.toml r)
      | .ok t => .ok t

/-- The entries of a table inside a table; none if the key has no table. -/
def section? (t : Toml.Table) (key : String) : Toml.Table :=
  match t.get? key with
  | some (.table entries) => entries
  | _ => []

/-- The limit that a configuration sets. -/
def configLimit (t : Toml.Table) : Except ConfigError (Option Nat) :=
  match (section? t "diagnostics").get? "max_errors" with
  | none => .ok none
  | some (.int n) => if n < 0 then .error (.ofLimit (.int n)) else .ok (some n.toNat)
  | some v => .error (.ofLimit v)

/-- A key of the section `debug` is set to true. -/
def configDebug (t : Toml.Table) (key : String) : Bool :=
  match (section? t "debug").get? key with
  | some (.bool b) => b
  | _ => false

/-- What a run does. -/
structure Settings where
  input : Path
  maxErrors : Limit
  tokens : Bool
  debug : Bool
  watch : Bool
deriving DecidableEq

/-- The input file. -/
def Arguments.inputPath (a : Arguments) : Path := .ofString a.input

/-- The configuration file; an empty name stands for none. -/
def Arguments.configPath (a : Arguments) : Path :=
  match a.config with
  | none => a.inputPath.parent.child configName
  | some name => if name.isEmpty then a.inputPath.parent.child configName else .ofString name

/-- The settings for some arguments. -/
def Settings.resolve (files : Snapshot) (a : Arguments) : Except ConfigError Settings := do
  let table ← loadConfig files a.configPath
  let limit ← configLimit table
  return {
    input := a.inputPath
    maxErrors := a.maxErrors.getD (.count (limit.getD 0))
    tokens := configDebug table "tokens" || a.tokens
    debug := configDebug table "ast" || a.debug
    watch := a.watch }

end ScripCheck.Command
