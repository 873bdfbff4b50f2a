import ScripCheck.Number.Numeral

/-!
# Limits on diagnostics

How many diagnostics a run shows: a number that is not negative, where 0 stands for all.

* `Limit`: a limit that was asked for; the number may be left out.
* `readLimit`: the number that a word spells.
-/

namespace ScripCheck.Command

/-- A limit on the diagnostics. -/
inductive Limit where
  | count (n : Nat)
  /-- A limit without a number, as the option readers of release 3.11.7 and before accept it (see
  `Progress.takeJoined`). It lets a program pass, but no diagnostic can be held against it. -/
  | blank
deriving DecidableEq

/-- Why a word is no limit. -/
inductive LimitError where
  | notInteger (word : String)
  | negative (word : String)
deriving DecidableEq

/-- The text of a limit's error. -/
def LimitError.message : LimitError → String
  | notInteger word => "invalid error limit (expected integer): " ++ word
  | negative word => "invalid error limit (must be >= 0): " ++ word

/-- The limit that a word spells. -/
def readLimit (word : String) : Except LimitError Nat :=
  match readInteger? word with
  | none => .error (.notInteger word)
  | some n => if n < 0 then .error (.negative word) else .ok n.toNat

end ScripCheck.Command
