import ScripCheck.Text.Printable

/-!
# Quoted text

A text on one line, between quotes, with everything that is not printable escaped. The quotes are
single ones, unless the text has a single quote and no double one.

* `quoteMark`: which quote is used; `escape`: one character inside the quotes.
* `quotedBy`: the whole text, for any class of printable characters. `quoted`: for that of
  `isPrintable`.
-/

namespace ScripCheck

/-- The last `width` hexadecimal digits of `n`. -/
def hexDigits : Nat → Nat → List Char
  | 0, _ => []
  | width + 1, n => hexDigits width (n / 16) ++ [Nat.digitChar (n % 16)]

/-- The quote that delimits a text. -/
def quoteMark (cs : List Char) : Char := if '\'' ∈ cs ∧ '"' ∉ cs then '"' else '\''

/-- One character of a text that is delimited by `mark`. -/
def escape (printable : Char → Bool) (mark c : Char) : List Char :=
  if c = mark ∨ c = '\\' then ['\\', c]
  else if c = '\n' then ['\\', 'n']
  else if c = '\r' then ['\\', 'r']
  else if c = '\t' then ['\\', 't']
  else if printable c then [c]
  else if c.toNat < 0x100 then '\\' :: 'x' :: hexDigits 2 c.toNat
  else if c.toNat < 0x10000 then '\\' :: 'u' :: hexDigits 4 c.toNat
  else '\\' :: 'U' :: hexDigits 8 c.toNat

/-- A text between quotes, where some characters are printable. -/
def quotedBy (printable : Char → Bool) (s : String) : String :=
  let mark := quoteMark s.toList
  String.ofList (mark :: s.toList.flatMap (escape printable mark) ++ [mark])

/-- A text between quotes. -/
def quoted (s : String) : String := quotedBy isPrintable s

end ScripCheck
