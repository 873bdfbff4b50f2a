import ScripCheck.Text.Blank
import ScripCheck.Text.Digit

/-!
# Numerals

Numbers may have blanks around them, a sign, and single underscores between digits; the digits may
be those of any script.

* `ungroup?`: a text without its underscores, if each stands between two digits.
* `readInteger?`: an integer of at most `maxDigits` digits; `writeInteger?`: its decimal text.
* `Numeral.read?`: a decimal fraction with an optional exponent, an infinity, or not a number.
-/

namespace ScripCheck

/-- The value of a row of ASCII digits. -/
def digitsValue (ds : List Char) : Nat := ds.foldl (fun n d => 10 * n + (d.toNat - 48)) 0

/-- The text without underscores, each of which must stand between two digits. `last` is the
character before the text. -/
def ungroupAfter? (last : Char) : List Char → Option (List Char)
  | [] => if last = '_' then none else some []
  | c :: cs =>
    if c = '_' then if last.isDigit then ungroupAfter? c cs else none
    else if last = '_' ∧ ¬ c.isDigit then none
    else (ungroupAfter? c cs).map (c :: ·)

/-- The text without underscores, each of which must stand between two digits. -/
def ungroup? (cs : List Char) : Option (List Char) := ungroupAfter? ' ' cs

/-- Whether the text starts with a minus sign, and the text without its sign. -/
def splitSign : List Char → Bool × List Char
  | '-' :: cs => (true, cs)
  | '+' :: cs => (false, cs)
  | cs => (false, cs)

/-- The characters of a numeral that decide its value. -/
def numeralChars? (s : String) : Option (List Char) := ungroup? ((trim s.toList).map asciiDigit)

/-- An integer may have this many digits; in a text that is read, leading zeros count. -/
def maxDigits : Nat := 4300

/-- The integer that a text spells. -/
def readInteger? (s : String) : Option Int := do
  let (negative, ds) := splitSign (← numeralChars? s)
  guard (ds ≠ [] ∧ ds.all Char.isDigit ∧ ds.length ≤ maxDigits)
  let n : Int := digitsValue ds
  return if negative then -n else n

/-- The decimal text of an integer. -/
def writeInteger? (n : Int) : Option String :=
  if n.natAbs < Nat.pow 10 maxDigits then some (toString n) else none

/-- The text of the error that an integer has too many digits to be written. -/
def tooLongMessage : String :=
  "Exceeds the limit (" ++ toString maxDigits ++
    " digits) for integer string conversion; use sys.set_int_max_str_digits() to increase the limit"

/-! ## Fractions -/

/-- What a numeral stands for. -/
inductive Numeral where
  | nan
  | infinite (negative : Bool)
  /-- The number `digits * 10 ^ exponent`, or its opposite. -/
  | decimal (negative : Bool) (digits : Nat) (exponent : Int)

namespace Numeral

/-- An exponent: nothing, or `e` and a signed row of digits. -/
def exponent? : List Char → Option Int
  | [] => some 0
  | e :: cs =>
    if e = 'e' ∨ e = 'E' then
      let (negative, ds) := splitSign cs
      if ds ≠ [] ∧ ds.all Char.isDigit then
        let n : Int := digitsValue ds
        some (if negative then -n else n)
      else none
    else none

/-- A decimal fraction without its sign: digits before the point, after it, or both. -/
def decimal? (negative : Bool) (cs : List Char) : Option Numeral :=
  let whole := cs.takeWhile Char.isDigit
  let (part, rest) := match cs.dropWhile Char.isDigit with
    | '.' :: r => (r.takeWhile Char.isDigit, r.dropWhile Char.isDigit)
    | r => ([], r)
  if whole = [] ∧ part = [] then none
  else (exponent? rest).map fun e =>
    decimal negative (digitsValue (whole ++ part)) (e - part.length)

/-- The words for what is no finite number, in any case of letters. -/
def word? (negative : Bool) (cs : List Char) : Option Numeral :=
  match String.ofList (cs.map Char.toLower) with
  | "inf" => some (infinite negative)
  | "infinity" => some (infinite negative)
  | "nan" => some nan
  | _ => none

/-- What a text spells. -/
def read? (s : String) : Option Numeral := do
  let (negative, cs) := splitSign (← numeralChars? s)
  (word? negative cs).or (decimal? negative cs)

end Numeral

end ScripCheck
