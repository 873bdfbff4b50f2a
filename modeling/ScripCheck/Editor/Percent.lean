import ScripCheck.Text.Digit
import ScripCheck.Text.Utf8

/-!
# Percent signs

In the name of a document a byte may be written as `%` and two hexadecimal digits; the bytes that
are written so, or as ASCII characters, are read as UTF-8.

* `percentDecode`: the text that is meant.
-/

namespace ScripCheck.Editor

/-- The byte that two hexadecimal digits write. -/
def hexByte? (a b : Char) : Option UInt8 := do
  return (16 * (← digitIn? 16 a) + (← digitIn? 16 b)).toUInt8

/-- The bytes of an ASCII text. -/
def asciiBytes : List Char → List UInt8
  | '%' :: a :: b :: cs =>
    match hexByte? a b with
    | some byte => byte :: asciiBytes cs
    | none => '%'.toNat.toUInt8 :: asciiBytes (a :: b :: cs)
  | c :: cs => c.toNat.toUInt8 :: asciiBytes cs
  | [] => []

/-- An ASCII character. -/
def isAscii (c : Char) : Bool := c.toNat < 0x80

/-- The text that is meant by a run of characters that are all ASCII, or none of them. -/
def decodeRun (run : List Char) : List Char :=
  if run.all isAscii then Utf8.decodeLossy (asciiBytes run) else run

/-- The text that is meant by a URI or a part of one. -/
def percentDecode (cs : List Char) : List Char :=
  (cs.splitBy fun a b => isAscii a == isAscii b).flatMap decodeRun

end ScripCheck.Editor
