import ScripCheck.Number.Numeral

/-!
# Floating-point numbers

The values of the 64-bit binary format. A finite value is a sign, an exponent field and a fraction
field, so each value has one form.

* `Binary64.significand`, `Binary64.scale`: a finite magnitude is `significand * 2 ^ scale`.
* `Binary64.ofRatio`: the value nearest to a quotient; a tie goes to the even significand.
* `Binary64.ofNumeral`: the value nearest to a numeral.
-/

namespace ScripCheck

/-- `num / den` rounded to the nearest natural number, a tie to the even one. -/
def roundDiv (num den : Nat) : Nat :=
  let q := num / den
  let twice := 2 * (num % den)
  if den < twice ∨ (twice = den ∧ q % 2 = 1) then q + 1 else q

/-- The number of fractions that an exponent field goes with: two to the power 52. -/
abbrev Binary64.fractions : Nat := 0x10000000000000

/-- A value of the 64-bit binary format. -/
inductive Binary64 where
  | nan
  | infinite (negative : Bool)
  | finite (negative : Bool) (exponent : Fin 2047) (fraction : Fin Binary64.fractions)
deriving DecidableEq

namespace Binary64

/-- The significand of a finite value, with the leading bit that the fields leave out. -/
def significand (exponent : Fin 2047) (fraction : Fin fractions) : Nat :=
  if exponent.val = 0 then fraction.val else fractions + fraction.val

/-- The power of two of the last place of the significand. -/
def scale (exponent : Fin 2047) : Int := max exponent.val 1 - 1075

/-- The value with the magnitude `m * 2 ^ (place - 1074)`, where `m` is at most `2 ^ 53` and, unless
`place` is 0, at least `2 ^ 52`. A magnitude past the largest is infinite. -/
def pack (negative : Bool) (m place : Nat) : Binary64 :=
  let bits := place * fractions + m
  if h : bits / fractions < 2047 then
    finite negative ⟨bits / fractions, h⟩ ⟨bits % fractions, Nat.mod_lt _ (by decide)⟩
  else infinite negative

/-- The greatest `k` with `2 ^ k ≤ num / den`, for positive numbers. -/
def floorLog2 (num den : Nat) : Int :=
  let k : Int := (Nat.log2 num : Int) - Nat.log2 den
  if den * Nat.pow 2 k.toNat ≤ num * Nat.pow 2 (-k).toNat then k else k - 1

/-- The value nearest to `num / den`. -/
def ofRatio (negative : Bool) (num den : Nat) : Binary64 :=
  let place := if num = 0 then 0 else (floorLog2 num den - 52 + 1074).toNat
  pack negative (roundDiv (num * Nat.pow 2 1074) (den * Nat.pow 2 place)) place

/-- The value nearest to `digits * 10 ^ exponent`. Numbers that are far out of range are not
computed: 310 digits before the point are too many, and 330 zeros after it. -/
def ofDecimal (negative : Bool) (digits : Nat) (exponent : Int) : Binary64 :=
  let magnitude : Int := (Nat.toDigits 10 digits).length + exponent
  if digits = 0 ∨ magnitude < -330 then ofRatio negative 0 1
  else if 310 < magnitude then infinite negative
  else ofRatio negative (digits * Nat.pow 10 exponent.toNat) (Nat.pow 10 (-exponent).toNat)

/-- The value nearest to what a numeral stands for. -/
def ofNumeral : Numeral → Binary64
  | .nan => nan
  | .infinite negative => infinite negative
  | .decimal negative digits exponent => ofDecimal negative digits exponent

/-- The value that a text spells. -/
def read? (s : String) : Option Binary64 := (Numeral.read? s).map ofNumeral

end Binary64

end ScripCheck
