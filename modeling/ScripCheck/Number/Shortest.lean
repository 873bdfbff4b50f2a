import ScripCheck.Number.Binary64

/-!
# Shortest decimals

A finite floating-point number is written with the fewest digits that read back as the same number;
of several such decimals, with the nearest one, and of two equally near, with the even last digit.

* `Binary64.Interval`: the numbers that round to a value, as quotients over one denominator.
* `Binary64.shortest`: digits and the power of ten of the last one.
* `Layout`: how digits become text. `Layout.plain` is the layout that the dumps use.
-/

namespace ScripCheck

namespace Binary64

/-- The numbers between `lo / den` and `hi / den`, which round to `mid / den`. The ends belong to
the interval if `closed` holds. -/
structure Interval where
  lo : Nat
  mid : Nat
  hi : Nat
  den : Nat
  closed : Bool

namespace Interval

/-- The numbers that round to `m * 2 ^ q`. Below a power of two the next value is half as far. -/
def ofFields (exponent : Fin 2047) (fraction : Fin fractions) : Interval :=
  let m := significand exponent fraction
  let q := scale exponent - 2
  let below := if fraction.val = 0 ∧ 1 < exponent.val then 1 else 2
  let up := Nat.pow 2 q.toNat
  ⟨(4 * m - below) * up, 4 * m * up, (4 * m + 2) * up, Nat.pow 2 (-q).toNat, m % 2 = 0⟩

/-- The interval in units of `10 ^ g`. -/
def inUnits (i : Interval) (g : Int) : Interval :=
  let up := Nat.pow 10 (-g).toNat
  ⟨i.lo * up, i.mid * up, i.hi * up, i.den * Nat.pow 10 g.toNat, i.closed⟩

/-- The natural number `n` lies in the interval. -/
def holds (i : Interval) (n : Nat) : Bool :=
  if i.closed then i.lo ≤ n * i.den && n * i.den ≤ i.hi
  else i.lo < n * i.den && n * i.den < i.hi

/-- The natural number in the interval that is nearest to its middle. -/
def nearest? (i : Interval) : Option Nat :=
  let d := i.mid / i.den
  match i.holds d, i.holds (d + 1) with
  | true, true => some (roundDiv i.mid i.den)
  | true, false => some d
  | false, true => some (d + 1)
  | false, false => none

/-- The power of ten of the leading digit of the middle. -/
def leading (i : Interval) : Int :=
  let e := ((Nat.log2 i.mid : Int) - Nat.log2 i.den) * 30103 / 100000
  let reaches (e : Int) : Bool := i.den * Nat.pow 10 e.toNat ≤ i.mid * Nat.pow 10 (-e).toNat
  if reaches (e + 1) then e + 1 else if reaches e then e else e - 1

end Interval

/-- The digits of the shortest decimal that reads back as the value, and the power of ten of the
last digit. Seventeen digits are always enough. -/
def shortest (exponent : Fin 2047) (fraction : Fin fractions) : Nat × Int :=
  let i := Interval.ofFields exponent fraction
  let e := i.leading
  let digits? (n : Nat) : Option (Nat × Int) :=
    let g := e - n
    ((i.inUnits g).nearest?).map (·, g)
  ((List.range 17).findSome? digits?).getD (0, 0)

end Binary64

/-! ## Layout -/

/-- How a number is laid out as text. -/
structure Layout where
  /-- The least exponent of the leading digit that is written without an exponent part. -/
  least : Int
  /-- The least exponent above it that is written with an exponent part. -/
  above : Int
  /-- The exponent part has at least this many digits. -/
  exponentDigits : Nat

namespace Layout

/-- Numbers from `0.0001` up to, not including, `10 ^ 16` have no exponent part. -/
def plain : Layout := ⟨-4, 16, 2⟩

/-- The digits `ds`, the first of which stands for a multiple of `10 ^ e`, without exponent part. -/
def positional (ds : List Char) (e : Int) : List Char :=
  if e < 0 then '0' :: '.' :: List.replicate (-e - 1).toNat '0' ++ ds
  else
    let whole := e.toNat + 1
    let ds := ds ++ List.replicate (whole - ds.length) '0'
    ds.take whole ++ '.' :: (if ds.length ≤ whole then ['0'] else ds.drop whole)

/-- The same with an exponent part. -/
def scientific (l : Layout) (ds : List Char) (e : Int) : List Char :=
  let digits := Nat.toDigits 10 e.natAbs
  ds.take 1 ++ (if ds.length ≤ 1 then [] else '.' :: ds.drop 1) ++ 'e' ::
    (if e < 0 then '-' else '+') :: List.replicate (l.exponentDigits - digits.length) '0' ++ digits

/-- The number `digits * 10 ^ g` as text. -/
def write (l : Layout) (digits : Nat) (g : Int) : List Char :=
  let all := Nat.toDigits 10 digits
  let e := g + all.length - 1
  let ds := match (all.reverse.dropWhile (· == '0')).reverse with
    | [] => ['0']
    | ds => ds
  if l.least ≤ e ∧ e < l.above then positional ds e else l.scientific ds e

end Layout

/-- The number as text. -/
def Binary64.render (l : Layout) : Binary64 → String
  | nan => "nan"
  | infinite negative => if negative then "-inf" else "inf"
  | finite negative exponent fraction =>
    let (digits, g) :=
      if exponent.val = 0 ∧ fraction.val = 0 then (0, 0) else shortest exponent fraction
    String.ofList ((if negative then ['-'] else []) ++ l.write digits g)

end ScripCheck
