import ScripCheck.Number.Numeral
import ScripCheck.Number.Shortest
import ScripCheck.Text.Quoted

/-!
# Configuration values

The values of a TOML document. A table keeps its keys in the order in which they were added.

* `Value`, `Table`: values and tables; `Table.get?`, `Table.set`.
* `Date`, `Time`: calendar values. A moment is a date and a time with an optional offset.
* `Value.display`: a value as messages show it, if every integer in it can be written.
-/

namespace ScripCheck.Toml

/-- A day of the calendar. -/
structure Date where
  year : Nat
  month : Nat
  day : Nat
deriving DecidableEq

/-- A time of the day. -/
structure Time where
  hour : Nat
  minute : Nat
  second : Nat
  microsecond : Nat
deriving DecidableEq

/-- A value. -/
inductive Value where
  | str (s : String)
  | int (n : Int)
  | float (x : Binary64)
  | bool (b : Bool)
  | date (d : Date)
  | time (t : Time)
  /-- A date and a time. The offset from universal time is in minutes. -/
  | moment (d : Date) (t : Time) (offset : Option Int)
  | array (items : List Value)
  | table (entries : List (String × Value))

/-- The keys of a table and their values, in order. -/
abbrev Table := List (String × Value)

/-- The value of a key. -/
def Table.get? (t : Table) (key : String) : Option Value := List.lookup key t

/-- The table with the value of one key replaced, or added at the end. -/
def Table.set : Table → String → Value → Table
  | [], key, v => [(key, v)]
  | (k, w) :: t, key, v => if k = key then (k, v) :: t else (k, w) :: Table.set t key v

/-! ## Calendar values -/

namespace Date

/-- The days of a month of a year of the Gregorian calendar. -/
def daysIn (year month : Nat) : Nat :=
  if month = 2 then if year % 4 = 0 ∧ (year % 100 ≠ 0 ∨ year % 400 = 0) then 29 else 28
  else if month ∈ [4, 6, 9, 11] then 30 else 31

/-- The date exists; years count from 1. -/
def isValid (d : Date) : Bool :=
  1 ≤ d.year && 1 ≤ d.month && d.month ≤ 12 && 1 ≤ d.day && d.day ≤ daysIn d.year d.month

end Date

/-- A number with zeros before it, up to `width` digits. -/
def padded (width n : Nat) : String :=
  let ds := Nat.toDigits 10 n
  String.ofList (List.replicate (width - ds.length) '0' ++ ds)

/-- The date as years, months and days. -/
def Date.text (d : Date) : String :=
  padded 4 d.year ++ "-" ++ padded 2 d.month ++ "-" ++ padded 2 d.day

/-- The time as hours, minutes and seconds; the fraction is written if it is not zero. -/
def Time.text (t : Time) : String :=
  padded 2 t.hour ++ ":" ++ padded 2 t.minute ++ ":" ++ padded 2 t.second ++
    if t.microsecond = 0 then "" else "." ++ padded 6 t.microsecond

/-- The offset as hours and minutes. -/
def offsetText (minutes : Int) : String :=
  (if minutes < 0 then "-" else "+") ++ padded 2 (minutes.natAbs / 60) ++ ":" ++
    padded 2 (minutes.natAbs % 60)

/-! ## Values in messages -/

/-- Some texts with commas between them. -/
def commas (texts : List String) : String := String.intercalate ", " texts

/-- The fields of a date, for messages. -/
def Date.fields (d : Date) : List String := [toString d.year, toString d.month, toString d.day]

/-- The fields of a time, for messages: zero seconds and a zero fraction at the end are left out. -/
def Time.fields (t : Time) : List String :=
  [toString t.hour, toString t.minute] ++
    (if t.second = 0 ∧ t.microsecond = 0 then [] else [toString t.second]) ++
    if t.microsecond = 0 then [] else [toString t.microsecond]

/-- An offset, for messages: whole days and the seconds after them. -/
def offsetField (minutes : Int) : String :=
  if minutes = 0 then "tzinfo=datetime.timezone.utc"
  else
    let day := if minutes < 0 then "days=-1, " else ""
    "tzinfo=datetime.timezone(datetime.timedelta(" ++ day ++ "seconds=" ++
      toString (Int.fmod (minutes * 60) 86400) ++ "))"

mutual

/-- The value as messages show it. -/
def Value.display : Value → Option String
  | .str s => some (quoted s)
  | .int n => writeInteger? n
  | .float x => some (x.render .plain)
  | .bool b => some (if b then "True" else "False")
  | .date d => some ("datetime.date(" ++ commas d.fields ++ ")")
  | .time t => some ("datetime.time(" ++ commas t.fields ++ ")")
  | .moment d t offset =>
    some ("datetime.datetime(" ++
      commas (d.fields ++ t.fields ++ (offset.map offsetField).toList) ++ ")")
  | .array items => (displayItems items).map fun texts => "[" ++ commas texts ++ "]"
  | .table entries => (displayEntries entries).map fun texts => "\x7b" ++ commas texts ++ "\x7d"

/-- The items of an array. -/
def displayItems : List Value → Option (List String)
  | [] => some []
  | v :: vs => do return (← v.display) :: (← displayItems vs)

/-- The entries of a table. -/
def displayEntries : List (String × Value) → Option (List String)
  | [] => some []
  | (k, v) :: t => do return (quoted k ++ ": " ++ (← v.display)) :: (← displayEntries t)

end

end ScripCheck.Toml
