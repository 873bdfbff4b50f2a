import ScripCheck.Toml.Error
import ScripCheck.Toml.Value

/-!
# Scalars of a configuration

Texts between quotes, numbers, and calendar values. Every function reads from the front of a text
and returns what is left.

* `rawText`, `basicText`: a text between single quotes, or between double ones, which has escapes.
* `multilineText`: a text between three quotes.
* `number?`: an integer or a float; `calendar?`: a date, a time, or a moment.
-/

namespace ScripCheck.Toml

/-- A blank within a line. -/
def isGap (c : Char) : Bool := c == ' ' || c == '\t'

/-- A blank, or the end of a line. -/
def isGapOrBreak (c : Char) : Bool := isGap c || c == '\n'

/-- A control character that no text on one line may hold. -/
def isControl (c : Char) : Bool := (c.toNat < 32 && c != '\t') || c.toNat == 127

/-- A control character that no text may hold, on one line or on several. -/
def isForbidden (multiline : Bool) (c : Char) : Bool := isControl c && !(multiline && c == '\n')

/-- What stands before the first `mark`, and what stands after it. -/
def breakOn (mark : List Char) : List Char → Option (List Char × List Char)
  | [] => if mark = [] then some ([], []) else none
  | c :: cs =>
    if mark.isPrefixOf (c :: cs) then some ([], (c :: cs).drop mark.length)
    else (breakOn mark cs).map fun (a, b) => (c :: a, b)

/-- A raw text up to the mark that closes it. -/
def rawText (mark : String) (multiline : Bool) (s : List Char) :
    Except Error (List Char × List Char) :=
  match breakOn mark.toList s with
  | none => .error ⟨.expected mark, []⟩
  | some (body, rest) =>
    match body.find? (isForbidden multiline) with
    | some c => .error ⟨.invalidCharacter c, s.dropWhile (!isForbidden multiline ·)⟩
    | none => .ok (body, rest)

/-! ## Escapes -/

/-- The characters with an escape of one letter. -/
def shortEscapes : List (Char × Char) :=
  [('b', '\x08'), ('t', '\t'), ('n', '\n'), ('f', '\x0c'), ('r', '\r'), ('"', '"'), ('\\', '\\')]

/-- The character whose code point the next `width` hexadecimal digits spell. -/
def hexEscape (width : Nat) (s : List Char) : Except Error (List Char × List Char) :=
  let ds := (s.take width).filterMap (digitIn? 16)
  let n := ds.foldl (fun n d => 16 * n + d) 0
  if ds.length ≠ width then .error ⟨.hex, s⟩
  else if n.isValidChar then .ok ([Char.ofNat n], s.drop width)
  else .error ⟨.notScalar, s.drop width⟩

/-- What stands for an escape. The text `s` is what follows the backslash. In a text of several
lines a backslash before blanks and a line break stands for nothing, and takes the blanks after it
along. -/
def escaped (multiline : Bool) (s : List Char) : Except Error (List Char × List Char) :=
  match s with
  | [] => .error ⟨.escape, []⟩
  | c :: cs =>
    if multiline ∧ isGapOrBreak c then
      match s.dropWhile isGap with
      | [] => .ok ([], [])
      | '\n' :: r => .ok ([], r.dropWhile isGapOrBreak)
      | r => .error ⟨.escape, r⟩
    else if c = 'u' then hexEscape 4 cs
    else if c = 'U' then hexEscape 8 cs
    else match shortEscapes.lookup c with
      | some d => .ok ([d], cs)
      | none => .error ⟨.escape, cs⟩

theorem length_dropWhile_le {p : Char → Bool} (s : List Char) :
    (s.dropWhile p).length ≤ s.length := (List.dropWhile_suffix p).length_le

theorem length_hexEscape_le {width : Nat} {s r a : List Char}
    (h : hexEscape width s = .ok (a, r)) : r.length ≤ s.length := by
  unfold hexEscape at h
  dsimp only at h
  split at h
  · cases h
  · split at h
    · cases h; simp
    · cases h

theorem length_escaped_le {multiline : Bool} {s r a : List Char}
    (h : escaped multiline s = .ok (a, r)) : r.length ≤ s.length := by
  unfold escaped at h
  split at h
  · cases h
  · next c cs =>
    split at h
    · split at h
      · cases h; simp
      · next r' hr =>
        cases h
        have h1 := length_dropWhile_le (p := isGap) (c :: cs)
        have h2 := length_dropWhile_le (p := isGapOrBreak) r'
        rw [hr] at h1
        simp only [List.length_cons] at h1 ⊢
        omega
      · cases h
    · split at h
      · exact Nat.le_succ_of_le (length_hexEscape_le h)
      · split at h
        · exact Nat.le_succ_of_le (length_hexEscape_le h)
        · split at h
          · cases h; simp
          · cases h

/-- A text up to the double quote, or the three double quotes, that close it. -/
def basicText (multiline : Bool) (s : List Char) : Except Error (List Char × List Char) :=
  match s with
  | [] => .error ⟨.unterminated, []⟩
  | c :: cs =>
    if c = '"' then
      if !multiline then .ok ([], cs)
      else if ['"', '"'].isPrefixOf cs then .ok ([], cs.drop 2)
      else (basicText multiline cs).map fun (a, r) => (c :: a, r)
    else if c = '\\' then
      match h : escaped multiline cs with
      | .error e => .error e
      | .ok (a, r) =>
        have := length_escaped_le h
        (basicText multiline r).map fun (b, r) => (a ++ b, r)
    else if isForbidden multiline c then .error ⟨.illegalCharacter c, s⟩
    else (basicText multiline cs).map fun (a, r) => (c :: a, r)
termination_by s.length

/-- A text between three quotes; `s` is what follows the first three. A line break right there is no
part of it, and up to two quotes right before the last three are. -/
def multilineText (quote : Char) (s : List Char) : Except Error (String × List Char) := do
  let s := match s with
    | '\n' :: r => r
    | _ => s
  let (body, rest) ←
    if quote = '\'' then rawText "'''" true s else basicText true s
  let extra := (rest.take 2).takeWhile (· == quote)
  return (.ofList (body ++ extra), rest.drop extra.length)

/-! ## Numbers -/

/-- The digits at the front, with single underscores between them. -/
def digitRow (isDigit : Char → Bool) : List Char → List Char × List Char
  | '_' :: c :: cs =>
    if isDigit c then
      let (ds, r) := digitRow isDigit cs
      (c :: ds, r)
    else ([], '_' :: c :: cs)
  | c :: cs =>
    if isDigit c then
      let (ds, r) := digitRow isDigit cs
      (c :: ds, r)
    else ([], c :: cs)
  | [] => ([], [])

/-- The digits at the front, if there is one. -/
def digitRow? (isDigit : Char → Bool) : List Char → Option (List Char × List Char)
  | c :: cs =>
    if isDigit c then
      let (ds, r) := digitRow isDigit cs
      some (c :: ds, r)
    else none
  | [] => none

/-- An integer in base 2, 8 or 16. -/
def radixInteger? : List Char → Option (Value × List Char)
  | '0' :: mark :: s => do
    let base ← [('x', 16), ('o', 8), ('b', 2)].lookup mark
    let (ds, r) ← digitRow? (fun c => (digitIn? base c).isSome) s
    return (.int (ds.foldl (fun n d => base * n + (digitIn? base d).getD 0) 0 : Nat), r)
  | _ => none

/-- The digits before the point: zero, or a row that does not start with it. -/
def wholePart? : List Char → Option (List Char × List Char)
  | '0' :: s => some (['0'], s)
  | s => digitRow? Char.isDigit s

/-- A point and digits, if both are there. -/
def fraction? : List Char → Option (List Char × List Char)
  | '.' :: s => digitRow? Char.isDigit s
  | _ => none

/-- An exponent, if it is complete. -/
def exponent? : List Char → Option (Int × List Char)
  | c :: s =>
    if c = 'e' ∨ c = 'E' then
      let (negative, s) := splitSign s
      (digitRow? Char.isDigit s).map fun (ds, r) =>
        (if negative then -(digitsValue ds : Int) else digitsValue ds, r)
    else none
  | [] => none

/-- A decimal number: an integer if it has neither fraction nor exponent. -/
def decimal? (s : List Char) : Option (Except Error (Value × List Char)) := do
  let (negative, s) := splitSign s
  let (whole, s) ← wholePart? s
  let part := fraction? s
  let (ds, s) := part.getD ([], s)
  let power := exponent? s
  let (e, s) := power.getD (0, s)
  if part.isNone ∧ power.isNone then
    let n : Int := digitsValue whole
    if maxDigits < whole.length then return .error ⟨.digits whole.length maxDigits, s⟩
    return .ok (.int (if negative then -n else n), s)
  return .ok (.float (.ofDecimal negative (digitsValue (whole ++ ds)) (e - ds.length)), s)

/-- The words for what is no finite number. -/
def special? (s : List Char) : Option (Value × List Char) :=
  let (negative, r) := splitSign s
  if "inf".toList.isPrefixOf r then some (.float (.infinite negative), r.drop 3)
  else if "nan".toList.isPrefixOf r then some (.float .nan, r.drop 3)
  else none

/-- A number. -/
def number? (s : List Char) : Option (Except Error (Value × List Char)) :=
  ((radixInteger? s).map .ok).or ((decimal? s).or ((special? s).map .ok))

/-! ## Calendar values -/

/-- A number of exactly `width` digits between two bounds. -/
def fixed? (width lo hi : Nat) (s : List Char) : Option (Nat × List Char) :=
  let ds := s.take width
  let n := digitsValue ds
  if ds.length = width ∧ ds.all Char.isDigit ∧ lo ≤ n ∧ n ≤ hi then some (n, s.drop width) else none

/-- The text after a given character. -/
def after? (c : Char) : List Char → Option (List Char)
  | d :: s => if d = c then some s else none
  | [] => none

/-- A date, which need not exist. -/
def date? (s : List Char) : Option (Date × List Char) := do
  let (year, s) ← fixed? 4 0 9999 s
  let (month, s) ← fixed? 2 1 12 (← after? '-' s)
  let (day, s) ← fixed? 2 1 31 (← after? '-' s)
  return (⟨year, month, day⟩, s)

/-- The digits after the point of a second, cut to microseconds. -/
def microseconds (s : List Char) : Nat × List Char :=
  match s with
  | '.' :: r =>
    let ds := r.takeWhile Char.isDigit
    if ds.isEmpty then (0, s)
    else (digitsValue ((ds ++ List.replicate 6 '0').take 6), r.dropWhile Char.isDigit)
  | _ => (0, s)

/-- A time of the day. -/
def time? (s : List Char) : Option (Time × List Char) := do
  let (hour, s) ← fixed? 2 0 23 s
  let (minute, s) ← fixed? 2 0 59 (← after? ':' s)
  let (second, s) ← fixed? 2 0 59 (← after? ':' s)
  let (microsecond, s) := microseconds s
  return (⟨hour, minute, second, microsecond⟩, s)

/-- An offset from universal time, in minutes. -/
def offset? (s : List Char) : Option (Int × List Char) :=
  match s with
  | [] => none
  | c :: r =>
    if c = 'Z' ∨ c = 'z' then some (0, r)
    else if c = '+' ∨ c = '-' then do
      let (hour, r) ← fixed? 2 0 23 r
      let (minute, r) ← fixed? 2 0 59 (← after? ':' r)
      let n : Int := (60 * hour + minute : Nat)
      return (if c = '-' then -n else n, r)
    else none

/-- The time of a moment, after the letter or the blank that follows its date. -/
def timeOfMoment? (s : List Char) : Option (Time × List Char) :=
  match s with
  | c :: r => if c = 'T' ∨ c = 't' ∨ c = ' ' then time? r else none
  | [] => none

/-- A date, a moment or a time. -/
def calendar? (s : List Char) : Option (Except Error (Value × List Char)) :=
  match date? s with
  | none => (time? s).map fun (t, r) => .ok (.time t, r)
  | some (d, r) =>
    some <|
      if !d.isValid then .error ⟨.date, s⟩
      else match timeOfMoment? r with
        | none => .ok (.date d, r)
        | some (t, r) =>
          match offset? r with
          | none => .ok (.moment d t none, r)
          | some (o, r) => .ok (.moment d t (some o), r)

end ScripCheck.Toml
