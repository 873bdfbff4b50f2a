import ScripCheck.Toml.Scalar

/-!
# Documents

A document is read statement by statement. Headers and dotted keys open tables inside tables; the
document remembers which of them may not be opened or changed again.

* `Reader`: reading from the front of a text.
* `value`: any value; arrays and inline tables hold values.
* `Document`: the tables so far, and their marks. `Document.openTable`, `Document.openArrayTable`
  and `Document.assign` are the three statements.
* `parse`: the table of a whole document.
-/

namespace ScripCheck.Toml

/-- Reads from the front of a text, and leaves the rest. -/
abbrev Reader := StateT (List Char) (Except Error)

/-- Gives up at the current place. -/
def fail {α : Type} (p : Problem) : Reader α := fun s => .error ⟨p, s⟩

/-- Reads with a function on texts. -/
def reading {α : Type} (f : List Char → Except Error (α × List Char)) : Reader α := f

/-- Skips the characters of a class. -/
def skip (p : Char → Bool) : Reader Unit := modify (·.dropWhile p)

/-- Takes the text `mark`, if it comes next. -/
def take? (mark : String) : Reader Bool := do
  let s ← get
  if mark.toList.isPrefixOf s then
    set (s.drop mark.length)
    return true
  return false

/-- Takes the text `mark`, which must come next. -/
def take (mark : String) (p : Problem) : Reader Unit := do
  if !(← take? mark) then fail p

/-- Skips a comment, up to the end of its line. -/
def comment : Reader Unit := do
  if ← take? "#" then
    skip fun c => !isControl c
    match ← get with
    | c :: _ => if c ≠ '\n' then fail (.invalidCharacter c)
    | [] => return

/-- Skips blanks, line breaks and comments. There are at most `n` comments. -/
def gaps : Nat → Reader Unit
  | 0 => skip isGapOrBreak
  | n + 1 => do
    skip isGapOrBreak
    match ← get with
    | '#' :: _ => do
      comment
      gaps n
    | _ => return

/-- Skips the blanks, line breaks and comments inside an array. -/
def arrayGaps : Reader Unit := do gaps (← get).length

/-! ## Keys -/

/-- A character of a key without quotes. -/
def isBare (c : Char) : Bool := c.isAlphanum || c == '-' || c == '_'

/-- One word of a key. -/
def keyWord : Reader String := do
  match ← get with
  | '\'' :: s => do
    set s
    let body ← reading (rawText "'" false)
    return .ofList body
  | '"' :: s => do
    set s
    let body ← reading (basicText false)
    return .ofList body
  | s => do
    let word := s.takeWhile isBare
    if word.isEmpty then fail .keyStart
    set (s.dropWhile isBare)
    return .ofList word

/-- The words of a key after its first one, at most `n`. -/
def keyTail : Nat → Reader Path
  | 0 => return []
  | n + 1 => do
    skip isGap
    if ← take? "." then
      skip isGap
      let word ← keyWord
      return word :: (← keyTail n)
    return []

/-- A dotted key, and the blanks after it. -/
def key : Reader Path := do
  let first ← keyWord
  let more ← keyTail (← get).length
  return first :: more

/-! ## Values -/

/-- A text between quotes. -/
def text : Reader String := do
  let s ← get
  if "\"\"\"".toList.isPrefixOf s then do
    set (s.drop 3)
    reading (multilineText '"')
  else if "'''".toList.isPrefixOf s then do
    set (s.drop 3)
    reading (multilineText '\'')
  else keyWord

/-- A value that holds no other value. -/
def scalar : Reader Value := do
  let s ← get
  match s with
  | '"' :: _ | '\'' :: _ => return .str (← text)
  | _ =>
    if ← take? "true" then return .bool true
    if ← take? "false" then return .bool false
    match (calendar? s).or (number? s) with
    | some r => reading fun _ => r
    | none => fail .value

/-- A table that is being filled in: `f` changes the table at the path, which is made if it is not
there. Through an array the path goes to its last table, if `arrays` holds. -/
def Table.modifyAt (arrays : Bool) (f : Table → Option Table) : Path → Table → Option Table
  | [], t => f t
  | k :: path, t =>
    match t.get? k with
    | none => (modifyAt arrays f path []).map fun u => t.set k (.table u)
    | some (.table u) => (modifyAt arrays f path u).map fun u => t.set k (.table u)
    | some (.array items) =>
      match arrays, items.getLast? with
      | true, some (.table u) =>
        (modifyAt arrays f path u).map fun u => t.set k (.array (items.dropLast ++ [.table u]))
      | _, _ => none
    | some _ => none

/-- The table at the path. -/
def Table.at? (arrays : Bool) : Path → Table → Option Table
  | [], t => some t
  | k :: path, t =>
    match t.get? k with
    | none => some []
    | some (.table u) => at? arrays path u
    | some (.array items) =>
      match arrays, items.getLast? with
      | true, some (.table u) => at? arrays path u
      | _, _ => none
    | some _ => none

/-- A value that holds values. -/
def Value.isCompound : Value → Bool
  | .array _ | .table _ => true
  | _ => false

/-- Some path of the list leads to the place, or to something around it. -/
def covers (paths : List Path) (path : Path) : Bool := paths.any (·.isPrefixOf path)

/-- Adds an entry to an inline table. The paths in `closed` hold values that are complete. -/
def addInline (t : Table) (closed : List Path) (path : Path) (v : Value) : Reader Table := do
  if covers closed path then fail (.immutable path)
  let word := path.getLastD ""
  match t.at? false path.dropLast with
  | none => fail .overwritten
  | some nest =>
    if (nest.get? word).isSome then fail (.duplicate word)
    match t.modifyAt false (fun u => some (u.set word v)) path.dropLast with
    | some t => return t
    | none => fail .overwritten

mutual

/-- A value. Every value and every item takes a character, so the length of the text bounds how many
of them there can be; `n` is such a bound. -/
def valueWithin : Nat → Reader Value
  | 0 => fail .value
  | n + 1 => do
    if ← take? "[" then
      arrayGaps
      if ← take? "]" then return .array []
      return .array (← itemsWithin n)
    if ← take? "\x7b" then
      skip isGap
      if ← take? "\x7d" then return .table []
      return .table (← entriesWithin n [] [])
    scalar

/-- The items of an array that has one more, and the bracket after them. -/
def itemsWithin : Nat → Reader (List Value)
  | 0 => fail .arrayOpen
  | n + 1 => do
    let v ← valueWithin n
    arrayGaps
    if ← take? "]" then return [v]
    take "," .arrayOpen
    arrayGaps
    if ← take? "]" then return [v]
    return v :: (← itemsWithin n)

/-- The entries of an inline table that has one more, and the brace after them. -/
def entriesWithin : Nat → Table → List Path → Reader Table
  | 0, _, _ => fail .inlineOpen
  | n + 1, t, closed => do
    let path ← key
    take "=" .equalsMissing
    skip isGap
    let v ← valueWithin n
    let t ← addInline t closed path v
    skip isGap
    if ← take? "\x7d" then return t
    take "," .inlineOpen
    skip isGap
    entriesWithin n t (if v.isCompound then path :: closed else closed)

end

/-- A value. There is no limit on how deep values nest. -/
def value : Reader Value := do valueWithin (2 * (← get).length + 2)

/-! ## Statements -/

/-- A document as far as it is read. -/
structure Document where
  /-- The tables. -/
  root : Table
  /-- The tables that no header may open, and no dotted key may extend. -/
  declared : List Path
  /-- The values that are complete, with all that they hold. -/
  closed : List Path
  /-- The tables that the next header adds to the declared ones. -/
  pending : List Path
  /-- The table that the last header opened. -/
  header : Path

namespace Document

/-- The document with nothing in it. -/
def empty : Document := ⟨[], [], [], [], []⟩

/-- The document at a header: the tables of dotted keys are declared now. -/
def settle (d : Document) : Document :=
  { d with declared := d.declared ++ d.pending, pending := [] }

/-- Opens the table at the path for the statements after its header. -/
def openTable (d : Document) (path : Path) : Except Problem Document :=
  if path ∈ d.declared ∨ covers d.closed path then .error (.declaredTwice path)
  else match d.root.modifyAt true some path with
    | none => .error .overwritten
    | some root => .ok { d with root, declared := path :: d.declared, header := path }

/-- Adds an empty table to an array of tables, or starts one with it. -/
def appendTable (word : String) (t : Table) : Option Table :=
  match t.get? word with
  | none => some (t.set word (.array [.table []]))
  | some (.array items) => some (t.set word (.array (items ++ [.table []])))
  | some _ => none

/-- Opens the next table of the array at the path. What was declared inside the table before it is
forgotten. -/
def openArrayTable (d : Document) (path : Path) : Except Problem Document :=
  if covers d.closed path then .error (.immutable path)
  else match d.root.modifyAt true (appendTable (path.getLastD "")) path.dropLast with
    | none => .error .overwritten
    | some root =>
      .ok { d with
        root
        declared := path :: d.declared.filter (!path.isPrefixOf ·)
        closed := d.closed.filter (!path.isPrefixOf ·)
        header := path }

/-- The paths from the header to the tables that a dotted key goes through. -/
def through (d : Document) (path : Path) : List Path :=
  (List.range (path.length - 1)).map fun i => d.header ++ path.take (i + 1)

/-- Gives a key of the table at the header its value. -/
def assign (d : Document) (path : Path) (v : Value) : Except Problem Document :=
  let parent := d.header ++ path.dropLast
  let word := path.getLastD ""
  match (d.through path).find? (d.declared.contains ·) with
  | some p => .error (.redefined p)
  | none =>
    if covers d.closed parent then .error (.immutable parent)
    else match d.root.modifyAt true (fun t =>
        if (t.get? word).isSome then none else some (t.set word v)) parent with
      | none => .error .overwritten
      | some root =>
        .ok { d with
          root
          pending := d.pending ++ d.through path
          closed := if v.isCompound then (d.header ++ path) :: d.closed else d.closed }

end Document

/-- What a step on documents gives, or its problem at the current place. -/
def settled (r : Except Problem Document) : Reader Document :=
  match r with
  | .ok d => return d
  | .error p => fail p

/-- One statement, at its first character. -/
def statement (d : Document) : Reader Document := do
  match ← get with
  | [] => return d
  | '#' :: _ => return d
  | c :: _ =>
    if isBare c || c == '"' || c == '\'' then
      let path ← key
      take "=" .equalsMissing
      skip isGap
      let v ← value
      settled (d.assign path v)
    else if ← take? "[[" then
      skip isGap
      let d ← settled (d.settle.openArrayTable (← key))
      take "]]" .arrayTableEnd
      return d
    else if ← take? "[" then
      skip isGap
      let d ← settled (d.settle.openTable (← key))
      take "]" .tableEnd
      return d
    else fail .statement

/-- The statements of a text of at most `n` lines. -/
def statements : Nat → Document → Reader Document
  | 0, d => return d
  | n + 1, d => do
    skip isGap
    if ← take? "\n" then statements n d
    else if (← get).isEmpty then return d
    else
      let d ← statement d
      skip isGap
      comment
      if (← get).isEmpty then return d
      take "\n" .statementEnd
      statements n d

/-- A text in which each `\r\n` is written as `\n`. -/
def joinBreaks : List Char → List Char
  | [] => []
  | c :: cs => if c = '\r' ∧ cs.head? = some '\n' then joinBreaks cs else c :: joinBreaks cs

/-- The table of a document, or its first error. -/
def parse (source : List Char) : Except Rejection Table :=
  let source := joinBreaks source
  match statements (source.length + 1) .empty source with
  | .ok (d, _) => .ok d.root
  | .error e => .error (e.rejection source)

end ScripCheck.Toml
