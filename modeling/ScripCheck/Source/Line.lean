/-!
# Lines

A line of a source text ends at `\r\n`, at a lone `\r` or at `\n`. Each function here reads a
`\r` that stands right before `\n` as part of the break that the `\n` completes.

* `lines`: the lines of a text, without their ends. There is at least one line.
* `lineText`: one of them, by its number counted from 1.
* `unifyBreaks`: the text with each line break written as `\n`.
-/

namespace ScripCheck

/-- The character `c`, with the text `next` after it, completes a line break. -/
def endsLine (c : Char) (next : List Char) : Bool :=
  c == '\n' || (c == '\r' && next.head? != some '\n')

/-- The lines of a text, without their ends. -/
def lines : List Char → List (List Char)
  | [] => [[]]
  | c :: cs =>
    if endsLine c cs then [] :: lines cs
    else if c = '\r' then lines cs
    else match lines cs with
      | [] => [[c]]
      | l :: ls => (c :: l) :: ls

theorem lines_ne_nil (src : List Char) : lines src ≠ [] := by
  induction src with
  | nil => simp [lines]
  | cons c cs ih =>
    unfold lines
    split
    · simp
    · split
      · exact ih
      · split <;> simp

/-- The line of `src` with the number `n`, counted from 1; empty when there is none. -/
def lineText (src : List Char) (n : Int) : List Char :=
  if n ≤ 0 then [] else ((lines src)[n.toNat - 1]?).getD []

/-- The text with each line break written as `\n`. -/
def unifyBreaks : List Char → List Char
  | [] => []
  | c :: cs =>
    if endsLine c cs then '\n' :: unifyBreaks cs
    else if c = '\r' then unifyBreaks cs
    else c :: unifyBreaks cs

theorem not_mem_unifyBreaks (src : List Char) : '\r' ∉ unifyBreaks src := by
  induction src with
  | nil => simp [unifyBreaks]
  | cons c cs ih =>
    unfold unifyBreaks
    split
    · simpa using ih
    · split
      · exact ih
      · next h => simpa using ⟨Ne.symm h, ih⟩

end ScripCheck
