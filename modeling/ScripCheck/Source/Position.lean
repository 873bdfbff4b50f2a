import ScripCheck.Source.Line

/-!
# Positions

Where an offset falls in a text: the line and the column, both counted from 1. An offset between
the `\r` and the `\n` of one break is still on the line that they end.

* `Position.ofOffset`: the position of an offset. An offset before the text is read as its start,
  one past the text as its end.
-/

namespace ScripCheck

/-- A line and a column, counted from 1. -/
structure Position where
  line : Nat
  column : Nat
deriving DecidableEq

namespace Position

/-- The first position of a text. -/
def start : Position := ⟨1, 1⟩

/-- The position after the character `c`, which the text `next` follows. -/
def step (p : Position) (c : Char) (next : List Char) : Position :=
  if endsLine c next then ⟨p.line + 1, 1⟩ else ⟨p.line, p.column + 1⟩

/-- The position `n` characters further into the text, or at its end. -/
def walk (p : Position) : Nat → List Char → Position
  | 0, _ => p
  | _ + 1, [] => p
  | n + 1, c :: cs => walk (p.step c cs) n cs

/-- The position of an offset of `src`. -/
def ofOffset (src : List Char) (offset : Int) : Position := start.walk offset.toNat src

theorem ofOffset_of_nonpos (src : List Char) {o : Int} (h : o ≤ 0) : ofOffset src o = start := by
  simp [ofOffset, Int.toNat_of_nonpos h, walk]

theorem walk_of_length_le (p : Position) {n : Nat} {src : List Char} (h : src.length ≤ n) :
    p.walk n src = p.walk src.length src := by
  induction src generalizing p n with
  | nil => cases n <;> rfl
  | cons c cs ih =>
    cases n with
    | zero => simp at h
    | succ n => exact ih _ (by simpa using h)

end Position

end ScripCheck
