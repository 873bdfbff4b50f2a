/-!
# Spans

Half-open ranges `[lo, hi)` of offsets into a source text, counted in characters. Offsets are
integers: a caller may ask for a place before the text, or past its end, and spans may be
shifted to the left.

* `Span.join`: from the start of the first span to the end of the second.
* `Span.reach`: the same start, with the end moved no further back.
* `Span.slice`: the characters of a text that the span covers.
-/

namespace ScripCheck

/-- The range of offsets from `lo` up to, not including, `hi`. -/
structure Span where
  lo : Int
  hi : Int
deriving DecidableEq, Inhabited

namespace Span

/-- From the start of `a` to the end of `b`. -/
def join (a b : Span) : Span := ⟨a.lo, b.hi⟩

/-- The span with its end moved to `hi`, if that is further. -/
def reach (s : Span) (hi : Int) : Span := ⟨s.lo, max s.hi hi⟩

/-- The span moved `d` places to the right. -/
def shift (d : Int) (s : Span) : Span := ⟨s.lo + d, s.hi + d⟩

/-- The characters of `src` inside the span; none when the span is empty or runs backwards. Offsets
before the text are read as 0, and not as places counted from its end. No span of a lexeme has
them, only one that is made by hand. -/
def slice (s : Span) (src : List Char) : List Char := (src.take s.hi.toNat).drop s.lo.toNat

/-- The empty span at the end of `src`. -/
def atEnd (src : List Char) : Span := ⟨src.length, src.length⟩

@[simp] theorem join_lo (a b : Span) : (a.join b).lo = a.lo := rfl

@[simp] theorem join_hi (a b : Span) : (a.join b).hi = b.hi := rfl

@[simp] theorem reach_lo (s : Span) (hi : Int) : (s.reach hi).lo = s.lo := rfl

theorem le_reach_hi (s : Span) (hi : Int) : s.hi ≤ (s.reach hi).hi := Int.le_max_left ..

@[simp] theorem shift_zero (s : Span) : s.shift 0 = s := by simp [shift]

theorem shift_shift (a b : Int) (s : Span) : (s.shift a).shift b = s.shift (a + b) := by
  simp [shift, Int.add_assoc]

end Span

end ScripCheck
