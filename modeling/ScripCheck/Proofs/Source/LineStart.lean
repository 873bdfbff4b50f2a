import ScripCheck.Source.Position

/-!
# Where lines start

* `breakEnds`: the offsets at which the line breaks of a text end.
* `breaksUpTo`, `lineStart`, `lineSoFar`: the line breaks before an offset, where its line starts,
  and what stands on that line before it.
* `ofOffset_eq`: the position of an offset counts these line breaks and these characters.
-/

namespace ScripCheck

variable {src cs : List Char} {c : Char} {n : Nat}

/-- The offsets at which the line breaks of a text end. -/
def breakEnds : List Char → List Nat
  | [] => []
  | c :: cs =>
    let ends := (breakEnds cs).map (· + 1)
    if endsLine c cs then 1 :: ends else ends

/-- The ends of the line breaks that are completed at or before an offset. -/
def breaksUpTo (src : List Char) (n : Nat) : List Nat := (breakEnds src).filter (· ≤ n)

/-- Where the line of an offset starts: at the end of the last line break completed at or before it,
or at the start of the text. -/
def lineStart (src : List Char) (n : Nat) : Nat := (breaksUpTo src n).getLastD 0

/-- What stands before an offset on its line. -/
def lineSoFar (src : List Char) (n : Nat) : List Char := (src.take n).drop (lineStart src n)

@[simp] theorem breaksUpTo_zero (src : List Char) : breaksUpTo src 0 = [] := by
  cases src with
  | nil => rfl
  | cons c cs =>
    unfold breaksUpTo breakEnds
    split <;> simp

@[simp] theorem breaksUpTo_nil (n : Nat) : breaksUpTo [] n = [] := rfl

theorem breaksUpTo_cons (c : Char) (cs : List Char) (n : Nat) : breaksUpTo (c :: cs) (n + 1) =
    (if endsLine c cs then [1] else []) ++ (breaksUpTo cs n).map (· + 1) := by
  have hmap : ((breakEnds cs).map (· + 1)).filter (· ≤ n + 1) = (breaksUpTo cs n).map (· + 1) := by
    simp [breaksUpTo, List.filter_map, Function.comp_def]
  unfold breaksUpTo at hmap ⊢
  rw [breakEnds]
  split <;> simp [hmap]

theorem lineStart_of_nil (h : breaksUpTo src n = []) : lineStart src n = 0 := by
  rw [lineStart, h]; rfl

@[simp] theorem lineStart_zero (src : List Char) : lineStart src 0 = 0 :=
  lineStart_of_nil (breaksUpTo_zero src)

@[simp] theorem lineStart_nil (n : Nat) : lineStart [] n = 0 := rfl

theorem lineStart_cons (h : endsLine c cs = true ∨ breaksUpTo cs n ≠ []) :
    lineStart (c :: cs) (n + 1) = lineStart cs n + 1 := by
  simp only [lineStart, breaksUpTo_cons, List.getLastD_eq_getLast?, List.getLast?_append,
    List.getLast?_map]
  cases hlast : (breaksUpTo cs n).getLast? with
  | some a => rfl
  | none =>
    have hnil := List.getLast?_eq_none_iff.mp hlast
    simp [h.resolve_right (not_not_intro hnil)]

theorem lineSoFar_cons (h : endsLine c cs = true ∨ breaksUpTo cs n ≠ []) :
    lineSoFar (c :: cs) (n + 1) = lineSoFar cs n := by
  rw [lineSoFar, lineStart_cons h]
  rfl

theorem lineSoFar_of_nil (h : breaksUpTo src n = []) : lineSoFar src n = src.take n := by
  rw [lineSoFar, lineStart_of_nil h]
  rfl

/-- A walk through a text counts its line breaks, and the characters on its last line. -/
theorem Position.walk_eq (p : Position) (n : Nat) (src : List Char) : p.walk n src =
    ⟨p.line + (breaksUpTo src n).length,
      (if breaksUpTo src n = [] then p.column else 1) + (lineSoFar src n).length⟩ := by
  induction src generalizing p n with
  | nil => cases n <;> simp [walk, lineSoFar]
  | cons c cs ih =>
    cases n with
    | zero => simp [walk, lineSoFar]
    | succ n =>
      rw [walk, ih, step, breaksUpTo_cons]
      by_cases hend : endsLine c cs = true
      · rw [lineSoFar_cons (.inl hend)]
        simp [hend, Nat.add_assoc, Nat.add_comm 1]
      · cases hends : breaksUpTo cs n with
        | nil =>
          have hnil : breaksUpTo (c :: cs) (n + 1) = [] := by simp [breaksUpTo_cons, hend, hends]
          rw [lineSoFar_of_nil hends, lineSoFar_of_nil hnil]
          simp [hend, Nat.add_assoc, Nat.add_comm 1]
        | cons a as =>
          rw [lineSoFar_cons (.inr (by simp [hends]))]
          simp [hend]

/-- The position of an offset. -/
theorem ofOffset_eq (src : List Char) (o : Int) : Position.ofOffset src o =
    ⟨(breaksUpTo src o.toNat).length + 1, (lineSoFar src o.toNat).length + 1⟩ := by
  rw [Position.ofOffset, Position.walk_eq]
  simp [Position.start, Nat.add_comm 1]

end ScripCheck
