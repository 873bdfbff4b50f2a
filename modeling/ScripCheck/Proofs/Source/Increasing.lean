import ScripCheck.Source.Position

/-!
# Positions in the order of the text

Positions are ordered by their line, and on one line by their column.

* `Position.walk_lt_walk`: the further a walk goes, the later is the position.
* `ofOffset_lt`, `ofOffset_le`, `ofOffset_injective`: so positions keep the order of the offsets of a
  text, and no two offsets have the same one.
-/

namespace ScripCheck

namespace Position

instance : LT Position := ⟨fun p q => p.line < q.line ∨ p.line = q.line ∧ p.column < q.column⟩

instance : LE Position := ⟨fun p q => p.line < q.line ∨ p.line = q.line ∧ p.column ≤ q.column⟩

variable {p q r : Position} {src : List Char} {n m : Nat}

theorem lt_iff : p < q ↔ p.line < q.line ∨ p.line = q.line ∧ p.column < q.column := Iff.rfl

theorem le_iff : p ≤ q ↔ p.line < q.line ∨ p.line = q.line ∧ p.column ≤ q.column := Iff.rfl

theorem lt_irrefl (p : Position) : ¬ p < p := by
  rw [lt_iff]
  omega

theorem le_refl (p : Position) : p ≤ p := .inr ⟨rfl, Nat.le_refl _⟩

theorem lt_trans (h : p < q) (h' : q < r) : p < r := by
  rw [lt_iff] at h h' ⊢
  omega

theorem le_of_lt (h : p < q) : p ≤ q := h.imp_right fun h => ⟨h.1, Nat.le_of_lt h.2⟩

/-! ## Walks -/

/-- A line break goes to a later line, any other character to a later column. -/
theorem lt_step (p : Position) (c : Char) (cs : List Char) : p < p.step c cs := by
  rw [step]
  split
  · exact .inl (Nat.lt_succ_self _)
  · exact .inr ⟨rfl, Nat.lt_succ_self _⟩

/-- The further a walk goes, the later is the position, as long as the text goes on. -/
theorem walk_lt_walk (p : Position) (h : n < m) (hm : m ≤ src.length) :
    p.walk n src < p.walk m src := by
  induction src generalizing p n m with
  | nil => exact absurd (Nat.lt_of_lt_of_le h hm) (Nat.not_lt_zero n)
  | cons c cs ih =>
    obtain ⟨m, rfl⟩ := Nat.exists_eq_succ_of_ne_zero (Nat.ne_zero_of_lt h)
    have hm : m ≤ cs.length := Nat.le_of_succ_le_succ hm
    cases n with
    | succ n => exact ih (p.step c cs) (Nat.lt_of_succ_lt_succ h) hm
    | zero =>
      have hfirst : p < p.step c cs := p.lt_step c cs
      rcases Nat.eq_zero_or_pos m with rfl | hpos
      · exact hfirst
      · exact lt_trans hfirst (ih (p.step c cs) hpos hm)

end Position

/-! ## Offsets -/

section Offsets

variable {src : List Char} {a b : Int}

theorem ofOffset_lt (ha : 0 ≤ a) (h : a < b) (hb : b ≤ src.length) :
    Position.ofOffset src a < Position.ofOffset src b :=
  Position.start.walk_lt_walk (by omega) (by omega)

theorem ofOffset_le (ha : 0 ≤ a) (h : a ≤ b) (hb : b ≤ src.length) :
    Position.ofOffset src a ≤ Position.ofOffset src b := by
  rcases Int.lt_or_eq_of_le h with hlt | rfl
  · exact Position.le_of_lt (ofOffset_lt ha hlt hb)
  · exact Position.le_refl _

/-- No two offsets of a text have the same position. -/
theorem ofOffset_injective (ha : 0 ≤ a) (ha' : a ≤ src.length) (hb : 0 ≤ b) (hb' : b ≤ src.length)
    (h : Position.ofOffset src a = Position.ofOffset src b) : a = b := by
  rcases Int.lt_trichotomy a b with hlt | heq | hgt
  · exact absurd (h ▸ ofOffset_lt ha hlt hb') (Position.lt_irrefl _)
  · exact heq
  · exact absurd (h ▸ ofOffset_lt hb hgt ha') (Position.lt_irrefl _)

end Offsets

end ScripCheck
