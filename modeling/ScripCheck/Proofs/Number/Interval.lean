import Mathlib.Algebra.Order.Field.Power
import Mathlib.Tactic.FieldSimp
import Mathlib.Tactic.Linarith
import Mathlib.Tactic.Positivity
import Mathlib.Tactic.Ring
import ScripCheck.Number.Shortest

/-!
# The intervals of floating-point numbers

The numbers that round to a value form an interval. Its ends are `low` and `high` quarters of the
last place of the significand, and they belong to it if the significand is even.

* `Interval.Contains`: a number lies in an interval. `Interval.contains_of_holds`: one that is given
  in units of a power of ten.
* `high_le_low`: an interval ends where the next one starts, or before; where both have their ends,
  it ends before.
* `contains_unique`: no number lies in the intervals of two values.
-/

namespace ScripCheck

/-- A power with any integer as its exponent, as the quotient of two natural numbers. -/
theorem zpow_mul_pow_toNat {b : ℚ} (hb : b ≠ 0) (n : ℤ) : b ^ n * b ^ (-n).toNat = b ^ n.toNat := by
  rw [← zpow_natCast, ← zpow_natCast, ← zpow_add₀ hb]
  congr 1
  omega

namespace Binary64

/-- The number lies in the interval. -/
def Interval.Contains (i : Interval) (x : ℚ) : Prop :=
  if i.closed then (i.lo : ℚ) ≤ x * i.den ∧ x * i.den ≤ i.hi
  else (i.lo : ℚ) < x * i.den ∧ x * i.den < i.hi

/-- A number in units of a power of ten lies in the interval. -/
theorem Interval.contains_of_holds {i : Interval} {g : ℤ} {n : ℕ}
    (h : (i.inUnits g).holds n = true) : i.Contains (n * 10 ^ g) := by
  have hup : (0 : ℚ) < 10 ^ (-g).toNat := by positivity
  have hunits : (n * 10 ^ g * i.den : ℚ) * 10 ^ (-g).toNat = n * (i.den * 10 ^ g.toNat) := by
    rw [← zpow_mul_pow_toNat (by norm_num : (10 : ℚ) ≠ 0) g]
    ring
  unfold holds inUnits at h
  unfold Contains
  generalize (n * 10 ^ g * i.den : ℚ) = x at hunits ⊢
  rw [← mul_le_mul_iff_left₀ hup, ← mul_le_mul_iff_left₀ (b := x) hup, ← mul_lt_mul_iff_left₀ hup,
    ← mul_lt_mul_iff_left₀ (b := x) hup, hunits]
  split at h
  · next hclosed =>
    simp only [Bool.and_eq_true, decide_eq_true_eq, Nat.pow_eq] at h
    rw [if_pos hclosed]
    exact_mod_cast h
  · next hopen =>
    simp only [Bool.and_eq_true, decide_eq_true_eq, Nat.pow_eq] at h
    rw [if_neg hopen]
    exact_mod_cast h

/-! ## The ends of an interval -/

section

variable {e e' : Fin 2047} {f f' : Fin fractions}

/-- The lower end of the interval, in quarters of the last place. -/
def low (e : Fin 2047) (f : Fin fractions) : ℕ :=
  4 * significand e f - if f.val = 0 ∧ 1 < e.val then 1 else 2

/-- The upper end of the interval, in quarters of the last place. -/
def high (e : Fin 2047) (f : Fin fractions) : ℕ := 4 * significand e f + 2

/-- A number of an interval lies between the ends, and not at an end if the significand is odd. -/
theorem contains_ofFields {x : ℚ} (h : (Interval.ofFields e f).Contains x) :
    (low e f ≤ x * 2 ^ (2 - scale e) ∧ x * 2 ^ (2 - scale e) ≤ high e f) ∧
      (significand e f % 2 = 1 → low e f < x * 2 ^ (2 - scale e) ∧
        x * 2 ^ (2 - scale e) < high e f) := by
  have hup : (0 : ℚ) < 2 ^ (scale e - 2).toNat := by positivity
  have hunits : x * 2 ^ (-(scale e - 2)).toNat =
      x * 2 ^ (2 - scale e) * 2 ^ (scale e - 2).toNat := by
    have hpow := zpow_mul_pow_toNat (by norm_num : (2 : ℚ) ≠ 0) (-(scale e - 2))
    rw [← hpow, neg_neg, neg_sub]
    ring
  unfold Interval.ofFields Interval.Contains at h
  simp only [Nat.pow_eq, Nat.cast_mul, Nat.cast_pow, Nat.cast_ofNat, hunits,
    mul_le_mul_iff_left₀ hup, mul_lt_mul_iff_left₀ hup, decide_eq_true_eq] at h
  change if significand e f % 2 = 0 then (low e f : ℚ) ≤ _ ∧ _ ≤ (high e f : ℚ) else
    (low e f : ℚ) < _ ∧ _ < (high e f : ℚ) at h
  split at h
  · next heven => exact ⟨h, fun hodd => by omega⟩
  · exact ⟨⟨h.1.le, h.2.le⟩, fun _ => h⟩

/-- An interval ends where that of a greater value starts, or before. If the ends belong to both
intervals, it ends before. -/
theorem high_le_low (h : e.val < e'.val ∨ e.val = e'.val ∧ f.val < f'.val) :
    ∃ k : ℕ, scale e' = scale e + k ∧ high e f ≤ low e' f' * 2 ^ k ∧
      (significand e f % 2 = 0 → significand e' f' % 2 = 0 → high e f < low e' f' * 2 ^ k) := by
  have hf := f.isLt
  have hf' := f'.isLt
  have hfractions : fractions = 4503599627370496 := rfl
  rcases h with he | ⟨he, hless⟩
  · rcases Nat.lt_or_ge 1 e'.val with he' | he'
    · -- the last place of the greater value is worth more
      obtain ⟨k, hk⟩ : ∃ k, e'.val = max e.val 1 + (k + 1) := ⟨e'.val - max e.val 1 - 1, by omega⟩
      have hlow : 4 * fractions - 1 ≤ low e' f' := by
        simp only [low, significand, if_neg (show e'.val ≠ 0 by omega)]
        split <;> omega
      have hhigh : high e f ≤ 8 * fractions - 2 := by
        simp only [high, significand]
        split <;> omega
      have hmul : low e' f' * 2 ≤ low e' f' * 2 ^ (k + 1) := by
        rw [pow_succ']
        exact Nat.mul_le_mul_left _ (Nat.le_mul_of_pos_right 2 (by positivity))
      refine ⟨k + 1, by simp only [scale]; omega, by omega, fun heven _ => ?_⟩
      simp only [high, significand] at heven ⊢
      split at heven <;> split <;> omega
    · refine ⟨0, by simp only [scale]; omega, ?_⟩
      simp only [high, low, significand, pow_zero, mul_one]
      split <;> split <;> split <;> omega
  · refine ⟨0, by simp [scale, he], ?_⟩
    simp only [high, low, significand, he, pow_zero, mul_one]
    split <;> split <;> omega

/-- A number lies in the interval of one value only. -/
theorem contains_unique {x : ℚ} (h : (Interval.ofFields e f).Contains x)
    (h' : (Interval.ofFields e' f').Contains x) : e = e' ∧ f = f' := by
  have hnot {e e' : Fin 2047} {f f' : Fin fractions}
      (h : (Interval.ofFields e f).Contains x) (h' : (Interval.ofFields e' f').Contains x) :
      ¬ (e.val < e'.val ∨ e.val = e'.val ∧ f.val < f'.val) := by
    intro hless
    obtain ⟨k, hscale, hends, hstrict⟩ := high_le_low hless
    obtain ⟨⟨-, hhigh⟩, hodd⟩ := contains_ofFields h
    obtain ⟨⟨hlow, -⟩, hodd'⟩ := contains_ofFields h'
    have hpow : (0 : ℚ) < 2 ^ k := by positivity
    have hunits : x * 2 ^ (2 - scale e) = x * 2 ^ (2 - scale e') * 2 ^ k := by
      rw [mul_assoc, ← zpow_natCast, ← zpow_add₀ (by norm_num : (2 : ℚ) ≠ 0), hscale]
      congr 2
      omega
    have hends : (high e f : ℚ) ≤ low e' f' * 2 ^ k := by exact_mod_cast hends
    rw [hunits] at hhigh hodd
    generalize x * 2 ^ (2 - scale e') = y at *
    have hlow' : (low e' f' : ℚ) * 2 ^ k ≤ y * 2 ^ k := (mul_le_mul_iff_left₀ hpow).mpr hlow
    -- the two intervals may meet in an end only, which an odd significand excludes
    rcases Nat.mod_two_eq_zero_or_one (significand e f) with heven | hodd₁
    · rcases Nat.mod_two_eq_zero_or_one (significand e' f') with heven' | hodd₂
      · have hstrict : (high e f : ℚ) < low e' f' * 2 ^ k := by
          exact_mod_cast hstrict heven heven'
        linarith
      · have hless : (low e' f' : ℚ) * 2 ^ k < y * 2 ^ k :=
          (mul_lt_mul_iff_left₀ hpow).mpr (hodd' hodd₂).1
        linarith
    · have hless := (hodd hodd₁).2
      linarith
  have hless := hnot h h'
  have hless' := hnot h' h
  have he : e.val = e'.val := by omega
  exact ⟨Fin.ext he, Fin.ext (by omega)⟩

end

end Binary64

end ScripCheck
