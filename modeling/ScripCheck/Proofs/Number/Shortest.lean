import ScripCheck.Proofs.Number.Interval

/-!
# Shortest decimals are read back

Seventeen digits are enough: a unit in the last of them is less than the interval of a value is
wide. So some decimal is found for each value, and it lies in the interval.

* `ten_zpow_le`, `Interval.leading_le`: the leading power of ten is not above the middle of an
  interval.
* `Interval.exists_nearest?`: an interval that is wider than a unit has a multiple of it near its
  middle.
* `shortest_contains`: the shortest decimal of a value rounds to it.
-/

namespace ScripCheck

namespace Binary64

namespace Interval

variable {i : Interval} {n : ℕ} {g : ℤ}

/-! ## The nearest multiple -/

theorem holds_of_nearest? (h : i.nearest? = some n) : i.holds n = true := by
  unfold nearest? at h
  dsimp only at h
  split at h
  · next hdown hup =>
    cases h
    unfold roundDiv
    dsimp only
    split
    · exact hup
    · exact hdown
  · next hdown _ => cases h; exact hdown
  · next _ hup => cases h; exact hup
  · cases h

/-- Of the multiples around the middle, one lies in an interval that is wider than a unit. -/
theorem exists_nearest? (hmid : i.lo < i.mid) (hhi : i.mid < i.hi) (hden : 0 < i.den)
    (hwide : i.lo + i.den < i.hi) : ∃ n, i.nearest? = some n := by
  have hdown : i.mid / i.den * i.den ≤ i.mid := Nat.div_mul_le_self ..
  have hup : i.mid < (i.mid / i.den + 1) * i.den := by
    rw [Nat.mul_comm]
    exact Nat.lt_mul_div_succ _ hden
  have hsucc : (i.mid / i.den + 1) * i.den = i.mid / i.den * i.den + i.den := Nat.succ_mul ..
  have hone : i.holds (i.mid / i.den) = true ∨ i.holds (i.mid / i.den + 1) = true := by
    rcases Nat.lt_or_ge i.lo (i.mid / i.den * i.den) with hlo | hlo
    · left
      unfold holds
      split <;> simp <;> omega
    · right
      unfold holds
      split <;> simp <;> omega
  unfold nearest?
  dsimp only
  split <;> simp_all

/-! ## The leading power of ten -/

/-- The estimate of a logarithm by a fraction, which a power of ten between two powers of two
gives. -/
theorem ten_zpow_le {a b : ℕ} (hle : 2 ^ b ≤ 10 ^ a) (hge : 10 ^ a ≤ 2 ^ (b + 1)) {e k : ℤ}
    (hb : 0 < b) (hk : k ≤ b) (he : e * b ≤ k * a) : (10 : ℚ) ^ e ≤ 2 ^ (k + 1) := by
  have hle' : (2 : ℚ) ^ b ≤ 10 ^ a := by exact_mod_cast hle
  have hge' : (10 : ℚ) ^ a ≤ 2 ^ (b + 1) := by exact_mod_cast hge
  have hpow : ((10 : ℚ) ^ a) ^ k ≤ 2 ^ ((k + 1) * b) := by
    cases k with
    | ofNat j =>
      have hj : (b + 1) * j ≤ (j + 1) * b := by
        have hj : j ≤ b := by simpa using hk
        nlinarith
      calc ((10 : ℚ) ^ a) ^ (j : ℤ)
        _ = (10 ^ a) ^ j := zpow_natCast ..
        _ ≤ (2 ^ (b + 1)) ^ j := pow_le_pow_left₀ (by positivity) hge' j
        _ = 2 ^ ((b + 1) * j) := (pow_mul ..).symm
        _ ≤ 2 ^ ((j + 1) * b) := pow_le_pow_right₀ (by norm_num) hj
        _ = 2 ^ (((j : ℤ) + 1) * b) := by exact_mod_cast rfl
    | negSucc j =>
      calc ((10 : ℚ) ^ a) ^ Int.negSucc j
        _ = ((10 ^ a) ^ (j + 1))⁻¹ := zpow_negSucc ..
        _ ≤ ((2 ^ b) ^ (j + 1))⁻¹ :=
          inv_anti₀ (by positivity) (pow_le_pow_left₀ (by positivity) hle' (j + 1))
        _ = 2 ^ (Int.negSucc j * b) := by
          rw [mul_comm, zpow_mul, zpow_natCast, zpow_negSucc]
        _ ≤ 2 ^ ((Int.negSucc j + 1) * b) :=
          zpow_le_zpow_right₀ (by norm_num) (by nlinarith)
  -- with the exponent `b` on both sides, the estimate of the logarithm is one of integers
  refine le_of_pow_le_pow_left₀ hb.ne' (by positivity) ?_
  calc ((10 : ℚ) ^ e) ^ b
    _ = 10 ^ (e * b) := by rw [zpow_mul, zpow_natCast]
    _ ≤ 10 ^ (k * a) := zpow_le_zpow_right₀ (by norm_num) he
    _ = (10 ^ a) ^ k := by rw [mul_comm, zpow_mul, zpow_natCast]
    _ ≤ 2 ^ ((k + 1) * b) := hpow
    _ = (2 ^ (k + 1)) ^ b := by rw [zpow_mul, zpow_natCast]

/-- A power of ten is not above the middle if it is found to be so. -/
theorem le_mid_of_reaches {e : ℤ}
    (h : i.den * Nat.pow 10 e.toNat ≤ i.mid * Nat.pow 10 (-e).toNat) :
    (i.den : ℚ) * 10 ^ e ≤ i.mid := by
  have hup : (0 : ℚ) < 10 ^ (-e).toNat := by positivity
  rw [← mul_le_mul_iff_left₀ hup, mul_assoc, zpow_mul_pow_toNat (by norm_num)]
  exact_mod_cast h

/-- The leading power of ten is not above the middle. -/
theorem leading_le (hmid : 0 < i.mid) (hlog : i.mid.log2 ≤ 100000) :
    (i.den : ℚ) * 10 ^ i.leading ≤ i.mid := by
  unfold leading
  dsimp only
  split
  · next h => exact le_mid_of_reaches (by simpa using h)
  split
  · next h => exact le_mid_of_reaches (by simpa using h)
  generalize hk : (i.mid.log2 : ℤ) - i.den.log2 = k
  have hestimate : (10 : ℚ) ^ (k * 30103 / 100000) ≤ 2 ^ (k + 1) :=
    ten_zpow_le (a := 30103) (b := 100000) (by decide +kernel) (by decide +kernel) (by norm_num)
      (by omega) (by omega)
  have hden' : (i.den : ℚ) < 2 ^ (i.den.log2 + 1) := by exact_mod_cast Nat.lt_log2_self
  have hmid' : (2 : ℚ) ^ i.mid.log2 ≤ i.mid := by exact_mod_cast Nat.log2_self_le hmid.ne'
  calc (i.den : ℚ) * 10 ^ (k * 30103 / 100000 - 1)
    _ = i.den * 10 ^ (k * 30103 / 100000) / 10 := by
      rw [zpow_sub_one₀ (by norm_num)]
      ring
    _ ≤ 2 ^ (i.den.log2 + 1) * 2 ^ (k + 1) / 10 := by gcongr
    _ = 4 * 2 ^ i.mid.log2 / 10 := by
      rw [← zpow_natCast, ← zpow_natCast, ← zpow_add₀ (by norm_num),
        show ((i.den.log2 + 1 : ℕ) : ℤ) + (k + 1) = 2 + (i.mid.log2 : ℤ) by omega,
        zpow_add₀ (by norm_num)]
      norm_num
    _ ≤ i.mid := by linarith

end Interval

/-! ## Seventeen digits -/

section

variable {e : Fin 2047} {f : Fin fractions}

theorem significand_lt (e : Fin 2047) (f : Fin fractions) : significand e f < 2 ^ 53 := by
  have hf := f.isLt
  have hfractions : fractions = 4503599627370496 := rfl
  unfold significand
  split <;> omega

/-- The middle is less than `10 ^ 16` times the width. -/
theorem mid_lt_width (e : Fin 2047) (f : Fin fractions) :
    4 * significand e f + 10 ^ 16 * low e f < 10 ^ 16 * high e f := by
  have hless := significand_lt e f
  have hfractions : fractions = 4503599627370496 := rfl
  simp only [low, high]
  split
  · next h =>
    have hlone : significand e f = fractions := by
      simp [significand, h.1, show e.val ≠ 0 by omega]
    omega
  · omega

theorem low_lt (h : significand e f ≠ 0) : low e f < 4 * significand e f := by
  simp only [low]
  split <;> omega

theorem log2_mid_le (h : significand e f ≠ 0) : (Interval.ofFields e f).mid.log2 ≤ 100000 := by
  have hless := significand_lt e f
  have hscale : (scale e - 2).toNat ≤ 1000 := by
    simp only [scale]
    omega
  have hplace : 0 < 2 ^ (scale e - 2).toNat := by positivity
  have hmid : (Interval.ofFields e f).mid < 2 ^ (55 + (scale e - 2).toNat) := by
    rw [pow_add]
    exact Nat.mul_lt_mul_of_pos_right (by omega) hplace
  have hpos : (Interval.ofFields e f).mid ≠ 0 := Nat.mul_ne_zero (by omega) hplace.ne'
  have hlog := (Nat.log2_lt hpos).mpr hmid
  omega

/-- With seventeen digits there is a decimal in the interval. -/
theorem exists_digits (h : significand e f ≠ 0) :
    let i := Interval.ofFields e f
    ∃ n, (i.inUnits (i.leading - 16)).nearest? = some n := by
  intro i
  have hlo : i.lo = low e f * 2 ^ (scale e - 2).toNat := rfl
  have hmid : i.mid = 4 * significand e f * 2 ^ (scale e - 2).toNat := rfl
  have hhi : i.hi = high e f * 2 ^ (scale e - 2).toNat := rfl
  have hden : 0 < i.den := Nat.pow_pos (by norm_num)
  have hplace : 0 < 2 ^ (scale e - 2).toNat := by positivity
  have hbelow : i.lo < i.mid := by
    rw [hlo, hmid]
    exact Nat.mul_lt_mul_of_pos_right (low_lt h) hplace
  have habove : i.mid < i.hi := by
    rw [hhi, hmid]
    exact Nat.mul_lt_mul_of_pos_right (by simp [high]) hplace
  have hwidth : i.mid + 10 ^ 16 * i.lo < 10 ^ 16 * i.hi := by
    rw [hlo, hmid, hhi, ← mul_assoc, ← mul_assoc, ← Nat.add_mul]
    exact Nat.mul_lt_mul_of_pos_right (mid_lt_width e f) hplace
  have hleading : (i.den : ℚ) * 10 ^ i.leading ≤ i.mid := i.leading_le (by omega) (log2_mid_le h)
  obtain ⟨g, hg⟩ : ∃ g, i.leading = g + 16 := ⟨i.leading - 16, by omega⟩
  have hup : (0 : ℚ) < 10 ^ (-g).toNat := by positivity
  have hunit : (i.lo : ℚ) + i.den * 10 ^ g < i.hi := by
    have hwidth' : (i.mid : ℚ) + 10 ^ 16 * i.lo < 10 ^ 16 * i.hi := by exact_mod_cast hwidth
    rw [hg, zpow_add₀ (by norm_num)] at hleading
    norm_num at hleading hwidth'
    linarith
  have hwide : (i.inUnits g).lo + (i.inUnits g).den < (i.inUnits g).hi := by
    rw [← mul_lt_mul_iff_left₀ hup, add_mul, mul_assoc, zpow_mul_pow_toNat (by norm_num)] at hunit
    exact_mod_cast hunit
  rw [hg, Int.add_sub_cancel]
  have hpow : 0 < Nat.pow 10 (-g).toNat := Nat.pow_pos (by norm_num)
  exact Interval.exists_nearest? (Nat.mul_lt_mul_of_pos_right hbelow hpow)
    (Nat.mul_lt_mul_of_pos_right habove hpow) (Nat.mul_pos hden (Nat.pow_pos (by norm_num))) hwide

/-- The shortest decimal of a value other than zero rounds to it. -/
theorem shortest_contains (h : significand e f ≠ 0) :
    (Interval.ofFields e f).Contains ((shortest e f).1 * 10 ^ (shortest e f).2) := by
  let i := Interval.ofFields e f
  let digits? (n : ℕ) : Option (ℕ × ℤ) := (i.inUnits (i.leading - n)).nearest?.map (·, i.leading - n)
  have hshortest : shortest e f = ((List.range 17).findSome? digits?).getD (0, 0) := rfl
  obtain ⟨n, hn⟩ := exists_digits h
  rw [hshortest]
  cases hfound : (List.range 17).findSome? digits? with
  | none =>
    have hnone := List.findSome?_eq_none_iff.mp hfound 16 (by decide)
    simp [digits?, i, hn] at hnone
  | some x =>
    obtain ⟨k, -, hk⟩ := List.exists_of_findSome?_eq_some hfound
    obtain ⟨d, hd, rfl⟩ := Option.map_eq_some_iff.mp hk
    exact Interval.contains_of_holds (Interval.holds_of_nearest? hd)

end

end Binary64

end ScripCheck
