import ScripCheck.Proofs.Number.Numeral
import ScripCheck.Proofs.Number.Shortest
import ScripCheck.Proofs.Source.LineAround

/-!
# Numbers as text are read back

* `Layout.decimal?_write`: a decimal is read back from its text, with or without an exponent part.
* `Binary64.render_injective`: different values have different texts.
* `Binary64.unbroken_render`: there is no line break in the text of a value.
-/

namespace ScripCheck

namespace Layout

variable {ds : List Char} {e : ℤ}

/-! ## The digits that are written -/

/-- The digits without the zeros at their end, but for one if there is nothing else. -/
def significant (all : List Char) : List Char :=
  match (all.reverse.dropWhile (· == '0')).reverse with
  | [] => ['0']
  | ds => ds

theorem significant_zeros {all : List Char} (hne : all ≠ []) :
    significant all ≠ [] ∧ ∃ n, all = significant all ++ List.replicate n '0' := by
  obtain ⟨n, hn⟩ : ∃ n, all.reverse.takeWhile (· == '0') = List.replicate n '0' := by
    refine ⟨_, List.eq_replicate_iff.mpr ⟨rfl, fun c hc => ?_⟩⟩
    simpa using List.mem_takeWhile_imp hc
  have hall : all = (all.reverse.dropWhile (· == '0')).reverse ++ List.replicate n '0' := by
    have hsplit := congrArg List.reverse
      (List.takeWhile_append_dropWhile (p := (· == '0')) (l := all.reverse))
    rw [hn, List.reverse_append, List.reverse_replicate, List.reverse_reverse] at hsplit
    exact hsplit.symm
  unfold significant
  split
  · next hnil =>
    rw [hnil, List.nil_append] at hall
    cases n with
    | zero => exact absurd hall hne
    | succ n => exact ⟨List.cons_ne_nil _ _, n, hall⟩
  · next hcons => exact ⟨hcons, n, hall⟩

/-! ## Layouts -/

theorem unbroken_digits (hds : ∀ c ∈ ds, c.isDigit = true) : Unbroken ds := fun c hc => by
  have hdigit := hds c hc
  constructor <;> (rintro rfl; cases hdigit)

theorem isDigit_zeros (n : ℕ) : ∀ c ∈ List.replicate n '0', c.isDigit = true := fun c hc => by
  rw [List.eq_of_mem_replicate hc]
  rfl

/-- The text is one of digits, and is read as the number `x`. -/
structure ReadsAs (cs : List Char) (x : ℚ) : Prop where
  reads : ∃ (digits : ℕ) (place : ℤ),
    Numeral.decimal? false cs = some (.decimal false digits place) ∧ digits * 10 ^ place = x
  head : ∃ c cs', cs = c :: cs' ∧ c.isDigit = true
  unbroken : Unbroken cs

theorem readsAs_fraction {whole part : List Char} {n : ℕ} (hne : whole ≠ [])
    (hwhole : ∀ c ∈ whole, c.isDigit = true) (hpart : ∀ c ∈ part, c.isDigit = true)
    (hvalue : digitsValue (whole ++ part) = digitsValue ds * 10 ^ n)
    (hplace : e + 1 - ds.length = n + -part.length) :
    ReadsAs (whole ++ '.' :: part) (digitsValue ds * 10 ^ (e + 1 - ds.length)) where
  reads := by
    have hread := Numeral.decimal?_point false [] hne hwhole hpart (by simp)
    rw [List.append_nil, hvalue] at hread
    refine ⟨_, -part.length, by simpa [Numeral.exponent?] using hread, ?_⟩
    rw [hplace, zpow_add₀ (by norm_num), zpow_natCast, ← mul_assoc]
    push_cast
    rfl
  head := by
    obtain ⟨d, ds, rfl⟩ := List.exists_cons_of_ne_nil hne
    exact ⟨d, _, rfl, hwhole d List.mem_cons_self⟩
  unbroken := unbroken_append.mpr
    ⟨unbroken_digits hwhole, unbroken_cons.mpr ⟨by decide, unbroken_digits hpart⟩⟩

theorem readsAs_positional (hne : ds ≠ []) (hds : ∀ c ∈ ds, c.isDigit = true) (e : ℤ) :
    ReadsAs (positional ds e) (digitsValue ds * 10 ^ (e + 1 - ds.length)) := by
  have hlength : 0 < ds.length := List.length_pos_iff.mpr hne
  unfold positional
  split
  · next hneg =>
    have hpart : ∀ c ∈ List.replicate (-e - 1).toNat '0' ++ ds, c.isDigit = true :=
      List.forall_mem_append.mpr ⟨isDigit_zeros _, hds⟩
    show ReadsAs (['0'] ++ '.' :: (List.replicate (-e - 1).toNat '0' ++ ds)) _
    refine readsAs_fraction (n := 0) (List.cons_ne_nil '0' []) (by simp) hpart ?_ ?_
    · rw [digitsValue_append, digitsValue_append, digitsValue_zeros]
      simp [digitsValue]
    · simp
      omega
  · next hpos =>
    dsimp only
    rcases Nat.lt_or_ge (e.toNat + 1) ds.length with hlong | hshort
    · have hzeros : e.toNat + 1 - ds.length = 0 := by omega
      rw [hzeros, List.replicate_zero, List.append_nil, if_neg (by omega)]
      refine readsAs_fraction (n := 0) ?_ (fun c hc => hds c (List.mem_of_mem_take hc))
        (fun c hc => hds c (List.mem_of_mem_drop hc)) ?_ ?_
      · exact List.ne_nil_of_length_pos (by simp; omega)
      · simp
      · simp
        omega
    · -- the digits end before the point, and zeros stand in between
      have hall : (ds ++ List.replicate (e.toNat + 1 - ds.length) '0').length = e.toNat + 1 := by
        simp
        omega
      rw [if_pos hall.le, List.take_of_length_le hall.le]
      refine readsAs_fraction (n := e.toNat + 1 - ds.length + 1) (by simp [hne])
        (List.forall_mem_append.mpr ⟨hds, isDigit_zeros _⟩) (by simp) ?_ ?_
      · rw [digitsValue_append, digitsValue_append, digitsValue_zeros]
        simp [digitsValue, pow_succ, mul_assoc]
      · simp
        omega

/-- The exponent part of a text. -/
def exponentPart (l : Layout) (e : ℤ) : List Char :=
  'e' :: (if e < 0 then '-' else '+') ::
    (List.replicate (l.exponentDigits - (Nat.toDigits 10 e.natAbs).length) '0' ++
      Nat.toDigits 10 e.natAbs)

theorem isDigit_padded (n m : ℕ) :
    ∀ c ∈ List.replicate n '0' ++ Nat.toDigits 10 m, c.isDigit = true :=
  List.forall_mem_append.mpr ⟨isDigit_zeros n, fun _ hc =>
    Nat.isDigit_of_mem_toDigits (by decide) (by decide) hc⟩

/-- The exponent part is read back. -/
theorem exponent?_exponentPart (l : Layout) (e : ℤ) :
    Numeral.exponent? (l.exponentPart e) = some e := by
  unfold exponentPart
  generalize l.exponentDigits - (Nat.toDigits 10 e.natAbs).length = n
  have hne : List.replicate n '0' ++ Nat.toDigits 10 e.natAbs ≠ [] :=
    List.append_ne_nil_of_right_ne_nil _ Nat.toDigits_ne_nil
  have hall : (List.replicate n '0' ++ Nat.toDigits 10 e.natAbs).all Char.isDigit = true :=
    List.all_eq_true.mpr (isDigit_padded n e.natAbs)
  have hvalue : digitsValue (List.replicate n '0' ++ Nat.toDigits 10 e.natAbs) = e.natAbs := by
    rw [digitsValue_append, digitsValue_zeros, digitsValue_toDigits]
    simp
  split
  · next hneg =>
    rw [Numeral.exponent?, if_pos (.inl rfl)]
    simp only [splitSign, ne_eq, hne, not_false_eq_true, hall, and_self, if_true, hvalue,
      Option.some.injEq]
    omega
  · next hpos =>
    rw [Numeral.exponent?, if_pos (.inl rfl)]
    simp only [splitSign, ne_eq, hne, not_false_eq_true, hall, and_self, if_true, hvalue,
      Bool.false_eq_true, if_false, Option.some.injEq]
    omega

theorem unbroken_exponentPart (l : Layout) (e : ℤ) : Unbroken (l.exponentPart e) := by
  have hsign : (if e < 0 then '-' else '+') ≠ '\r' ∧ (if e < 0 then '-' else '+') ≠ '\n' := by
    split <;> decide
  exact unbroken_cons.mpr ⟨by decide, unbroken_cons.mpr ⟨hsign,
    unbroken_digits (isDigit_padded _ _)⟩⟩

theorem scientific_eq (l : Layout) (ds : List Char) (e : ℤ) : l.scientific ds e =
    ds.take 1 ++ (if ds.length ≤ 1 then [] else '.' :: ds.drop 1) ++ l.exponentPart e := by
  simp [scientific, exponentPart]

theorem readsAs_scientific (l : Layout) (hne : ds ≠ []) (hds : ∀ c ∈ ds, c.isDigit = true) (e : ℤ) :
    ReadsAs (l.scientific ds e) (digitsValue ds * 10 ^ (e + 1 - ds.length)) := by
  obtain ⟨d, ds, rfl⟩ := List.exists_cons_of_ne_nil hne
  obtain ⟨hd, hds⟩ := List.forall_mem_cons.mp hds
  have hone : ∀ c ∈ [d], c.isDigit = true := List.forall_mem_singleton.mpr hd
  have hpart : ∀ c ∈ (l.exponentPart e).head?, c.isDigit = false ∧ c ≠ '.' := by
    rintro _ ⟨⟩
    decide
  rw [scientific_eq]
  cases ds with
  | nil =>
    refine ⟨⟨digitsValue [d], e, ?_, by simp⟩, ⟨d, _, rfl, hd⟩,
      unbroken_append.mpr ⟨?_, l.unbroken_exponentPart e⟩⟩
    · have hread :=
        Numeral.decimal?_whole false (l.exponentPart e) (List.cons_ne_nil d []) hone hpart
      rw [exponent?_exponentPart] at hread
      simpa using hread
    · exact unbroken_append.mpr ⟨unbroken_digits hone, unbroken_nil⟩
  | cons d' ds =>
    refine ⟨⟨digitsValue (d :: d' :: ds), e - (d' :: ds).length, ?_, by simp⟩, ⟨d, _, rfl, hd⟩,
      unbroken_append.mpr ⟨?_, l.unbroken_exponentPart e⟩⟩
    · have hread := Numeral.decimal?_point false (l.exponentPart e) (List.cons_ne_nil d []) hone
        hds fun c hc => (hpart c hc).1
      rw [exponent?_exponentPart] at hread
      simpa using hread
    · exact unbroken_append.mpr ⟨unbroken_digits hone, unbroken_cons.mpr
        ⟨by decide, unbroken_digits hds⟩⟩

/-- A decimal is read back from its text. -/
theorem readsAs_write (l : Layout) (digits : ℕ) (g : ℤ) :
    ReadsAs (l.write digits g) (digits * 10 ^ g) := by
  let all := Nat.toDigits 10 digits
  let e : ℤ := g + all.length - 1
  obtain ⟨hne, n, hzeros⟩ : significant all ≠ [] ∧
      ∃ n, all = significant all ++ List.replicate n '0' := significant_zeros Nat.toDigits_ne_nil
  have hdigits : ∀ c ∈ significant all, c.isDigit = true := fun c hc => by
    have hall : c ∈ all := by
      rw [hzeros]
      exact List.mem_append_left _ hc
    exact Nat.isDigit_of_mem_toDigits (by decide) (by decide) hall
  have hvalue : digits = digitsValue (significant all) * 10 ^ n :=
    calc digits
      _ = digitsValue all := (digitsValue_toDigits digits).symm
      _ = digitsValue (significant all ++ List.replicate n '0') := congrArg digitsValue hzeros
      _ = digitsValue (significant all) * 10 ^ n := by
        rw [digitsValue_append, digitsValue_zeros, List.length_replicate, Nat.add_zero]
  have hlength : all.length = (significant all).length + n := by
    simpa using congrArg List.length hzeros
  have hplace : e + 1 - (significant all).length = n + g := by omega
  have hnumber : (digitsValue (significant all) : ℚ) * 10 ^ (e + 1 - (significant all).length) =
      digits * 10 ^ g := by
    rw [hplace, zpow_add₀ (by norm_num), zpow_natCast, ← mul_assoc]
    exact_mod_cast congrArg (fun m : ℕ => (m : ℚ) * 10 ^ g) hvalue.symm
  have hwrite : l.write digits g = if l.least ≤ e ∧ e < l.above then positional (significant all) e
    else l.scientific (significant all) e := rfl
  rw [hwrite, ← hnumber]
  split
  · exact readsAs_positional hne hdigits e
  · exact l.readsAs_scientific hne hdigits e

end Layout

namespace Binary64

variable {e e' : Fin 2047} {f f' : Fin fractions} {negative negative' : Bool}

/-! ## Values -/

/-- The text of a finite value: a minus sign or none, and a number that rounds to the value. -/
theorem exists_render (l : Layout) (negative : Bool) (e : Fin 2047) (f : Fin fractions) :
    ∃ cs x, ((finite negative e f).render l).toList = (if negative then ['-'] else []) ++ cs ∧
      Layout.ReadsAs cs x ∧ (Interval.ofFields e f).Contains x := by
  by_cases hzero : e.val = 0 ∧ f.val = 0
  · refine ⟨_, _, ?_, l.readsAs_write 0 0, ?_⟩
    · simp only [render, if_pos hzero, String.toList_ofList]
    · have hsignificand : significand e f = 0 := by simp [significand, hzero]
      simp [Interval.Contains, Interval.ofFields, hsignificand]
  · refine ⟨_, _, ?_, l.readsAs_write (shortest e f).1 (shortest e f).2, shortest_contains ?_⟩
    · simp only [render, if_neg hzero, String.toList_ofList]
    · have hfractions : fractions = 4503599627370496 := rfl
      unfold significand
      split <;> omega

/-- Whether a text has a minus sign, and the decimal that stands behind it. -/
def readBack (s : String) : Bool × Option Numeral :=
  let (negative, cs) := splitSign s.toList
  (negative, Numeral.decimal? false cs)

theorem readBack_finite (negative : Bool) (e : Fin 2047) (f : Fin fractions) :
    ∃ (digits : ℕ) (place : ℤ), readBack ((finite negative e f).render .plain) =
        (negative, some (.decimal false digits place)) ∧
      (Interval.ofFields e f).Contains (digits * 10 ^ place) := by
  obtain ⟨cs, x, hrender, hreads, hcontains⟩ := exists_render .plain negative e f
  obtain ⟨digits, place, hread, rfl⟩ := hreads.reads
  obtain ⟨c, cs, rfl, hc⟩ := hreads.head
  have hsplit : splitSign ((finite negative e f).render .plain).toList = (negative, c :: cs) := by
    rw [hrender]
    cases negative with
    | false => exact splitSign_chars (s := .none) hc
    | true => exact splitSign_chars (s := .minus) hc
  exact ⟨digits, place, by simp only [readBack, hsplit, hread], hcontains⟩

/-- Different values have different texts. -/
theorem render_injective {x y : Binary64} (h : x.render .plain = y.render .plain) : x = y := by
  have hback := congrArg readBack h
  cases x with
  | nan =>
    cases y with
    | nan => rfl
    | infinite negative => cases negative <;> simp [render] at h
    | finite negative e f =>
      obtain ⟨digits, place, hread, -⟩ := readBack_finite negative e f
      rw [hread] at hback
      cases hback
  | infinite negative =>
    cases y with
    | nan => cases negative <;> simp [render] at h
    | infinite negative' => cases negative <;> cases negative' <;> simp [render] at h ⊢
    | finite negative' e f =>
      obtain ⟨digits, place, hread, -⟩ := readBack_finite negative' e f
      rw [hread] at hback
      cases negative <;> cases hback
  | finite negative e f =>
    obtain ⟨digits, place, hread, hcontains⟩ := readBack_finite negative e f
    rw [hread] at hback
    cases y with
    | nan => cases hback
    | infinite negative' => cases negative' <;> cases hback
    | finite negative' e' f' =>
      obtain ⟨digits', place', hread', hcontains'⟩ := readBack_finite negative' e' f'
      rw [hread'] at hback
      cases hback
      obtain ⟨rfl, rfl⟩ := contains_unique hcontains hcontains'
      rfl

/-- There is no line break in the text of a value. -/
theorem unbroken_render (x : Binary64) : Unbroken (x.render .plain).toList := by
  cases x with
  | nan => simp [render, Unbroken]
  | infinite negative => cases negative <;> simp [render, Unbroken]
  | finite negative e f =>
    obtain ⟨cs, x, hrender, hreads, -⟩ := exists_render .plain negative e f
    rw [hrender]
    refine unbroken_append.mpr ⟨?_, hreads.unbroken⟩
    cases negative <;> simp [Unbroken]

end Binary64

end ScripCheck
