import Mathlib.Algebra.Group.Nat.Defs
import Mathlib.Data.List.TakeWhile
import ScripCheck.Number.Binary64

/-!
# What numerals are worth

The numerals among the literals have no blanks, no underscores and no exponent: a sign or none,
digits, and for a fraction a point and more digits.

* `Sign`: the signs. `numeralChars?_numeric`: such a text is read as it is.
* `readInteger?_digits`: an integer has a value unless it has too many digits.
* `Numeral.read?_fraction`: a fraction always has one.
* `digitsValue_toDigits`: decimal digits are read back. `toString_int_injective`: so are integers.
-/

namespace ScripCheck

/-- The sign of a numeral, if it has one. -/
inductive Sign where
  | none
  | plus
  | minus
deriving DecidableEq

/-- The sign as a text. -/
def Sign.chars : Sign → List Char
  | none => []
  | plus => ['+']
  | minus => ['-']

/-- Whether the number is the opposite of what its digits say. -/
def Sign.negative (s : Sign) : Bool := s = .minus

/-- The number with this sign. -/
def Sign.apply (s : Sign) (n : Int) : Int := if s.negative then -n else n

/-- A character of a numeral that is a literal. -/
def isNumeric (c : Char) : Bool := c.isDigit || c == '+' || c == '-' || c == '.'

variable {s : Sign} {c : Char} {cs ds whole part : List Char}

theorem isNumeric_of_isDigit (h : c.isDigit = true) : isNumeric c = true := by
  simp [isNumeric, h]

theorem Sign.isNumeric_of_mem (h : c ∈ s.chars) : isNumeric c = true := by
  cases s with
  | none => cases h
  | plus => rw [List.mem_singleton.mp h]; rfl
  | minus => rw [List.mem_singleton.mp h]; rfl

/-! ## The characters of a numeral -/

theorem isBlank_of_isNumeric (h : isNumeric c = true) : isBlank c = false := by
  have hcases : c.isDigit = true ∨ c = '+' ∨ c = '-' ∨ c = '.' := by
    simpa [isNumeric, or_assoc] using h
  rcases hcases with h | rfl | rfl | rfl
  · have hrange : 48 ≤ c.toNat ∧ c.toNat ≤ 57 := by
      simpa [Char.isDigit, UInt32.le_iff_toNat_le] using h
    simp only [isBlank]
    grind
  all_goals decide

theorem asciiDigit_of_isNumeric (h : isNumeric c = true) : asciiDigit c = c := by
  have hcases : c.isDigit = true ∨ c = '+' ∨ c = '-' ∨ c = '.' := by
    simpa [isNumeric, or_assoc] using h
  rcases hcases with h | rfl | rfl | rfl
  · exact if_pos h
  all_goals decide

theorem trim_eq_self (h : ∀ c ∈ cs, isBlank c = false) : trim cs = cs := by
  have hkeep (cs : List Char) (h : ∀ c ∈ cs, isBlank c = false) : cs.dropWhile isBlank = cs := by
    cases cs with
    | nil => rfl
    | cons c cs => exact List.dropWhile_cons_of_neg (by simp [h c])
  rw [trim, hkeep cs h, hkeep cs.reverse (by simpa using h), List.reverse_reverse]

theorem ungroupAfter?_eq_self {last : Char} (hlast : last ≠ '_') (h : '_' ∉ cs) :
    ungroupAfter? last cs = some cs := by
  induction cs generalizing last with
  | nil => exact if_neg hlast
  | cons c cs ih =>
    have hc : c ≠ '_' := fun hc => h (hc ▸ List.mem_cons_self)
    rw [ungroupAfter?, if_neg hc, if_neg fun h => hlast h.1,
      ih hc fun hmem => h (List.mem_cons_of_mem c hmem)]
    rfl

/-- A text of digits, signs and points is read as it is. -/
theorem numeralChars?_numeric (h : ∀ c ∈ cs, isNumeric c = true) :
    numeralChars? (String.ofList cs) = some cs := by
  have hmap : cs.map asciiDigit = cs :=
    (List.map_congr_left fun c hc => asciiDigit_of_isNumeric (h c hc)).trans (List.map_id cs)
  have hscore : '_' ∉ cs := fun hmem => absurd (h _ hmem) (by decide)
  rw [numeralChars?, String.toList_ofList, trim_eq_self fun c hc => isBlank_of_isNumeric (h c hc),
    hmap, ungroup?, ungroupAfter?_eq_self (by decide) hscore]

theorem splitSign_chars (hc : c.isDigit = true) :
    splitSign (s.chars ++ c :: cs) = (s.negative, c :: cs) := by
  have hplus : c ≠ '+' := by rintro rfl; cases hc
  have hminus : c ≠ '-' := by rintro rfl; cases hc
  cases s with
  | none => simp [Sign.chars, splitSign, Sign.negative, hplus, hminus]
  | plus => rfl
  | minus => rfl

/-! ## Integers -/

/-- An integer has a value unless it has too many digits. -/
theorem readInteger?_digits (hne : ds ≠ []) (hds : ∀ c ∈ ds, c.isDigit = true) :
    readInteger? (String.ofList (s.chars ++ ds)) =
      if ds.length ≤ maxDigits then some (s.apply (digitsValue ds)) else none := by
  have hnumeric : ∀ c ∈ s.chars ++ ds, isNumeric c = true := List.forall_mem_append.mpr
    ⟨fun c hc => Sign.isNumeric_of_mem hc, fun c hc => isNumeric_of_isDigit (hds c hc)⟩
  obtain ⟨d, ds, rfl⟩ := List.exists_cons_of_ne_nil hne
  have hall : (d :: ds).all Char.isDigit = true := List.all_eq_true.mpr hds
  rw [readInteger?, numeralChars?_numeric hnumeric, Option.bind_eq_bind, Option.bind_some,
    splitSign_chars (hds d List.mem_cons_self)]
  dsimp only
  by_cases hlength : (d :: ds).length ≤ maxDigits
  · have hguard : (guard (d :: ds ≠ [] ∧ (d :: ds).all Char.isDigit = true ∧
        (d :: ds).length ≤ maxDigits) : Option Unit) = some () := if_pos ⟨hne, hall, hlength⟩
    rw [hguard, if_pos hlength]
    rfl
  · have hguard : (guard (d :: ds ≠ [] ∧ (d :: ds).all Char.isDigit = true ∧
        (d :: ds).length ≤ maxDigits) : Option Unit) = none := if_neg fun h => hlength h.2.2
    rw [hguard, if_neg hlength]
    rfl

theorem digitsValue_toDigits (n : Nat) : digitsValue (Nat.toDigits 10 n) = n := by
  have h := Nat.ofDigitChars_ten_toDigits (n := n)
  rwa [Nat.ofDigitChars_eq_foldl] at h

theorem digitsValue_append (us vs : List Char) :
    digitsValue (us ++ vs) = digitsValue us * 10 ^ vs.length + digitsValue vs := by
  induction vs generalizing us with
  | nil => simp [digitsValue]
  | cons c vs ih =>
    have hconcat : digitsValue (us ++ [c]) = 10 * digitsValue us + digitsValue [c] := by
      simp [digitsValue, List.foldl_append]
    have hcons : digitsValue (c :: vs) = digitsValue [c] * 10 ^ vs.length + digitsValue vs := ih [c]
    rw [List.append_cons, ih, hconcat, hcons, Nat.add_mul, Nat.add_assoc, List.length_cons,
      Nat.pow_succ', Nat.mul_comm 10, Nat.mul_assoc]

theorem digitsValue_zeros (n : Nat) : digitsValue (List.replicate n '0') = 0 := by
  induction n with
  | zero => rfl
  | succ n ih => simpa [List.replicate_succ, digitsValue] using ih

/-- The text of an integer is a sign and digits. -/
theorem toList_toString_int (n : Int) : ∃ s : Sign,
    (toString n).toList = s.chars ++ Nat.toDigits 10 n.natAbs ∧ s.apply n.natAbs = n := by
  cases n with
  | ofNat m =>
    refine ⟨.none, ?_, rfl⟩
    show (Nat.repr m).toList = _
    rw [Nat.repr_eq_ofList_toDigits, String.toList_ofList]
    rfl
  | negSucc m =>
    refine ⟨.minus, ?_, rfl⟩
    show ("-" ++ Nat.repr (m + 1)).toList = _
    rw [Nat.repr_eq_ofList_toDigits, String.toList_append]
    exact congrArg ('-' :: ·) String.toList_ofList

/-- The text of an integer is read back. -/
theorem splitSign_toString (n : Int) : ∃ (s : Sign) (ds : List Char),
    splitSign (toString n).toList = (s.negative, ds) ∧ s.apply (digitsValue ds) = n := by
  obtain ⟨s, hchars, hvalue⟩ := toList_toString_int n
  obtain ⟨d, ds, hds⟩ := List.exists_cons_of_ne_nil (Nat.toDigits_ne_nil (b := 10) (n := n.natAbs))
  have hd : d.isDigit = true :=
    Nat.isDigit_of_mem_toDigits (by decide) (by decide) (hds ▸ List.mem_cons_self)
  refine ⟨s, d :: ds, ?_, ?_⟩
  · rw [hchars, hds, splitSign_chars hd]
  · rw [← hds, digitsValue_toDigits, hvalue]

/-- Different integers have different texts. -/
theorem toString_int_injective {n m : Int} (h : toString n = toString m) : n = m := by
  obtain ⟨s, ds, hread, rfl⟩ := splitSign_toString n
  obtain ⟨s', ds', hread', rfl⟩ := splitSign_toString m
  rw [h, hread'] at hread
  obtain ⟨hsign, rfl⟩ := Prod.mk.inj hread
  simp only [Sign.apply, hsign]

/-- The text of an integer has only digits and a sign. -/
theorem of_mem_toString {n : Int} (h : c ∈ (toString n).toList) :
    c.isDigit = true ∨ c = '+' ∨ c = '-' := by
  obtain ⟨s, hchars, -⟩ := toList_toString_int n
  rw [hchars] at h
  rcases List.mem_append.mp h with h | h
  · cases s with
    | none => cases h
    | plus => exact .inr (.inl (List.mem_singleton.mp h))
    | minus => exact .inr (.inr (List.mem_singleton.mp h))
  · exact .inl (Nat.isDigit_of_mem_toDigits (by decide) (by decide) h)

/-! ## Fractions -/

/-- A text that starts with a digit is none of the words for what is no finite number. -/
theorem Numeral.word?_digit {negative : Bool} (hc : c.isDigit = true) :
    word? negative (c :: cs) = none := by
  have hlower : c.toLower = c := by
    have hupper : ¬ (c.val ≥ 'A'.val ∧ c.val ≤ 'Z'.val) := by
      simp only [Char.isDigit, Bool.and_eq_true, decide_eq_true_eq] at hc
      grind
    exact dif_neg hupper
  have hword (d : Char) (ds : List Char) (hd : d.isDigit = false) :
      String.ofList (c :: cs.map Char.toLower) ≠ String.ofList (d :: ds) := fun h => by
    obtain ⟨rfl, -⟩ := List.cons.inj (String.ofList_inj.mp h)
    rw [hc] at hd
    cases hd
  rw [word?, List.map_cons, hlower]
  split
  · next h => exact absurd h (hword 'i' ['n', 'f'] rfl)
  · next h => exact absurd h (hword 'i' ['n', 'f', 'i', 'n', 'i', 't', 'y'] rfl)
  · next h => exact absurd h (hword 'n' ['a', 'n'] rfl)
  · rfl

theorem takeWhile_digits {rest : List Char} (hds : ∀ c ∈ ds, c.isDigit = true)
    (hrest : ∀ c ∈ rest.head?, c.isDigit = false) : (ds ++ rest).takeWhile Char.isDigit = ds := by
  rw [List.takeWhile_append_of_pos hds]
  cases rest with
  | nil => exact List.append_nil ds
  | cons c cs => simp [hrest c rfl]

theorem dropWhile_digits {rest : List Char} (hds : ∀ c ∈ ds, c.isDigit = true)
    (hrest : ∀ c ∈ rest.head?, c.isDigit = false) : (ds ++ rest).dropWhile Char.isDigit = rest := by
  rw [List.dropWhile_append_of_pos hds]
  cases rest with
  | nil => rfl
  | cons c cs => simp [hrest c rfl]

/-- Digits, a point and more digits, before something that is no digit. -/
theorem Numeral.decimal?_point (negative : Bool) (rest : List Char) (hne : whole ≠ [])
    (hwhole : ∀ c ∈ whole, c.isDigit = true) (hpart : ∀ c ∈ part, c.isDigit = true)
    (hrest : ∀ c ∈ rest.head?, c.isDigit = false) :
    decimal? negative (whole ++ '.' :: (part ++ rest)) = (exponent? rest).map fun e =>
      .decimal negative (digitsValue (whole ++ part)) (e - part.length) := by
  have hpoint : ∀ c ∈ ('.' :: (part ++ rest)).head?, c.isDigit = false := by
    rintro _ ⟨⟩
    rfl
  simp [decimal?, takeWhile_digits hwhole hpoint, dropWhile_digits hwhole hpoint,
    takeWhile_digits hpart hrest, dropWhile_digits hpart hrest, hne]

/-- Digits without a point, before something that is neither a digit nor a point. -/
theorem Numeral.decimal?_whole (negative : Bool) (rest : List Char) (hne : whole ≠ [])
    (hwhole : ∀ c ∈ whole, c.isDigit = true)
    (hrest : ∀ c ∈ rest.head?, c.isDigit = false ∧ c ≠ '.') :
    decimal? negative (whole ++ rest) =
      (exponent? rest).map fun e => .decimal negative (digitsValue whole) e := by
  have hdigit : ∀ c ∈ rest.head?, c.isDigit = false := fun c hc => (hrest c hc).1
  rw [decimal?, takeWhile_digits hwhole hdigit, dropWhile_digits hwhole hdigit]
  cases rest with
  | nil => simp [hne]
  | cons c cs => simp [hne, (hrest c rfl).2]

/-- A fraction has a value. -/
theorem Numeral.read?_fraction (hne : whole ≠ []) (hwhole : ∀ c ∈ whole, c.isDigit = true)
    (hpart : ∀ c ∈ part, c.isDigit = true) :
    Numeral.read? (String.ofList (s.chars ++ (whole ++ '.' :: part))) =
      some (.decimal s.negative (digitsValue (whole ++ part)) (-part.length)) := by
  have hnumeric : ∀ c ∈ s.chars ++ (whole ++ '.' :: part), isNumeric c = true := by
    simp only [List.mem_append, List.mem_cons]
    rintro c (hc | hc | rfl | hc)
    · exact Sign.isNumeric_of_mem hc
    · exact isNumeric_of_isDigit (hwhole c hc)
    · rfl
    · exact isNumeric_of_isDigit (hpart c hc)
  have hdecimal (negative : Bool) : decimal? negative (whole ++ '.' :: part) =
      some (.decimal negative (digitsValue (whole ++ part)) (-part.length)) := by
    have hpoint := decimal?_point negative [] hne hwhole hpart (by simp)
    simpa [exponent?] using hpoint
  obtain ⟨d, whole, rfl⟩ := List.exists_cons_of_ne_nil hne
  have hd := hwhole d List.mem_cons_self
  rw [List.cons_append] at hnumeric hdecimal ⊢
  rw [read?, numeralChars?_numeric hnumeric]
  simp [splitSign_chars hd, word?_digit hd, hdecimal]

end ScripCheck
