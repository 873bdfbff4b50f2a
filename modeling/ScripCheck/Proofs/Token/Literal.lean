import ScripCheck.Proofs.Number.Numeral
import ScripCheck.Proofs.Token.Language
import ScripCheck.Proofs.Token.Lexemes
import ScripCheck.Proofs.Tree.Grammar

/-!
# The literals of a text

* `accepts_ident`, `accepts_intLit`, `accepts_floatLit`: the texts of words and numerals.
* `lexemes_noValue`: the literals without a value are the integers of too many digits.
-/

namespace ScripCheck

section Rules

variable {r : Rule} {w : List Char}

theorem accepts_ident (hr : r ∈ rules) (hk : r.kind = .ident) : r.pattern.Accepts w ↔
    ∃ c cs, w = c :: cs ∧ isWordStart c = true ∧ ∀ d ∈ cs, isWordPart d = true := by
  have hmem : (⟨.ident, .seq (.one isWordStart) (.many (.one isWordPart))⟩ : Rule) ∈ rules :=
    List.getElem_mem (show 2 < rules.length by decide)
  obtain rfl := rule_unique hr hmem hk
  simp only [Pattern.accepts_seq, Pattern.accepts_one, Pattern.accepts_many_one]
  constructor
  · rintro ⟨_, cs, rfl, ⟨c, rfl, hc⟩, hcs⟩
    exact ⟨c, cs, rfl, hc, hcs⟩
  · rintro ⟨c, cs, rfl, hc, hcs⟩
    exact ⟨[c], cs, rfl, ⟨c, rfl, hc⟩, hcs⟩

theorem accepts_signedDigits : signedDigits.Accepts w ↔ ∃ (s : Sign) (ds : List Char),
    w = s.chars ++ ds ∧ ds ≠ [] ∧ ∀ c ∈ ds, c.isDigit = true := by
  rw [signedDigits, Pattern.accepts_seq]
  simp only [Pattern.optional, Pattern.accepts_alt, Pattern.accepts_one, Pattern.accepts_plus_one]
  constructor
  · rintro ⟨u, ds, rfl, h | ⟨c, rfl, hc⟩, hds⟩
    · cases h
      exact ⟨.none, ds, rfl, hds⟩
    · rcases (by simpa using hc : c = '+' ∨ c = '-') with rfl | rfl
      · exact ⟨.plus, ds, rfl, hds⟩
      · exact ⟨.minus, ds, rfl, hds⟩
  · rintro ⟨s, ds, rfl, hds⟩
    refine ⟨s.chars, ds, rfl, ?_, hds⟩
    cases s with
    | none => exact .inl .empty
    | plus => exact .inr ⟨'+', rfl, rfl⟩
    | minus => exact .inr ⟨'-', rfl, rfl⟩

theorem accepts_intLit (hr : r ∈ rules) (hk : r.kind = .intLit) : r.pattern.Accepts w ↔
    ∃ (s : Sign) (ds : List Char), w = s.chars ++ ds ∧ ds ≠ [] ∧ ∀ c ∈ ds, c.isDigit = true := by
  have hmem : (⟨.intLit, signedDigits⟩ : Rule) ∈ rules :=
    List.getElem_mem (show 3 < rules.length by decide)
  obtain rfl := rule_unique hr hmem hk
  exact accepts_signedDigits

theorem accepts_floatLit (hr : r ∈ rules) (hk : r.kind = .floatLit) : r.pattern.Accepts w ↔
    ∃ (s : Sign) (whole part : List Char), w = s.chars ++ (whole ++ '.' :: part) ∧
      (whole ≠ [] ∧ ∀ c ∈ whole, c.isDigit = true) ∧ part ≠ [] ∧ ∀ c ∈ part, c.isDigit = true := by
  have hmem : (⟨.floatLit, .seq signedDigits (.seq (.exactly ".") (.plus (.one Char.isDigit)))⟩ :
      Rule) ∈ rules := List.getElem_mem (show 4 < rules.length by decide)
  obtain rfl := rule_unique hr hmem hk
  simp only [Pattern.accepts_seq, Pattern.accepts_exactly, Pattern.accepts_plus_one,
    accepts_signedDigits]
  constructor
  · rintro ⟨_, _, rfl, ⟨s, whole, rfl, hwhole⟩, _, part, rfl, rfl, hpart⟩
    exact ⟨s, whole, part, List.append_assoc .., hwhole, hpart⟩
  · rintro ⟨s, whole, part, rfl, hwhole, hpart⟩
    exact ⟨s.chars ++ whole, '.' :: part, (List.append_assoc ..).symm, ⟨s, whole, rfl, hwhole⟩,
      ['.'], part, rfl, rfl, hpart⟩

end Rules

/-! ## Values -/

section Values

variable {lo : Nat} {src : List Char} {t : Token} {s : Sign} {ds whole part : List Char}

theorem denotes_int (hk : t.kind = .intLit) (ht : t.text = String.ofList (s.chars ++ ds))
    (hne : ds ≠ []) (hds : ∀ c ∈ ds, c.isDigit = true) (hlength : ds.length ≤ maxDigits) :
    Denotes t (.int (s.apply (digitsValue ds))) :=
  .int hk (by rw [ht, readInteger?_digits hne hds, if_pos hlength])

theorem denotes_float (hk : t.kind = .floatLit)
    (ht : t.text = String.ofList (s.chars ++ (whole ++ '.' :: part))) (hne : whole ≠ [])
    (hwhole : ∀ c ∈ whole, c.isDigit = true) (hpart : ∀ c ∈ part, c.isDigit = true) :
    Denotes t (.float
      (.ofNumeral (.decimal s.negative (digitsValue (whole ++ part)) (-part.length)))) :=
  .float hk (by rw [ht, Binary64.read?, Numeral.read?_fraction hne hwhole hpart]; rfl)

/-- The digits of a text. -/
def digitsIn (text : String) : List Char := text.toList.filter Char.isDigit

theorem digitsIn_signed (hds : ∀ c ∈ ds, c.isDigit = true) :
    digitsIn (String.ofList (s.chars ++ ds)) = ds := by
  have hsign : s.chars.filter Char.isDigit = [] := by cases s <;> rfl
  rw [digitsIn, String.toList_ofList, List.filter_append, hsign, List.nil_append,
    List.filter_eq_self.mpr hds]

/-- A literal without a value is an integer of too many digits. -/
theorem lexemes_noValue (ht : t ∈ lexemes lo src) (hk : t.kind ∈ literalKinds)
    (hno : ∀ v, ¬ Denotes t v) :
    t.kind = .intLit ∧ maxDigits < (digitsIn t.text).length := by
  obtain ⟨r, hr, haccepts, hkind⟩ := lexemes_rule ht
  have htext : t.text = String.ofList t.text.toList := String.ofList_toList.symm
  have hkinds : t.kind = .intLit ∨ t.kind = .floatLit ∨ t.kind = .boolLit ∨ t.kind = .strLit := by
    simpa [literalKinds] using hk
  rcases hkinds with hk | hk | hk | hk
  · have hrule : r.kind = .intLit := Kind.of_refine (hkind.trans hk) (by decide)
    obtain ⟨s, ds, hw, hne, hds⟩ := (accepts_intLit hr hrule).mp haccepts
    rw [hw] at htext
    refine ⟨hk, Nat.lt_of_not_le fun hle => ?_⟩
    rw [htext, digitsIn_signed hds] at hle
    exact hno _ (denotes_int hk htext hne hds hle)
  · have hrule : r.kind = .floatLit := Kind.of_refine (hkind.trans hk) (by decide)
    obtain ⟨s, whole, part, hw, ⟨hne, hwhole⟩, -, hpart⟩ := (accepts_floatLit hr hrule).mp haccepts
    rw [hw] at htext
    exact absurd (denotes_float hk htext hne hwhole hpart) (hno _)
  · rcases lexemes_booleansSpelled ht hk with h | h
    · exact absurd (.yes hk h) (hno _)
    · exact absurd (.no hk h) (hno _)
  · exact absurd (.str hk) (hno _)

end Values

end ScripCheck
