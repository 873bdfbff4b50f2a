import ScripCheck.Proofs.Token.Literal
import ScripCheck.Proofs.Token.Unified

/-!
# Words, numbers and signs at the front of a text

* `longestLexeme_of_only`: a text that only one rule accepts is a lexeme of its kind.
* `longestLexeme_word`: a word goes on as far as its characters do.
* `longestLexeme_intLit`, `longestLexeme_floatLit`: the text of a number.
* `longestLexeme_lone`: some signs are always a lexeme of their own.
-/

namespace ScripCheck

variable {r : Rule} {c : Char} {cs ds v w whole part : List Char} {s : Sign}

/-- Where only one rule accepts the whole text, but for strays, the text is a lexeme of its kind. -/
theorem longestLexeme_of_only (hr : r ∈ rules) (hk : r.kind ≠ .stray) (hw : w ≠ [])
    (h : r.pattern.Accepts w)
    (honly : ∀ r' ∈ rules, r'.pattern.Accepts w → r'.kind ∈ [r.kind, .stray]) :
    longestLexeme w = (r.kind, w.length) := by
  obtain ⟨r', hr', hkind, hlength, haccepts⟩ := longestLexeme_mem hw
  have hlong := Nat.le_antisymm hlength (le_longestLexeme hr (List.prefix_refl w) h)
  rw [hlong, List.take_length] at haccepts
  have hstray := not_stray_of_accepts hr hk (List.prefix_refl w) hw h
  have hk' : r'.kind = r.kind := by simpa [hkind, hstray] using honly r' hr' haccepts
  exact Prod.ext (hkind.symm.trans hk') hlong

/-- A stray is one character. -/
theorem length_of_stray (hr : r ∈ rules) (hk : r.kind = .stray) (h : r.pattern.Accepts w) :
    w.length = 1 := by
  obtain ⟨c, rfl⟩ := (accepts_stray hr hk).mp h
  rfl

/-! ## Words -/

/-- The characters of the tokens that are neither words nor numbers nor string literals. -/
def signChars : List Char :=
  [' ', '\t', '\n', '\r', '+', '-', '*', '/', '=', '.', ',', '(', ')', '\x7b', '\x7d']

theorem not_isDigit_of_isWordStart (hc : isWordStart c = true) : c.isDigit = false := by
  have hcases : c.isAlpha = true ∨ c = '_' := by simpa [isWordStart] using hc
  rcases hcases with h | rfl
  · have hletter : (65 ≤ c.val ∧ c.val ≤ 90) ∨ 97 ≤ c.val ∧ c.val ≤ 122 := by
      have h : (decide (c.val ≥ 'A'.val ∧ c.val ≤ 'Z'.val) ||
        decide (c.val ≥ 'a'.val) && decide (c.val ≤ 'z'.val)) = true := h
      simpa using h
    rw [Char.isDigit]
    grind
  · rfl

/-- The rules whose texts may have a letter. -/
theorem kind_of_letter (hc : isWordStart c = true) :
    ∀ r ∈ rules, r.pattern.alphabet c = true → r.kind ∈ [.ident, .strLit, .stray] := by
  have hsign : c ∉ signChars := fun hmem => by
    have hsigns : ∀ d ∈ signChars, isWordStart d = false := by simp [signChars, isWordStart]
    rw [hsigns c hmem] at hc
    cases hc
  simp only [signChars, List.mem_cons, List.not_mem_nil, or_false, not_or] at hsign
  simp [rules, signedDigits, Pattern.plus, Pattern.optional, Pattern.exactly, Pattern.alphabet,
    hsign, not_isDigit_of_isWordStart hc]

/-- A word goes on as far as its characters do. -/
theorem longestLexeme_word (hc : isWordStart c = true) (hcs : ∀ d ∈ cs, isWordPart d = true)
    (hv : ∀ d ∈ v.head?, isWordPart d = false) :
    longestLexeme (c :: cs ++ v) = (.ident, (c :: cs).length) := by
  have hquote : c ≠ '"' := by
    rintro rfl
    exact absurd hc (by decide)
  have hword : (⟨.ident, .seq (.one isWordStart) (.many (.one isWordPart))⟩ : Rule) ∈ rules :=
    List.getElem_mem (show 2 < rules.length by decide)
  have hkinds {r : Rule} {w : List Char} (hr : r ∈ rules) (h : r.pattern.Accepts (c :: w)) :
      r.kind = .ident ∨ r.kind = .stray := by
    have hk := kind_of_letter hc r hr (h.alphabet List.mem_cons_self)
    simp only [List.mem_cons, List.not_mem_nil, or_false] at hk
    exact hk.imp_right fun hk => hk.resolve_left fun hk => hquote (head_strLit hr hk h)
  have hends : longestLexeme (c :: cs ++ v) = longestLexeme (c :: cs) := by
    refine longestLexeme_append_of_ends fun r hr x hx hprefix haccepts => ?_
    obtain ⟨d, x, rfl⟩ := List.exists_cons_of_ne_nil hx
    obtain ⟨v, rfl⟩ := hprefix
    rcases hkinds hr haccepts with hk | hk
    · obtain ⟨_, _, heq, -, hparts⟩ := (accepts_ident hr hk).mp haccepts
      obtain ⟨-, rfl⟩ := List.cons.inj heq
      have hd := hparts d (by simp)
      rw [hv d rfl] at hd
      cases hd
    · simpa using length_of_stray hr hk haccepts
  rw [hends]
  refine longestLexeme_of_only hword (by decide) (List.cons_ne_nil c cs)
    ((accepts_ident hword rfl).mpr ⟨c, cs, rfl, hc, hcs⟩) fun r hr h => ?_
  simpa using hkinds hr h

/-! ## Numbers -/

/-- The rules whose texts may have a digit. -/
theorem kind_of_digit (hc : c.isDigit = true) : ∀ r ∈ rules, r.pattern.alphabet c = true →
    r.kind ∈ [.ident, .intLit, .floatLit, .strLit, .stray] := by
  have hsign : c ∉ signChars := fun hmem => by
    have hsigns : ∀ d ∈ signChars, d.isDigit = false := by simp [signChars]
    rw [hsigns c hmem] at hc
    cases hc
  simp only [signChars, List.mem_cons, List.not_mem_nil, or_false, not_or] at hsign
  simp [rules, signedDigits, Pattern.plus, Pattern.optional, Pattern.exactly, Pattern.alphabet,
    hsign]

/-- A text that starts like a number is no word and no string literal. -/
theorem kind_of_number (hne : ds ≠ []) (hds : ∀ c ∈ ds, c.isDigit = true) (hr : r ∈ rules)
    (h : r.pattern.Accepts (s.chars ++ (ds ++ v))) : r.kind ∈ [.intLit, .floatLit, .stray] := by
  obtain ⟨d, ds, rfl⟩ := List.exists_cons_of_ne_nil hne
  have hd := hds d List.mem_cons_self
  have hstart : ∀ c ∈ (s.chars ++ (d :: ds ++ v)).head?, isWordStart c = false ∧ c ≠ '"' := by
    have hdigit : isWordStart d = false ∧ d ≠ '"' := by
      refine ⟨Bool.eq_false_iff.mpr fun hstart => ?_, ?_⟩
      · rw [not_isDigit_of_isWordStart hstart] at hd
        cases hd
      · rintro rfl
        cases hd
    cases s with
    | none => simpa [Sign.chars] using hdigit
    | plus => simp [Sign.chars]; decide
    | minus => simp [Sign.chars]; decide
  have hk := kind_of_digit hd r hr (h.alphabet (by simp))
  generalize s.chars ++ (d :: ds ++ v) = w at h hstart
  simp only [List.mem_cons, List.not_mem_nil, or_false] at hk ⊢
  rcases hk with hk | hk | hk | hk | hk
  · obtain ⟨c, cs, rfl, hc, -⟩ := (accepts_ident hr hk).mp h
    rw [(hstart c rfl).1] at hc
    cases hc
  · exact .inl hk
  · exact .inr (.inl hk)
  · obtain ⟨u, rfl, -⟩ := (accepts_strLit hr hk).mp h
    exact absurd rfl (hstart '"' rfl).2
  · exact .inr (.inr hk)

theorem point_not_mem (hds : ∀ c ∈ ds, c.isDigit = true) : '.' ∉ s.chars ++ ds := by
  rw [List.mem_append]
  rintro (h | h)
  · revert h
    cases s <;> decide
  · exact absurd (hds _ h) (by decide)

theorem longestLexeme_intLit (hne : ds ≠ []) (hds : ∀ c ∈ ds, c.isDigit = true) :
    longestLexeme (s.chars ++ ds) = (.intLit, (s.chars ++ ds).length) := by
  have hrule : (⟨.intLit, signedDigits⟩ : Rule) ∈ rules :=
    List.getElem_mem (show 3 < rules.length by decide)
  refine longestLexeme_of_only hrule (by decide) (List.append_ne_nil_of_right_ne_nil _ hne)
    ((accepts_intLit hrule rfl).mpr ⟨s, ds, rfl, hne, hds⟩) fun r hr h => ?_
  have hk := kind_of_number (v := []) hne hds hr (by simpa using h)
  simp only [List.mem_cons, List.not_mem_nil, or_false] at hk ⊢
  rcases hk with hk | hk | hk
  · exact .inl hk
  · obtain ⟨s', whole, part, heq, -⟩ := (accepts_floatLit hr hk).mp h
    exact absurd (heq ▸ by simp) (point_not_mem (s := s) hds)
  · exact .inr hk

theorem longestLexeme_floatLit (hne : whole ≠ []) (hwhole : ∀ c ∈ whole, c.isDigit = true)
    (hne' : part ≠ []) (hpart : ∀ c ∈ part, c.isDigit = true) :
    longestLexeme (s.chars ++ (whole ++ '.' :: part)) =
      (.floatLit, (s.chars ++ (whole ++ '.' :: part)).length) := by
  have hrule : (⟨.floatLit, .seq signedDigits (.seq (.exactly ".") (.plus (.one Char.isDigit)))⟩ :
      Rule) ∈ rules := List.getElem_mem (show 4 < rules.length by decide)
  refine longestLexeme_of_only hrule (by decide) (by simp)
    ((accepts_floatLit hrule rfl).mpr ⟨s, whole, part, rfl, ⟨hne, hwhole⟩, hne', hpart⟩)
    fun r hr h => ?_
  have hk := kind_of_number hne hwhole hr h
  simp only [List.mem_cons, List.not_mem_nil, or_false] at hk ⊢
  rcases hk with hk | hk | hk
  · obtain ⟨s', ds, heq, -, hds⟩ := (accepts_intLit hr hk).mp h
    exact absurd (heq ▸ by simp) (point_not_mem (s := s') hds)
  · exact .inl hk
  · exact .inr hk

/-! ## Signs -/

/-- No token but a string literal goes on after the character at its start. -/
def isLone (c : Char) : Bool := rules.all fun r => match r.pattern.after c with
  | .nothing => true
  | .empty => true
  | _ => false

theorem longestLexeme_lone (hc : isLone c = true) (v : List Char) :
    longestLexeme (c :: v) = longestLexeme [c] := by
  show longestLexeme ([c] ++ v) = longestLexeme [c]
  refine longestLexeme_append_of_ends fun r hr w hw _ haccepts => ?_
  have hafter := Pattern.accepts_after.mpr haccepts
  have hlone := List.all_eq_true.mp hc r hr
  generalize r.pattern.after c = p at hafter hlone
  cases p with
  | nothing => cases hafter
  | empty =>
    cases hafter
    exact hw rfl
  | _ => cases hlone

end ScripCheck
