import ScripCheck.Proofs.Token.Literal

/-!
# Maximal munch

* `Kind.Spells`: the texts of each kind of lexeme, without patterns. `accepts_iff_spells`: they are
  what the rule of the kind accepts.
* `Munch`: the lexeme to take at the front of a text. It is the longest that any rule has there, and
  of equally long ones that of the first rule.
* `munch_iff`: the choice among the rules takes this lexeme and no other.
* `lex_munch`: so does each token of a text, and words are told apart by the table of words alone.
-/

namespace ScripCheck

/-! ## The texts of a kind -/

/-- A row of digits. -/
def Digits (ds : List Char) : Prop := ds ≠ [] ∧ ∀ c ∈ ds, c.isDigit = true

/-- The texts of the lexemes of a kind. The words with a kind of their own are spelled like any
other. -/
def Kind.Spells : Kind → List Char → Prop
  | .blank, w => w ≠ [] ∧ ∀ c ∈ w, c = ' ' ∨ c = '\t'
  | .newline, w => w = ['\n'] ∨ w = ['\r']
  | .ident, w => ∃ c cs, w = c :: cs ∧ isWordStart c = true ∧ ∀ d ∈ cs, isWordPart d = true
  | .intLit, w => ∃ (s : Sign) (ds : List Char), w = s.chars ++ ds ∧ Digits ds
  | .floatLit, w => ∃ (s : Sign) (whole part : List Char),
      w = s.chars ++ (whole ++ '.' :: part) ∧ Digits whole ∧ Digits part
  | .strLit, w => ∃ u, w = '"' :: (u ++ ['"']) ∧ '"' ∉ u
  | .globalWord, _ | .funcWord, _ | .whileWord, _ | .ifWord, _ | .returnWord, _ | .boolLit, _ =>
    False
  | .stray, w => ∃ c, w = [c]
  | sign, w => w = sign.display.toList

/-- The kinds that have one text each. -/
def signKinds : List Kind :=
  [.equals, .addEquals, .subEquals, .mulEquals, .divEquals, .plus, .minus, .star, .slash, .dot,
    .comma, .lparen, .rparen, .lbrace, .rbrace]

section Rules

variable {r : Rule} {k : Kind} {w : List Char}

/-- The rules of the signs stand before the last one, each with its text as the pattern. -/
theorem rules_signs : rules = rules.take 6 ++ (signKinds.map fun k => ⟨k, .exactly k.display⟩) ++
    rules.drop 21 := rfl

theorem accepts_sign (hr : r ∈ rules) (hk : r.kind ∈ signKinds) :
    r.pattern.Accepts w ↔ w = r.kind.display.toList := by
  have hmem : (⟨r.kind, .exactly r.kind.display⟩ : Rule) ∈ rules := by
    rw [rules_signs]
    exact List.mem_append_left _ (List.mem_append_right _
      (List.mem_map_of_mem (f := fun k => (⟨k, .exactly k.display⟩ : Rule)) hk))
  rw [rule_unique hr hmem rfl]
  exact Pattern.accepts_exactly

theorem spells_sign (hk : k ∈ signKinds) : k.Spells w ↔ w = k.display.toList := by
  revert hk
  revert k
  simp [signKinds, Kind.Spells]

/-- The language of a rule is what its kind is spelled like. -/
theorem accepts_iff_spells (hr : r ∈ rules) : r.pattern.Accepts w ↔ r.kind.Spells w := by
  have hkinds : ∀ r ∈ rules, r.kind ∈ signKinds ∨ r.kind ∈
      [.blank, .newline, .ident, .intLit, .floatLit, .strLit, .stray] := by decide
  rcases hkinds r hr with hk | hk
  · rw [accepts_sign hr hk, spells_sign hk]
  simp only [List.mem_cons, List.not_mem_nil, or_false] at hk
  rcases hk with hk | hk | hk | hk | hk | hk | hk
  · simp [accepts_blank hr hk, hk, Kind.Spells, isSpace]
  · rw [accepts_newline hr hk, hk, Kind.Spells]
    constructor
    · rintro ⟨c, rfl, hc⟩
      simpa [isBreak] using hc
    · rintro (rfl | rfl)
      · exact ⟨'\n', rfl, rfl⟩
      · exact ⟨'\r', rfl, rfl⟩
  · rw [accepts_ident hr hk, hk, Kind.Spells]
  · rw [accepts_intLit hr hk, hk]; rfl
  · rw [accepts_floatLit hr hk, hk]; rfl
  · rw [accepts_strLit hr hk, hk, Kind.Spells]
  · rw [accepts_stray hr hk, hk, Kind.Spells]

end Rules

/-! ## The lexeme to take -/

/-- The lexeme to take at the front of `cs` is of kind `k` and has `n` characters. -/
structure Munch (cs : List Char) (k : Kind) (n : Nat) : Prop where
  pos : 0 < n
  le : n ≤ cs.length
  longest : ∀ r ∈ rules, ∀ w, w <+: cs → r.kind.Spells w → w.length ≤ n
  source : ∃ before r after, rules = before ++ r :: after ∧ r.kind = k ∧ k.Spells (cs.take n) ∧
    ∀ r' ∈ before, ¬ r'.kind.Spells (cs.take n)

section Munch

variable {cs : List Char} {k k' : Kind} {n n' : Nat}

theorem longestLexeme_munch (hcs : cs ≠ []) :
    Munch cs (longestLexeme cs).1 (longestLexeme cs).2 := by
  obtain ⟨before, r, after, hsplit, hkind, hn, hbefore⟩ := longestLexeme_source hcs
  have hr : r ∈ rules := by simp [hsplit]
  obtain ⟨hlength, haccepts⟩ := Pattern.longest?_accepts hn
  refine ⟨longestLexeme_pos hcs, hlength, fun r' hr' w hw hspells => ?_, before, r, after, hsplit,
    hkind, hkind ▸ (accepts_iff_spells hr).mp haccepts, fun r' hr' hspells => ?_⟩
  · exact le_longestLexeme hr' hw ((accepts_iff_spells hr').mpr hspells)
  · have hmem : r' ∈ rules := hsplit ▸ List.mem_append_left _ hr'
    obtain ⟨m, hm, hle⟩ := Pattern.le_longest? (List.take_prefix _ cs)
      ((accepts_iff_spells hmem).mpr hspells)
    have hlt := hbefore r' hr' m hm
    rw [List.length_take_of_le hlength] at hle
    omega

theorem Munch.length_eq (h : Munch cs k n) (h' : Munch cs k' n') : n = n' := by
  have hle {k k' : Kind} {n n' : Nat} (h : Munch cs k n) (h' : Munch cs k' n') : n ≤ n' := by
    obtain ⟨before, r, after, hsplit, rfl, hspells, -⟩ := h.source
    have hlong := h'.longest r (by simp [hsplit]) _ (List.take_prefix n cs) hspells
    rwa [List.length_take_of_le h.le] at hlong
  exact Nat.le_antisymm (hle h h') (hle h' h)

/-- The lexeme to take is the only one. -/
theorem Munch.unique (h : Munch cs k n) (h' : Munch cs k' n') : k = k' ∧ n = n' := by
  obtain rfl := h.length_eq h'
  obtain ⟨before, r, after, hsplit, rfl, hspells, hbefore⟩ := h.source
  obtain ⟨before', r', after', hsplit', rfl, hspells', hbefore'⟩ := h'.source
  refine ⟨?_, rfl⟩
  -- of two rules with the same text, neither stands before the other
  rcases List.append_eq_append_iff.mp (hsplit.symm.trans hsplit') with
    ⟨as, rfl, has⟩ | ⟨as, rfl, has⟩
  · cases as with
    | nil => exact congrArg Rule.kind (List.cons.inj has).1
    | cons a as =>
      obtain rfl := (List.cons.inj has).1
      exact absurd hspells (hbefore' r (by simp))
  · cases as with
    | nil => exact congrArg Rule.kind (List.cons.inj has).1.symm
    | cons a as =>
      obtain rfl := (List.cons.inj has).1
      exact absurd hspells' (hbefore r' (by simp))

theorem munch_iff (hcs : cs ≠ []) : longestLexeme cs = (k, n) ↔ Munch cs k n := by
  have hmunch := longestLexeme_munch hcs
  refine ⟨fun h => ?_, fun h => ?_⟩
  · rwa [h] at hmunch
  · obtain ⟨hk, hn⟩ := hmunch.unique h
    exact Prod.ext hk hn

end Munch

/-! ## Tokens -/

/-- The kinds that only words of the table have. -/
def wordKinds : List Kind := [.globalWord, .funcWord, .whileWord, .ifWord, .returnWord, .boolLit]

section Tokens

variable {lo : Nat} {cs src : List Char} {t : Token}

/-- Each lexeme is the one at the front of the text from its place on. -/
theorem exists_lexeme (hcs : cs = src.drop lo) (ht : t ∈ lexemes lo cs) :
    ∃ i, src.drop i ≠ [] ∧ t = lexeme i (src.drop i) := by
  induction lo, cs using lexemes_induction with
  | nil lo => simp at ht
  | cons lo cs hne ih =>
    rw [lexemes_eq lo hne] at ht
    rcases List.mem_cons.mp ht with rfl | ht
    · exact ⟨lo, hcs ▸ hne, by rw [hcs]⟩
    · exact ih (by rw [hcs, List.drop_drop]) ht

/-- A word is a plain identifier if the table of words has no entry for it. -/
theorem Kind.ofWord_eq_ident (word : String) :
    Kind.ofWord word = .ident ↔ ∀ k, (word, k) ∉ Kind.words := by
  have hwords : ∀ p ∈ Kind.words, p.2 ≠ .ident := by decide
  constructor
  · intro h k hmem
    unfold ofWord at h
    cases hlookup : words.lookup word with
    | none => simpa using List.lookup_eq_none_iff.mp hlookup _ hmem
    | some k' =>
      obtain ⟨before, after, hsplit, -⟩ := List.lookup_eq_some_iff.mp hlookup
      rw [hlookup] at h
      exact hwords (word, k') (by simp [hsplit]) h
  · intro h
    exact (ofWord_source word).resolve_right (h _)

theorem not_spells_word {k : Kind} (hk : k ∈ wordKinds) (w : List Char) : ¬ k.Spells w := by
  revert hk
  revert k
  simp [wordKinds, Kind.Spells]

/-- A plain identifier is spelled like one and has no entry in the table of words. -/
theorem lexeme_ident (hcs : cs ≠ []) (hk : (lexeme lo cs).kind = .ident) :
    Kind.ident.Spells (lexeme lo cs).text.toList ∧ ∀ k, ((lexeme lo cs).text, k) ∉ Kind.words := by
  obtain ⟨before, r, after, -, -, hspells, -⟩ := (longestLexeme_munch hcs).source
  simp only [lexeme, Kind.refine] at hk ⊢
  split at hk
  · next hident =>
    rw [hident] at hspells
    exact ⟨by rwa [String.toList_ofList], (Kind.ofWord_eq_ident _).mp hk⟩
  · next hident => exact absurd hk hident

/-- A word with a kind of its own has its entry in the table of words. -/
theorem lexeme_word (hcs : cs ≠ []) (hk : (lexeme lo cs).kind ∈ wordKinds) :
    ((lexeme lo cs).text, (lexeme lo cs).kind) ∈ Kind.words := by
  obtain ⟨before, r, after, -, -, hspells, -⟩ := (longestLexeme_munch hcs).source
  have hkind : (longestLexeme cs).1.refine (lexeme lo cs).text = (lexeme lo cs).kind := rfl
  rcases Kind.refine_source hkind with h | h | h
  · exact absurd hspells (not_spells_word (h ▸ hk) _)
  · rw [h] at hk
    exact absurd hk (by decide)
  · exact h

/-- The rules accept what their kinds are spelled like, and at each place of a text the lexeme to
take is chosen. So each token of a text has the longest text of any rule at its place, and it is a
plain identifier or a word of the table according to its text. -/
theorem lex_munch :
    (∀ r ∈ rules, ∀ w, r.pattern.Accepts w ↔ r.kind.Spells w) ∧
    (∀ (src : List Char) (pos : Nat), pos < src.length → ∀ k n,
      longestLexeme (src.drop pos) = (k, n) ↔ Munch (src.drop pos) k n) ∧
    ∀ src ts, lex src = .ok ts → ∀ t ∈ ts,
      (∃ (pos : Nat) (k : Kind), t.span.lo = pos ∧ t.text.toList <+: src.drop pos ∧
        Munch (src.drop pos) k t.text.toList.length ∧ k.refine t.text = t.kind) ∧
      (t.kind = .ident → Kind.ident.Spells t.text.toList ∧ ∀ k, (t.text, k) ∉ Kind.words) ∧
      (t.kind ∈ wordKinds → (t.text, t.kind) ∈ Kind.words) := by
  refine ⟨fun r hr w => accepts_iff_spells hr, fun src pos hpos k n => munch_iff ?_,
    fun src ts hlex t ht => ?_⟩
  · exact fun hnil => Nat.not_lt.mpr (List.drop_eq_nil_iff.mp hnil) hpos
  · obtain ⟨pos, hne, rfl⟩ := exists_lexeme rfl ((lex_sublist hlex).subset ht)
    have hmunch := longestLexeme_munch hne
    have htext : (lexeme pos (src.drop pos)).text.toList =
        (src.drop pos).take (longestLexeme (src.drop pos)).2 := String.toList_ofList
    refine ⟨⟨pos, (longestLexeme (src.drop pos)).1, rfl, htext ▸ List.take_prefix _ _, ?_, rfl⟩,
      lexeme_ident hne, lexeme_word hne⟩
    rwa [htext, List.length_take_of_le hmunch.le]

/-- In `True-12.5` the sign and both rows of digits are one number, and `True` is no identifier. -/
theorem lex_munch_number :
    let src := "True-12.5".toList
    Munch (src.drop 4) .floatLit 5 ∧
      lex src = .ok [⟨.boolLit, "True", ⟨0, 4⟩⟩, ⟨.floatLit, "-12.5", ⟨4, 9⟩⟩] ∧
      ("True", .boolLit) ∈ Kind.words := by
  intro src
  have hlex : lex src = .ok [⟨.boolLit, "True", ⟨0, 4⟩⟩, ⟨.floatLit, "-12.5", ⟨4, 9⟩⟩] := by
    decide +kernel
  obtain ⟨-, hplaces, htokens⟩ := lex_munch
  exact ⟨(hplaces src 4 (by decide) .floatLit 5).mp (by decide +kernel), hlex,
    (htokens src _ hlex _ List.mem_cons_self).2.2 (by decide)⟩

end Tokens

end ScripCheck
