import ScripCheck.Proofs.Token.Language
import ScripCheck.Proofs.Token.Munch

/-!
# The first character of a lexeme

The first character of a text decides what sort of lexeme is at its front.

* `isPlain`: the characters of the tokens that are no string literals.
* `Leading`: a string literal, if a quote is closed; else one stray character, if it is not plain;
  else a token of plain characters.
* `leading`: the lexeme at the front of a text is of one of these sorts.
-/

namespace ScripCheck

/-- A blank, a line break, or a character of a word, a number or a sign. -/
def isPlain (c : Char) : Bool :=
  isSpace c || isBreak c || isWordStart c || c.isDigit || "+-*/=.,()\x7b\x7d".toList.contains c

section Lexemes

variable {r : Rule} {c : Char} {cs w : List Char}

/-- Only string literals and strays have other characters. -/
theorem alphabet_of_not_plain (hc : isPlain c = false) :
    ∀ r ∈ rules, r.pattern.alphabet c = true → r.kind ∈ [.strLit, .stray] := by
  simp only [isPlain, isSpace, isBreak, String.reduceToList, List.contains_eq_mem, List.mem_cons,
    List.not_mem_nil, or_false, Bool.decide_or, Bool.or_eq_false_iff, beq_eq_false_iff_ne, ne_eq,
    and_assoc, decide_eq_false_iff_not] at hc
  simp [rules, signedDigits, Pattern.plus, Pattern.optional, Pattern.exactly, Pattern.alphabet, hc]

/-- A plain character is a token by itself. -/
theorem accepts_of_isPlain (hc : isPlain c = true) :
    ∃ r ∈ rules, r.kind ∉ [.strLit, .stray] ∧ r.pattern.Accepts [c] := by
  simp only [isPlain, Bool.or_eq_true, or_assoc] at hc
  rcases hc with hc | hc | hc | hc | hc
  · exact ⟨_, List.getElem_mem (show 0 < rules.length by decide), by decide, .seq (.one hc) .done⟩
  · exact ⟨_, List.getElem_mem (show 1 < rules.length by decide), by decide, .one hc⟩
  · exact ⟨_, List.getElem_mem (show 2 < rules.length by decide), by decide, .seq (.one hc) .done⟩
  · exact ⟨_, List.getElem_mem (show 3 < rules.length by decide), by decide,
      .seq (.left .empty) (.seq (.one hc) .done)⟩
  · have hsigns : "+-*/=.,()\x7b\x7d".toList.all (fun c => rules.any fun r =>
        r.kind ∉ [.strLit, .stray] && (r.pattern.after c).nullable) = true := by decide
    obtain ⟨r, hr, hsign⟩ := List.any_eq_true.mp (List.all_eq_true.mp hsigns c (by simpa using hc))
    simp only [Bool.and_eq_true, decide_eq_true_eq] at hsign
    rw [← Pattern.accepts_nil, Pattern.accepts_after] at hsign
    exact ⟨r, hr, hsign⟩

/-! ## Stray characters -/

/-- The lexeme of a stray is one character. -/
theorem longestLexeme_stray (hcs : cs ≠ []) (hk : (longestLexeme cs).1 = .stray) :
    longestLexeme cs = (.stray, 1) := by
  obtain ⟨r, hr, hkind, hlength, haccepts⟩ := longestLexeme_mem hcs
  obtain ⟨c, hc⟩ := (accepts_stray hr (hkind.trans hk)).mp haccepts
  refine Prod.ext hk ?_
  rw [← List.length_take_of_le hlength, hc]; rfl

/-- The rule of strays is the last, so it loses against any other that matches. -/
theorem not_stray_of_accepts (hr : r ∈ rules) (hk : r.kind ≠ .stray) (hw : w <+: cs) (hne : w ≠ [])
    (h : r.pattern.Accepts w) : (longestLexeme cs).1 ≠ .stray := by
  intro hstray
  have hcs : cs ≠ [] := fun hnil => hne (List.prefix_nil.mp (hnil ▸ hw))
  obtain ⟨before, r', after, hsplit, hkind, -, hbefore⟩ := longestLexeme_source hcs
  rw [longestLexeme_stray hcs hstray] at hkind hbefore
  have hafter : after = [] := by
    by_contra hafter
    have hlast : (rules.map (·.kind)).getLast? = some .stray := by decide
    have hkinds : (rules.map (·.kind)).Nodup := by decide
    obtain ⟨last, hlast'⟩ : ∃ last, after.getLast? = some last :=
      ⟨_, List.getLast?_eq_some_getLast hafter⟩
    rw [hsplit, List.map_append, List.map_cons] at hlast hkinds
    have hmem : last.kind ∈ after.map (·.kind) :=
      List.mem_map_of_mem (List.mem_of_getLast? hlast')
    have hlast : last.kind = .stray := by
      simpa [List.getLast?_append, List.getLast?_cons, hlast'] using hlast
    rw [hlast, ← show r'.kind = .stray from hkind] at hmem
    exact (List.nodup_cons.mp (List.nodup_append.mp hkinds).2.1).1 hmem
  subst hafter
  have hmem : r ∈ before := by
    rw [hsplit] at hr
    rcases List.mem_append.mp hr with hr | hr
    · exact hr
    · rw [List.mem_singleton.mp hr] at hk
      exact absurd hkind hk
  obtain ⟨n, hn, hle⟩ := Pattern.le_longest? hw h
  have hlt := hbefore r hmem n hn
  have := List.length_pos_of_ne_nil hne
  omega

/-- The sorts of lexemes, with the texts that they are at the front of. -/
inductive Leading : List Char → Kind × Nat → Prop where
  | literal {u v : List Char} (closed : '"' ∉ u) :
    Leading ('"' :: (u ++ '"' :: v)) (.strLit, u.length + 2)
  | stray {c : Char} {v : List Char} (strange : isPlain c = false)
    (unclosed : c = '"' → '"' ∉ v) : Leading (c :: v) (.stray, 1)
  | token {cs : List Char} {best : Kind × Nat} (kind : best.1 ∉ [.strLit, .stray])
    (plain : ∀ c ∈ cs.take best.2, isPlain c = true) : Leading cs best

theorem leading_of_plain (hc : isPlain c = true) (cs : List Char) :
    Leading (c :: cs) (longestLexeme (c :: cs)) := by
  obtain ⟨r, hr, hk, hone⟩ := accepts_of_isPlain hc
  have hstray : (longestLexeme (c :: cs)).1 ≠ .stray := by
    have hprefix : [c] <+: c :: cs := List.cons_prefix_cons.mpr ⟨rfl, List.nil_prefix⟩
    exact not_stray_of_accepts hr (fun h => hk (by simp [h])) hprefix (List.cons_ne_nil c []) hone
  obtain ⟨r, hr, n, hkind, hn, haccepts⟩ := longestLexeme_cons c cs
  have hliteral : r.kind ≠ .strLit := by
    intro hk
    rw [head_strLit hr hk haccepts] at hc
    exact absurd hc (by decide)
  have hk : r.kind ∉ [.strLit, .stray] := by
    simp only [List.mem_cons, List.not_mem_nil, or_false, not_or]
    exact ⟨hliteral, hkind ▸ hstray⟩
  refine .token (hkind ▸ hk) fun d hd => ?_
  rw [hn, List.take_succ_cons] at hd
  by_contra hplain
  exact hk (alphabet_of_not_plain (Bool.eq_false_iff.mpr hplain) r hr (haccepts.alphabet hd))

theorem leading_of_not_plain (hc : isPlain c = false) (cs : List Char) :
    Leading (c :: cs) (longestLexeme (c :: cs)) := by
  obtain ⟨r, hr, n, hkind, hn, haccepts⟩ := longestLexeme_cons c cs
  have hlength := longestLexeme_le (List.cons_ne_nil c cs)
  have hk := alphabet_of_not_plain hc r hr (haccepts.alphabet List.mem_cons_self)
  simp only [List.mem_cons, List.not_mem_nil, or_false] at hk
  rcases hk with hk | hk
  · obtain ⟨u, hu, hclosed⟩ := (accepts_strLit hr hk).mp haccepts
    obtain ⟨rfl, htake⟩ := List.cons.inj hu
    have hsplit : cs = u ++ '"' :: cs.drop n := by
      rw [List.append_cons, ← htake, List.take_append_drop]
    have hlength : n = u.length + 1 := by
      rw [hn, List.length_cons, Nat.succ_le_succ_iff] at hlength
      rw [← List.length_take_of_le hlength, htake, List.length_append, List.length_singleton]
    have hbest : longestLexeme ('"' :: cs) = (.strLit, u.length + 2) :=
      Prod.ext (hkind.symm.trans hk) (hn.trans (congrArg Nat.succ hlength))
    rw [hbest, hsplit]
    exact .literal hclosed
  · have hstray := longestLexeme_stray (List.cons_ne_nil c cs) (hkind.symm.trans hk)
    rw [hstray]
    refine .stray hc ?_
    rintro rfl hmem
    obtain ⟨u, v, rfl, hu⟩ := List.eq_append_cons_of_mem hmem
    have hrule : (⟨.strLit, .seq (.exactly "\"") (.seq (.many (.one (· != '"'))) (.exactly "\""))⟩ :
      Rule) ∈ rules := List.getElem_mem (show 5 < rules.length by decide)
    have hprefix : '"' :: (u ++ ['"']) <+: '"' :: (u ++ '"' :: v) := ⟨v, by simp⟩
    refine not_stray_of_accepts hrule (by decide) hprefix (List.cons_ne_nil _ _)
      ((accepts_strLit hrule rfl).mpr ⟨u, rfl, hu⟩) (hkind.symm.trans hk)

/-- The lexeme at the front of a text is of one of the sorts. -/
theorem leading (hcs : cs ≠ []) : Leading cs (longestLexeme cs) := by
  obtain ⟨c, cs, rfl⟩ := List.exists_cons_of_ne_nil hcs
  cases hc : isPlain c with
  | true => exact leading_of_plain hc cs
  | false => exact leading_of_not_plain hc cs

end Lexemes

end ScripCheck
