import ScripCheck.Proofs.Token.Seam
import ScripCheck.Proofs.Token.Unified

/-!
# Two texts with a line break between them

* `longestLexeme_append_line`: a line break ends the lexeme before it, whatever that is, if it is no
  stray character. `lexemes_append_line`: so the lexemes of two texts stay the same.
* `dropLayout_line`: what a line break leaves to the tokens behind it does not depend on those
  before it.
* `lex_append_line`: the tokens and errors of two texts with a line break between them.
-/

namespace ScripCheck

section Lexemes

variable {cs : List Char} {c : Char}

/-- A line break ends the lexeme before it, unless this is a quote without a partner. -/
theorem longestLexeme_append_line (hcs : cs ≠ []) (hstray : (longestLexeme cs).1 ≠ .stray)
    (hc : isBreak c = true) (v : List Char) : longestLexeme (cs ++ c :: v) = longestLexeme cs := by
  by_cases hquote : cs.head? = some '"'
  · obtain ⟨cs, rfl⟩ := List.head?_eq_some_iff.mp hquote
    have hclosed : '"' ∈ cs := by
      by_contra hopen
      exact hstray (stray_of_unclosed hopen)
    obtain ⟨u, w, rfl, hu⟩ := List.eq_append_cons_of_mem hclosed
    rw [List.cons_append, List.append_assoc, List.cons_append, longestLexeme_literal hu,
      longestLexeme_literal hu]
  · exact longestLexeme_append_break hcs hquote (by simpa using hc)

/-- The lexemes of two texts with a line break between them are those of the first and those from
the line break on. -/
theorem lexemes_append_line (lo : Nat) (cs : List Char)
    (hstray : ∀ t ∈ lexemes lo cs, t.kind ≠ .stray) (hc : isBreak c = true) (v : List Char) :
    lexemes lo (cs ++ c :: v) = lexemes lo cs ++ lexemes (lo + cs.length) (c :: v) := by
  induction lo, cs using lexemes_induction with
  | nil lo => simp
  | cons lo cs hcs ih =>
    rw [lexemes_eq lo hcs] at hstray ⊢
    obtain ⟨hfirst, hrest⟩ := List.forall_mem_cons.mp hstray
    have hbest := longestLexeme_append_line hcs (mt lexeme_isStray.mpr hfirst) hc v
    rw [lexemes_append_front lo hcs hbest, ih hrest, offset_drop lo hcs, List.cons_append]

end Lexemes

section Layout

variable {last : Option Kind} {t : Token}

theorem dropLayout_of_absorbs (h : last.all Kind.absorbsNewline = true) (ts : List Token) :
    dropLayout last ts = dropLayout none ts := by
  cases last with
  | none => rfl
  | some k => exact dropLayout_absorbs h ts

/-- Behind a line break, kept or not, tokens are dropped as at the start of a text. -/
theorem dropLayout_line (hk : t.kind = .newline) (last : Option Kind) (ts : List Token) :
    dropLayout last (t :: ts) =
      (if last.all Kind.absorbsNewline then [] else [t]) ++ dropLayout none ts := by
  rw [dropLayout, if_neg (by simp [hk])]
  by_cases habsorbs : last.all Kind.absorbsNewline = true
  · rw [if_pos ⟨hk, habsorbs⟩, if_pos habsorbs, dropLayout_of_absorbs habsorbs, List.nil_append]
  · rw [if_neg fun h => habsorbs h.2, if_neg habsorbs, hk, dropLayout_absorbs rfl,
      List.singleton_append]

end Layout

section Texts

variable {src : List Char} {ts : List Token} {c : Char}

/-- The lexemes behind a text and a line break, moved to their place. -/
theorem lexemes_append_break (hstray : ∀ t ∈ lexemes 0 src, t.kind ≠ .stray) (hc : isBreak c = true)
    (src' : List Char) : lexemes 0 (src ++ c :: src') = lexemes 0 src ++
      ⟨.newline, String.ofList [c], ⟨src.length, src.length + 1⟩⟩ ::
        (lexemes 0 src').map (Token.shift (src.length + 1)) := by
  have hshift := lexemes_shift (src.length + 1) 0 src'
  rw [Nat.zero_add] at hshift
  rw [lexemes_append_line 0 src hstray hc, Nat.zero_add, lexemes_break _ hc, hshift]
  rfl

/-- With a line break between a text that lexes and another text, the errors are those of the other
text, moved to their place. If there are none, the tokens are those of the first text, the line
break, where it ends a statement, and those of the other text. -/
theorem lex_append_line (hc : isBreak c = true) (h : lex src = .ok ts) (src' : List Char) :
    (∀ es, lex src' = .error es →
      lex (src ++ c :: src') = .error (es.map (LexError.shift (src.length + 1)))) ∧
    ∀ ts', lex src' = .ok ts' → lex (src ++ c :: src') = .ok (ts ++
      (if (lastKind none ts).all Kind.absorbsNewline then []
        else [⟨.newline, String.ofList [c], ⟨src.length, src.length + 1⟩⟩]) ++
      ts'.map (Token.shift (src.length + 1))) := by
  obtain ⟨hnone, rfl⟩ := lex_eq_ok h
  have hstray := strays_eq_nil.mp hnone
  have hlexemes := lexemes_append_break hstray hc src'
  have hstrays : strays (lexemes 0 (src ++ c :: src')) =
      (strays (lexemes 0 src')).map (LexError.shift (src.length + 1)) := by
    rw [hlexemes, strays_append hstray, strays, if_neg (by simp), strays_shift]
  refine ⟨fun es hes => ?_, fun ts' hts' => ?_⟩
  · obtain ⟨e, es, rfl, hes'⟩ := lex_eq_error hes
    exact lex_of_strays (by rw [hstrays, hes']; rfl)
  · obtain ⟨hnone', rfl⟩ := lex_eq_ok hts'
    have hboth : strays (lexemes 0 (src ++ c :: src')) = [] := by rw [hstrays, hnone']; rfl
    rw [lex_of_no_strays hboth, hlexemes, dropLayout_append, dropLayout_line rfl, dropLayout_shift,
      List.append_assoc]

/-- The sign at the end of `x +` stays alone, although `1` follows on the next line. -/
theorem lex_append_line_sign :
    let src := "x +".toList
    let ts : List Token := [⟨.ident, "x", ⟨0, 1⟩⟩, ⟨.plus, "+", ⟨2, 3⟩⟩]
    lex src = .ok ts ∧ lex "1".toList = .ok [⟨.intLit, "1", ⟨0, 1⟩⟩] ∧
      lex (src ++ '\r' :: "1".toList) =
        .ok (ts ++ [⟨.newline, "\r", ⟨3, 4⟩⟩, ⟨.intLit, "1", ⟨4, 5⟩⟩]) := by
  intro src ts
  have hsrc : lex src = .ok ts := by decide +kernel
  have hnext : lex "1".toList = .ok [⟨.intLit, "1", ⟨0, 1⟩⟩] := by decide +kernel
  exact ⟨hsrc, hnext, (lex_append_line rfl hsrc _).2 _ hnext⟩

end Texts

end ScripCheck
