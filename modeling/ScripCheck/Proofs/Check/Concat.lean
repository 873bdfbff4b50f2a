import ScripCheck.Check
import ScripCheck.Proofs.Token.Seam
import ScripCheck.Proofs.Tree.Acceptance
import ScripCheck.Proofs.Tree.Frame

/-!
# A program before another text

A program ends in a blank, a line break or a closing brace, and with the last of them its last
declaration ends. So a text behind it is lexed and read as if it stood alone.

* `Derives.lastKind`: the last token of a program.
* `lastLexeme_kind`, `isSeam_getLast`: its last lexeme, and its last character.
* `strays_program_append`, `dropLayout_program_append`: errors and tokens of the two texts.
* `parse_program_append`: what reading the tokens of the two texts gives.
* `check_append`: what checking the two texts gives.
-/

namespace ScripCheck

variable {src : List Char} {ts : List Token} {ds : List Decl}

/-- A program ends in a line break or a closing brace. -/
theorem Derives.lastKind {k : Kind} (h : Derives ts ds) (hk : k ∈ lastKind none ts) :
    k = .newline ∨ k = .rbrace := by
  rcases List.eq_nil_or_concat' ts with rfl | ⟨us, t, rfl⟩
  · cases hk
  · obtain ⟨q, -, q', hstep, hend⟩ := Expectation.run_append.mp h.run
    have hend : q' = .start false := hend
    have hkind : t.kind = k := by simpa [ScripCheck.lastKind] using hk
    rw [hend] at hstep
    rw [← hkind]
    cases hstep with
    | blank h => exact .inl h
    | lineEnd h => exact .inl h
    | rbrace h => exact .inr h

/-- The last lexeme of a program is a blank, a line break or a closing brace. -/
theorem lastLexeme_kind {us : List Token} {t : Token} (ht : t.kind ≠ .stray)
    (hds : Derives (dropLayout none (us ++ [t])) ds) : t.kind ∈ [.blank, .newline, .rbrace] := by
  by_cases hblank : t.kind = .blank
  · simp [hblank]
  · by_cases hnewline : t.kind = .newline
    · simp [hnewline]
    · rw [dropLayout_append] at hds
      have hkept : t.kind ∈ lastKind none (dropLayout none us ++
          dropLayout (lastKind none (dropLayout none us)) [t]) := by
        simp [dropLayout, hblank, ht, hnewline, lastKind]
      simp [(hds.lastKind hkept).resolve_left hnewline]

/-- After the last character of a program a text may be cut. -/
theorem isSeam_getLast (hstrays : strays (lexemes 0 src) = [])
    (hds : Derives (dropLayout none (lexemes 0 src)) ds) (hsrc : src ≠ []) :
    isSeam (src.getLast hsrc) = true := by
  rcases List.eq_nil_or_concat' (lexemes 0 src) with hnil | ⟨us, t, hus⟩
  · have hempty := flatMap_lexemes 0 src
    rw [hnil] at hempty
    exact absurd hempty.symm hsrc
  · have ht : t ∈ lexemes 0 src := by rw [hus]; simp
    have htext : us.flatMap (·.text.toList) ++ t.text.toList = src := by
      rw [← flatMap_lexemes 0 src, hus]; simp
    rw [hus] at hds
    obtain ⟨hne, hseam⟩ := lexeme_isSeam ht (lastLexeme_kind (strays_eq_nil.mp hstrays t ht) hds)
    have hlast : src.getLast hsrc = t.text.toList.getLast hne := by
      simp only [← htext]
      exact List.getLast_append_of_ne_nil _ hne
    rw [hlast]
    exact hseam

/-- The lexemes of a program and of a text behind it, but for blanks. -/
theorem solid_program_append (hstrays : strays (lexemes 0 src) = [])
    (hds : Derives (dropLayout none (lexemes 0 src)) ds) (src' : List Char) :
    solid (lexemes 0 (src ++ src')) =
      solid (lexemes 0 src) ++ solid ((lexemes 0 src').map (Token.shift src.length)) := by
  rw [solid_append 0 src src' (strays_eq_nil.mp hstrays) (isSeam_getLast hstrays hds),
    lexemes_shift]

theorem strays_program_append (hstrays : strays (lexemes 0 src) = [])
    (hds : Derives (dropLayout none (lexemes 0 src)) ds) (src' : List Char) :
    strays (lexemes 0 (src ++ src')) =
      (strays (lexemes 0 src')).map (LexError.shift src.length) := by
  have hnone : ∀ t ∈ solid (lexemes 0 src), t.kind ≠ .stray := fun t ht =>
    strays_eq_nil.mp hstrays t (List.mem_filter.mp ht).1
  rw [← strays_solid, solid_program_append hstrays hds, strays_append hnone, strays_solid,
    strays_shift]

theorem dropLayout_program_append (hstrays : strays (lexemes 0 src) = [])
    (hds : Derives (dropLayout none (lexemes 0 src)) ds) (src' : List Char) :
    dropLayout none (lexemes 0 (src ++ src')) = dropLayout none (lexemes 0 src) ++
      (dropLayout none (lexemes 0 src')).map (Token.shift src.length) := by
  have hstart (us : List Token) :
      dropLayout (lastKind none (dropLayout none (lexemes 0 src))) us = dropLayout none us := by
    cases hlast : lastKind none (dropLayout none (lexemes 0 src)) with
    | none => rfl
    | some k =>
      rcases hds.lastKind hlast with rfl | rfl
      · exact dropLayout_absorbs rfl us
      · exact dropLayout_absorbs rfl us
  rw [← dropLayout_solid, solid_program_append hstrays hds, dropLayout_append, dropLayout_solid,
    dropLayout_solid, hstart, dropLayout_shift]

/-! ## Reading -/

/-- Tokens behind a program are read as if they stood alone. -/
theorem parse_program_append (front : List Char) {ts' : List Token} (hds : Derives ts ds)
    (hspelled : BooleansSpelled ts') (hpositive : ∀ t ∈ ts', t.span.Positive) :
    ∃ p, parse src ts' = .ok p ∧
      parse (front ++ src) (ts ++ ts'.map (Token.shift front.length)) =
        .ok ⟨ds ++ p.declarations.map (Decl.shift front.length),
          p.errors.map (SyntaxError.shift front.length)⟩ := by
  obtain ⟨ds', s, hrun, -⟩ := decls_found src (s := ⟨ts', [], []⟩) hspelled
  obtain ⟨s', hmoved, herrors⟩ := decls_moved front hpositive hrun
  refine ⟨_, parse_of_decls hrun, ?_⟩
  cases hds with
  | @intro ds parts =>
    have hfront := decls_run (front ++ src) (s := ⟨ts ++ ts'.map (Token.shift front.length), [], []⟩)
      parts rfl
    rw [Cursor.past, Cursor.widenBy_nil, hmoved] at hfront
    rw [parse_of_decls hfront, herrors]
    simp [List.filterMap_map, List.map_filterMap]

/-! ## Checking -/

/-- A text that is checked without errors is lexed, and its tokens are a program. -/
theorem check_eq_ok {program : Program} (h : check src = .ok program) :
    ∃ ts, lex src = .ok ts ∧ parse src ts = .ok ⟨program.declarations, []⟩ := by
  unfold check at h
  split at h
  · cases h
  · next ts hts =>
    unfold checkTokens at h
    split at h
    · cases h
    · next p hp =>
      refine ⟨ts, hts, ?_⟩
      split at h
      · cases h
      · next program' hprogram =>
        cases h
        unfold Parsed.program? at hprogram
        split at hprogram
        · next herrors =>
          cases hprogram
          rw [hp, ← herrors]
        · cases hprogram

theorem check_of_parse (hlex : lex src = .ok ts) (hparse : parse src ts = .ok ⟨ds, []⟩) :
    check src = .ok ⟨ds, ⟨0, src.length⟩⟩ := by
  rw [check, hlex]
  dsimp only
  rw [checkTokens, hparse]
  rfl

/-- A text behind a program is checked as if it stood alone. Its lexical errors, tokens,
declarations and syntax errors only move; the tokens and declarations of the program come before
them. -/
theorem check_append {program : Program} (src' : List Char) (h : check src = .ok program) :
    ∃ ts, lex src = .ok ts ∧ parse src ts = .ok ⟨program.declarations, []⟩ ∧
      (∀ es, lex src' = .error es →
        lex (src ++ src') = .error (es.map (LexError.shift src.length))) ∧
      ∀ ts', lex src' = .ok ts' →
        lex (src ++ src') = .ok (ts ++ ts'.map (Token.shift src.length)) ∧
        ∃ p, parse src' ts' = .ok p ∧
          parse (src ++ src') (ts ++ ts'.map (Token.shift src.length)) =
            .ok ⟨program.declarations ++ p.declarations.map (Decl.shift src.length),
              p.errors.map (SyntaxError.shift src.length)⟩ := by
  obtain ⟨ts, hlex, hparse⟩ := check_eq_ok h
  obtain ⟨hstrays, hts⟩ := lex_eq_ok hlex
  have hds := Derives.of_parse (lex_booleansSpelled hlex) hparse
  have hdrop := hds
  rw [hts] at hdrop
  refine ⟨ts, hlex, hparse, fun es hes => ?_, fun ts' hts' => ?_⟩
  · obtain ⟨e, es, rfl, hes'⟩ := lex_eq_error hes
    exact lex_of_strays (by rw [strays_program_append hstrays hdrop, hes']; rfl)
  · obtain ⟨hstrays', rfl⟩ := lex_eq_ok hts'
    have hnone : strays (lexemes 0 (src ++ src')) = [] := by
      rw [strays_program_append hstrays hdrop, hstrays']; rfl
    refine ⟨?_, ?_⟩
    · rw [lex_of_no_strays hnone, dropLayout_program_append hstrays hdrop, ← hts]
    · refine parse_program_append src hds (lex_booleansSpelled hts') fun t ht => ?_
      have hspan := lexeme_span ((lex_sublist hts').subset ht)
      exact ⟨by omega, by omega⟩

/-- No separator is needed behind a function: the error in `T x` only moves by 12. -/
theorem check_append_function :
    let front := "func f() \x7b \x7d".toList
    let back := "T x\n".toList
    (∃ program, check front = .ok program) ∧ ∃ ts ts' p, lex front = .ok ts ∧
      lex back = .ok ts' ∧ parse back ts' = .ok p ∧
      lex (front ++ back) = .ok (ts ++ ts'.map (Token.shift 12)) ∧
      (parse (front ++ back) (ts ++ ts'.map (Token.shift 12))).toOption.map (·.errors) =
        some (p.errors.map (SyntaxError.shift 12)) := by
  intro front back
  have hok : (check front).toOption.isSome = true := by decide +kernel
  have hback : lex back = .ok [⟨.ident, "T", ⟨0, 1⟩⟩, ⟨.ident, "x", ⟨2, 3⟩⟩,
      ⟨.newline, "\n", ⟨3, 4⟩⟩] := by decide +kernel
  obtain ⟨program, hprogram⟩ : ∃ program, check front = .ok program := by
    cases hcheck : check front with
    | error e => rw [hcheck] at hok; cases hok
    | ok program => exact ⟨program, rfl⟩
  obtain ⟨ts, hlex, -, -, hall⟩ := check_append back hprogram
  obtain ⟨hboth, p, hp, hparse⟩ := hall _ hback
  have hlength : (front.length : Int) = 12 := rfl
  rw [hlength] at hboth hparse
  exact ⟨⟨program, hprogram⟩, ts, _, p, hlex, hback, hp, hboth, by rw [hparse]; rfl⟩

end ScripCheck
