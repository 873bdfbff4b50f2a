import ScripCheck.Proofs.Check.Diagnosed
import ScripCheck.Proofs.Check.LineBreaks
import ScripCheck.Proofs.Diagnostic.Underline
import ScripCheck.Proofs.Token.Runs
import ScripCheck.Proofs.Tree.Reported

/-!
# Diagnostics as they are shown

* `diagnostic_nonempty`: a diagnostic is about a part of the text that is not empty, or about the end
  of the text.
* `check_underlined`: every diagnostic is shown with a line of the text, and marks its span there.
-/

namespace ScripCheck

variable {src : List Char} {f : Failure} {d : Diagnostic}

/-- A diagnostic is about the end of the text, or about a part of it that is not empty. -/
theorem diagnostic_nonempty (h : check src = .error f) (hd : d ∈ f.diagnostics) :
    d.span = .atEnd src ∨ d.span.lo < d.span.hi := by
  unfold check at h
  cases hlex : lex src with
  | error es =>
    rw [hlex] at h
    cases h
    obtain ⟨e, he, rfl⟩ := List.mem_map.mp hd
    exact .inr (lexErrors_inside hlex e he).2.1
  | ok ts =>
    rw [hlex] at h
    rcases declarations_keeps src ts with ⟨ds, s, hs, harises⟩ | ⟨t, ht, hmisspelled, -⟩
    · rcases checkTokens_eq hs with ⟨program, hok⟩ | ⟨e, es, herrors, herror⟩
      · cases hok.symm.trans h
      · cases herror.symm.trans h
        obtain ⟨e', he', rfl⟩ := List.mem_map.mp hd
        exact (harises e' (herrors ▸ he')).nonempty (lex_inOrder hlex)
    · have hspelled := lex_booleansSpelled hlex t ht hmisspelled.kind
      exact absurd hspelled (not_or.mpr hmisspelled.text)

/-- Where the span of a diagnostic starts and ends, no line break is parted, unless the span is the
first character of one. -/
theorem diagnostic_place (h : check src = .error f) (hd : d ∈ f.diagnostics) :
    ∃ x, d.span.Same src x ∨ d.span.LineBreak src x := by
  have hresults := results_unified src
  rw [h] at hresults
  generalize check (unifyBreaks src) = r at hresults
  cases hresults with
  | error nonempty diagnostics =>
    obtain ⟨i, hi, rfl⟩ := List.getElem_of_mem hd
    exact ⟨_, (diagnostics.get hi (diagnostics.length_eq ▸ hi)).place⟩

/-- What is shown of a diagnostic ends in the line on which its span starts and in an underline of
the part of the span that is on this line. -/
theorem check_underlined (h : check src = .error f) (hd : d ∈ f.diagnostics) (filename : String) :
    ∃ k, 0 < k ∧ d.Underlines src k (d.render src filename) := by
  obtain ⟨x, hplace⟩ := diagnostic_place h hd
  have hcases := diagnostic_nonempty h hd
  have hle : d.span.lo ≤ d.span.hi := by
    rcases hcases with hend | hlt
    · rw [hend]; exact Int.le_refl _
    · omega
  obtain ⟨k, hk⟩ := underlines_of_place hplace hle (fun heq => hcases.resolve_right (by omega))
    filename
  have hlength := hk.length
  exact ⟨k, by omega, hk⟩

/-- Of a string over two lines, and what is before it, the first line is marked. -/
theorem check_underlined_string :
    let src := "= \"ab\r\ncd\" x\n".toList
    ∃ f d, check src = .error f ∧ d ∈ f.diagnostics ∧ d.span = ⟨0, 10⟩ ∧
      d.line src = "= \"ab".toList ∧ d.Underlines src 5 (d.render src "a.scrip") := by
  intro src
  let ts : List Token := [⟨.equals, "=", ⟨0, 1⟩⟩, ⟨.strLit, "\"ab\r\ncd\"", ⟨2, 10⟩⟩,
    ⟨.ident, "x", ⟨11, 12⟩⟩, ⟨.newline, "\n", ⟨12, 13⟩⟩]
  let e : SyntaxError := ⟨.expected declarationStarts (.text "= \"ab\r\ncd\""), ⟨0, 10⟩⟩
  have hlex : lex src = .ok ts := by decide +kernel
  have hparse : parse src ts = .ok ⟨[], [e]⟩ := by decide +kernel
  have hcheck : check src = .error (.syntactic [e]) := by
    rw [check, hlex]
    dsimp only
    rw [checkTokens, hparse]; rfl
  have hmem : e.diagnostic ∈ (Failure.syntactic [e]).diagnostics := List.mem_cons_self
  obtain ⟨k, -, hk⟩ := check_underlined hcheck hmem "a.scrip"
  have hmarked : e.diagnostic.marked src = ⟨0, 5⟩ := by decide +kernel
  have hlength := hk.length
  rw [hmarked] at hlength
  dsimp only at hlength
  obtain rfl : k = 5 := by omega
  exact ⟨_, _, hcheck, hmem, rfl, by decide +kernel, hk⟩

end ScripCheck
