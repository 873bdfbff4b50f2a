import ScripCheck.Check
import ScripCheck.Proofs.Token.Literal
import ScripCheck.Proofs.Tree.Keeping

/-!
# Nothing but diagnostics

* `SyntaxError.Arises.numeral_of_message`: which errors are about a numeral.
* `checkTokens_eq`: checking tokens that can be read ends in a program or in errors.
* `diagnostics_ne_nil`: a failed check has diagnostics, so it is no fault.
* `check_diagnosed`: how checking a text ends, and how reading any tokens ends.
-/

namespace ScripCheck

variable {src : List Char} {ts : List Token} {e : SyntaxError}

theorem SyntaxError.expected_message {kinds : List Kind} {found : Found}
    (h : e.cause = .expected kinds found) : e.message ≠ "invalid numeric literal" := by
  intro hmessage
  have hchars := congrArg String.toList hmessage
  simp [message, h] at hchars

/-- An error about a numeral is at a literal without a value. -/
theorem SyntaxError.Arises.numeral_of_message (h : e.Arises src ts)
    (hmessage : e.message = "invalid numeric literal") :
    ∃ t ∈ ts, t.kind ∈ literalKinds ∧ (∀ v, ¬ Denotes t v) ∧ t.span = e.span := by
  cases h with
  | missing kinds us vs => exact absurd hmessage (expected_message rfl)
  | numeral mem kind noValue => exact ⟨_, mem, kind, noValue, rfl⟩
  | skipped kinds us ws nonempty => exact absurd hmessage (expected_message rfl)

theorem checkTokens_eq {ds : List Decl} {s : Cursor}
    (h : declarations src ⟨ts, [], []⟩ = .found ds s) :
    (∃ program, checkTokens src ts = .ok program) ∨
      ∃ e es, s.errors = e :: es ∧ checkTokens src ts = .error (.syntactic (e :: es)) := by
  have hparse : parse src ts = .ok ⟨ds, s.errors⟩ := by rw [parse, h]
  cases herrors : s.errors with
  | nil =>
    rw [herrors] at hparse
    exact .inl ⟨⟨ds, ⟨0, src.length⟩⟩, by rw [checkTokens, hparse]; rfl⟩
  | cons e es =>
    rw [herrors] at hparse
    exact .inr ⟨e, es, rfl, by rw [checkTokens, hparse]; rfl⟩

/-- A check fails with diagnostics only. -/
theorem diagnostics_ne_nil {f : Failure} (h : check src = .error f) : f.diagnostics ≠ [] := by
  unfold check at h
  cases hlex : lex src with
  | error es =>
    obtain ⟨e, es, rfl, -⟩ := lex_eq_error hlex
    rw [hlex] at h
    cases h
    exact List.cons_ne_nil _ _
  | ok ts =>
    rw [hlex] at h
    rcases declarations_keeps src ts with ⟨ds, s, hs, -⟩ | ⟨t, ht, hmisspelled, -⟩
    · rcases checkTokens_eq hs with ⟨program, hok⟩ | ⟨e, es, -, herror⟩
      · cases hok.symm.trans h
      · cases herror.symm.trans h
        exact List.cons_ne_nil _ _
    · have hspelled := lex_booleansSpelled hlex t ht hmisspelled.kind
      exact absurd hspelled (not_or.mpr hmisspelled.text)

/-- Checking a text gives a program or at least one error, and all errors are of one step. An error
about a numeral is at an integer of more than 4300 digits. Reading any list of tokens comes to its
end, unless a boolean literal among them is neither of the two words. -/
theorem check_diagnosed (src : List Char) :
    ((∃ program, check src = .ok program) ∨
      (∃ e es, lex src = .error (e :: es) ∧ check src = .error (.lexical (e :: es))) ∨
      ∃ ts e es, lex src = .ok ts ∧ check src = .error (.syntactic (e :: es)) ∧
        ∀ e' ∈ e :: es, e'.message = "invalid numeric literal" →
          ∃ t ∈ ts, t.kind = .intLit ∧ t.span = e'.span ∧ 4300 < (digitsIn t.text).length) ∧
    ∀ ts, (∃ ds s, declarations src ⟨ts, [], []⟩ = .found ds s ∧
        parse src ts = .ok ⟨ds, s.errors⟩) ∨
      ∃ t ∈ ts, t.kind = .boolLit ∧ t.text ≠ "True" ∧ t.text ≠ "False" ∧
        parse src ts = .error (.boolean t.text) := by
  refine ⟨?_, fun ts => ?_⟩
  · cases hlex : lex src with
    | error es =>
      obtain ⟨e, es, rfl, -⟩ := lex_eq_error hlex
      exact .inr (.inl ⟨e, es, rfl, by rw [check, hlex]⟩)
    | ok ts =>
      have hcheck : check src = checkTokens src ts := by rw [check, hlex]
      rcases declarations_keeps src ts with ⟨ds, s, hs, harises⟩ | ⟨t, ht, hmisspelled, -⟩
      · rcases checkTokens_eq hs with ⟨program, h⟩ | ⟨e, es, herrors, h⟩
        · exact .inl ⟨program, hcheck.trans h⟩
        · refine .inr (.inr ⟨ts, e, es, rfl, hcheck.trans h, fun e' he' hmessage => ?_⟩)
          obtain ⟨t, ht, hkind, hno, hspan⟩ :=
            (harises e' (herrors ▸ he')).numeral_of_message hmessage
          obtain ⟨hint, hdigits⟩ := lexemes_noValue ((lex_sublist hlex).subset ht) hkind hno
          exact ⟨t, ht, hint, hspan, hdigits⟩
      · have hspelled := lex_booleansSpelled hlex t ht hmisspelled.kind
        exact absurd hspelled (not_or.mpr hmisspelled.text)
  · rcases declarations_keeps src ts with ⟨ds, s, hs, -⟩ | ⟨t, ht, hmisspelled, hfault⟩
    · exact .inl ⟨ds, s, hs, by rw [parse, hs]⟩
    · obtain ⟨htrue, hfalse⟩ := hmisspelled.text
      exact .inr ⟨t, ht, hmisspelled.kind, htrue, hfalse, by rw [parse, hfault]⟩

end ScripCheck
