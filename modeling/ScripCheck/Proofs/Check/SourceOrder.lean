import ScripCheck.Proofs.Token.Gaps
import ScripCheck.Proofs.Tree.ErrorOrder

/-!
# Syntax errors in the order of the text

* `lex_fits`: the tokens of a text fit it.
* `Cursor.Adds.split`: errors up to the end of a text are a row, and two more at most about the end.
* `lex_parse_ordered`: the syntax errors of a text come one after another, and no token is reported
  twice.
-/

namespace ScripCheck

/-- The error is about the token, or about a run of tokens that it is one of. -/
def SyntaxError.Covers (e : SyntaxError) (t : Token) : Prop :=
  e.span.lo ≤ t.span.lo ∧ t.span.hi ≤ e.span.hi

section Rows

variable {src : List Char} {lo : Int} {e e' : SyntaxError} {es tail : List SyntaxError} {t : Token}
  {s s' : Cursor} {T : List SyntaxError → SyntaxError → Prop}

theorem Fits.here_nonneg (hs : Fits src s.rest) : 0 ≤ (s.here src).lo := by
  cases hrest : s.rest with
  | nil =>
    rw [Cursor.here_nil hrest]
    exact Int.natCast_nonneg _
  | cons t ts =>
    rw [Cursor.here_cons hrest]
    exact (hs.inside t (hrest ▸ List.mem_cons_self)).1

/-- At the end of a text the errors are a row, and two more at most about the end. -/
theorem Cursor.Adds.split (h : s.Adds src T s') (hend : s'.rest = []) : ∃ es tail,
    s'.errors = s.errors ++ es ++ tail ∧ Row (s.here src).lo es src.length ∧
      (∀ e ∈ tail, e.span = .atEnd src) ∧ tail.length ≤ 2 ∧
      ∀ e e', tail = [e, e'] → e' = missingBrace src ∧ T (s.errors ++ es) e := by
  have hhere {s₁ : Cursor} (hrest : s₁.rest = s'.rest) : s₁.here src = .atEnd src :=
    Cursor.here_nil (hrest.trans hend)
  cases h with
  | clear clear =>
    obtain ⟨es, herrors, hrow⟩ := clear.errors
    rw [hhere rfl] at hrow
    exact ⟨es, [], by simp [herrors], hrow, nofun, by simp, nofun⟩
  | @here s₁ e clear rest errors span =>
    obtain ⟨es, herrors, hrow⟩ := clear.errors
    rw [hhere rest] at hrow
    refine ⟨es, [e], by rw [errors, herrors], hrow, ?_, by simp, nofun⟩
    exact List.forall_mem_singleton.mpr (span.trans (hhere rfl))
  | @twice s₁ e clear rest ends errors span twice =>
    obtain ⟨es, herrors, hrow⟩ := clear.errors
    rw [hhere rest] at hrow
    refine ⟨es, [e, missingBrace src], by rw [errors, herrors], hrow, ?_, by simp, ?_⟩
    · exact List.forall_mem_cons.mpr ⟨span, List.forall_mem_singleton.mpr rfl⟩
    · rintro _ _ ⟨⟩
      exact ⟨rfl, herrors ▸ twice⟩

/-- Errors about the end of the text come behind a row of others. -/
theorem Row.pairwise_end (h : Row lo es src.length) (htail : ∀ e ∈ tail, e.span = .atEnd src) :
    (es ++ tail).Pairwise (·.span.hi ≤ ·.span.lo) := by
  refine List.pairwise_append.mpr ⟨h.pairwise, ?_, fun e he e' he' => ?_⟩
  · refine List.pairwise_of_forall_mem_list fun e he e' he' => ?_
    rw [htail e he, htail e' he']
    exact Int.le_refl _
  · rw [htail e' he']
    exact (h.between he).2.2

/-- No error of the row is about the end of the text. -/
theorem Row.filter_end (h : Row lo es src.length) (htail : ∀ e ∈ tail, e.span = .atEnd src) :
    (es ++ tail).filter (·.span = .atEnd src) = tail := by
  have hes : es.filter (·.span = .atEnd src) = [] := by
    refine List.filter_eq_nil_iff.mpr fun e he hspan => ?_
    have hrange := h.between he
    rw [of_decide_eq_true hspan] at hrange
    exact Int.lt_irrefl _ hrange.2.1
  have htail' : tail.filter (·.span = .atEnd src) = tail :=
    List.filter_eq_self.mpr fun e he => decide_eq_true (htail e he)
  rw [List.filter_append, hes, htail', List.nil_append]

theorem not_covers_both (ht : t.span.lo < t.span.hi) (h : e.span.hi ≤ e'.span.lo) :
    ¬ (e.Covers t ∧ e'.Covers t) := by
  rintro ⟨⟨-, hhi⟩, hlo, -⟩
  omega

end Rows

section Texts

variable {src : List Char} {ts : List Token}

theorem lex_fits (h : lex src = .ok ts) : Fits src ts := by
  refine ⟨lex_inOrder h, fun t ht => ⟨(lexeme_span ((lex_sublist h).subset ht)).1, ?_⟩⟩
  simpa using (lex_laced h).le_length ht

/-- The syntax errors of a text come one after another, and only those about the end of the text
have an empty span. There are two of them at most, and if there are two, the second one is about the
closing brace of the body that the first one is in. No token is reported twice. -/
theorem lex_parse_ordered (hlex : lex src = .ok ts) : ∃ p, parse src ts = .ok p ∧
    (∀ e ∈ p.errors, 0 ≤ e.span.lo ∧ e.span.lo ≤ e.span.hi ∧ e.span.hi ≤ src.length ∧
      (e.span.lo = e.span.hi → e.span = .atEnd src)) ∧
    p.errors.Pairwise (·.span.hi ≤ ·.span.lo) ∧
    (p.errors.filter (·.span = .atEnd src)).length ≤ 2 ∧
    (∀ e e', [e, e'].Sublist p.errors → e.span = .atEnd src → e'.span = .atEnd src →
      e' = missingBrace src ∧ ∃ es s, p.errors = es ++ [e, e'] ∧ Reaches src ⟨ts, [], []⟩ s ∧
        Unclosed src s es e) ∧
    ∀ t ∈ ts, p.errors.Pairwise fun e e' => ¬ (e.Covers t ∧ e'.Covers t) := by
  have hspelled := lex_booleansSpelled hlex
  have hfits := lex_fits hlex
  obtain ⟨ds, s, hrun, hend⟩ := decls_found src (s := ⟨ts, [], []⟩) hspelled
  have hgoes := decls_goesTo (s := ⟨ts, [], []⟩) hspelled hfits hrun
  obtain ⟨es, tail, herrors, hrow, htail, hlength, htwo⟩ := hgoes.adds.split hend
  rw [List.nil_append] at herrors
  have hpairwise := hrow.pairwise_end htail
  have hfilter := hrow.filter_end htail
  have hstart := Fits.here_nonneg (s := ⟨ts, [], []⟩) hfits
  rw [← herrors] at hpairwise hfilter
  refine ⟨_, parse_of_decls hrun, fun e he => ?_, hpairwise, hfilter ▸ hlength,
    fun e e' hsub he he' => ?_, fun t ht => hpairwise.imp (not_covers_both ?_)⟩
  · rcases List.mem_append.mp (herrors ▸ he) with he | he
    · have hrange := hrow.between he
      exact ⟨by omega, by omega, by omega, fun hempty => by omega⟩
    · rw [htail e he]
      exact ⟨Int.natCast_nonneg _, Int.le_refl _, Int.le_refl _, fun _ => rfl⟩
  · -- the two are all that is about the end
    have hsub' := hsub.filter (·.span = .atEnd src)
    rw [hfilter, List.filter_eq_self.mpr (by simp [he, he'])] at hsub'
    obtain rfl := hsub'.eq_of_length_le hlength
    obtain ⟨hmissing, s₀, hreaches, hunclosed⟩ := htwo e e' rfl
    exact ⟨hmissing, es, s₀, herrors, hreaches, hunclosed⟩
  · exact hfits.inOrder.nonempty t ht

/-- In `func f() {` with `T x` on its next line, both errors are about the end of the text, and the
second one is about the brace. -/
theorem lex_parse_ordered_unclosed :
    let src := "func f() \x7b\nT x".toList
    ∃ ts p e, lex src = .ok ts ∧ parse src ts = .ok p ∧
      e = ⟨.expected [.equals] .endOfInput, .atEnd src⟩ ∧ p.errors = [e, missingBrace src] ∧
      ∃ s, Reaches src ⟨ts, [], []⟩ s ∧ Unclosed src s [] e := by
  intro src
  let e : SyntaxError := ⟨.expected [.equals] .endOfInput, .atEnd src⟩
  let ts : List Token := [⟨.funcWord, "func", ⟨0, 4⟩⟩, ⟨.ident, "f", ⟨5, 6⟩⟩,
    ⟨.lparen, "(", ⟨6, 7⟩⟩, ⟨.rparen, ")", ⟨7, 8⟩⟩, ⟨.lbrace, "\x7b", ⟨9, 10⟩⟩,
    ⟨.ident, "T", ⟨11, 12⟩⟩, ⟨.ident, "x", ⟨13, 14⟩⟩]
  have hlex : lex src = .ok ts := by decide +kernel
  have hparse : parse src ts = .ok ⟨[], [e, missingBrace src]⟩ := by decide +kernel
  obtain ⟨p, hp, -, -, -, htwo, -⟩ := lex_parse_ordered hlex
  obtain rfl := Except.ok.inj (hparse.symm.trans hp)
  obtain ⟨-, es, s, herrors, hreaches, hunclosed⟩ :=
    htwo e (missingBrace src) (List.Sublist.refl _) rfl rfl
  obtain rfl : es = [] := (List.self_eq_append_left.mp herrors)
  exact ⟨ts, _, e, hlex, hparse, rfl, rfl, s, hreaches, hunclosed⟩

end Texts

end ScripCheck
