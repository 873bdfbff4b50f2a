import ScripCheck.Proofs.Check.SourceOrder
import ScripCheck.Proofs.Source.Increasing
import ScripCheck.Proofs.Token.Runs

/-!
# Where errors start

* `lex_parse_row`: the syntax errors of a text are a row, and errors about its end.
* `ofOffset_increasing`: positions keep the order of offsets, and so errors start in the order of the
  text.
-/

namespace ScripCheck

section Errors

variable {src : List Char} {ts : List Token} {es : List LexError}

/-- The syntax errors of a text are a row inside it, and errors about its end. -/
theorem lex_parse_row (hlex : lex src = .ok ts) : ∃ p es tail, parse src ts = .ok p ∧
    p.errors = es ++ tail ∧ Row 0 es src.length ∧ ∀ e ∈ tail, e.span = .atEnd src := by
  have hspelled := lex_booleansSpelled hlex
  have hfits := lex_fits hlex
  obtain ⟨ds, s, hrun, hend⟩ := decls_found src (s := ⟨ts, [], []⟩) hspelled
  have hgoes := decls_goesTo (s := ⟨ts, [], []⟩) hspelled hfits hrun
  obtain ⟨es, tail, herrors, hrow, htail, -⟩ := hgoes.adds.split hend
  have hstart := Fits.here_nonneg (s := ⟨ts, [], []⟩) hfits
  exact ⟨_, es, tail, parse_of_decls hrun, herrors, hrow.from_le hstart, htail⟩

/-- Syntax errors start one after another, perhaps two at the end of the text. -/
theorem lex_parse_starts (hlex : lex src = .ok ts) : ∃ p, parse src ts = .ok p ∧
    p.errors.Pairwise fun e e' => e.diagnostic.start src ≤ e'.diagnostic.start src := by
  obtain ⟨p, es, tail, hparse, herrors, hrow, htail⟩ := lex_parse_row hlex
  have hrange : ∀ e ∈ p.errors, 0 ≤ e.span.lo ∧ e.span.lo ≤ e.span.hi ∧ e.span.hi ≤ src.length := by
    intro e he
    rcases List.mem_append.mp (herrors ▸ he) with he | he
    · have := hrow.between he
      omega
    · rw [htail e he]
      exact ⟨Int.natCast_nonneg _, Int.le_refl _, Int.le_refl _⟩
  have hpairwise : p.errors.Pairwise (·.span.hi ≤ ·.span.lo) := herrors ▸ hrow.pairwise_end htail
  refine ⟨p, hparse, hpairwise.imp_of_mem fun {e e'} he he' hle => ?_⟩
  have := hrange e he
  have := hrange e' he'
  have hstarts : Position.ofOffset src e.span.lo ≤ .ofOffset src e'.span.lo :=
    ofOffset_le (by omega) (by omega) (by omega)
  exact hstarts

/-- Lexical errors start one after another. -/
theorem lexErrors_starts (hlex : lex src = .error es) :
    es.Pairwise fun e e' => e.diagnostic.start src < e'.diagnostic.start src := by
  have hinside := lexErrors_inside hlex
  have hgaps : es.Pairwise (·.span.hi < ·.span.lo) :=
    List.pairwise_map.mp (lexErrors_separated hlex).gaps
  refine hgaps.imp_of_mem fun {e e'} he he' hlt => ?_
  have := hinside e he
  have := hinside e' he'
  have hstarts : Position.ofOffset src e.span.lo < .ofOffset src e'.span.lo :=
    ofOffset_lt (by omega) (by omega) (by omega)
  exact hstarts

/-- The position of an offset is before that of any later one, so no two offsets of a text have the
same position. Lexical errors start at one position after another, and so do syntax errors, but that
two of them may start at the same one. -/
theorem ofOffset_increasing (src : List Char) :
    (∀ a b : Int, 0 ≤ a → a < b → b ≤ src.length →
      Position.ofOffset src a < Position.ofOffset src b) ∧
    (∀ a b : Int, 0 ≤ a → a ≤ src.length → 0 ≤ b → b ≤ src.length →
      a ≠ b → Position.ofOffset src a ≠ Position.ofOffset src b) ∧
    (∀ es, lex src = .error es →
      es.Pairwise fun e e' => e.diagnostic.start src < e'.diagnostic.start src) ∧
    ∀ ts, lex src = .ok ts → ∃ p, parse src ts = .ok p ∧
      p.errors.Pairwise fun e e' => e.diagnostic.start src ≤ e'.diagnostic.start src :=
  ⟨fun _ _ => ofOffset_lt, fun _ _ ha ha' hb hb' => mt (ofOffset_injective ha ha' hb hb'),
    fun _ => lexErrors_starts, fun _ => lex_parse_starts⟩

/-- Between the two characters of a line break, positions go on; the errors of `@`, a line break and
`#` start on two lines. Of `func f() {` with `T x` on its next line both errors start at the end. -/
theorem ofOffset_increasing_pair :
    let src := "@\r\n#".toList
    let unclosed := "func f() \x7b\nT x".toList
    ((0 : Int) ≤ 1 ∧ (1 : Int) < 2 ∧ (2 : Int) ≤ src.length ∧
      Position.ofOffset src 1 < Position.ofOffset src 2) ∧
    ((3 : Int) ≤ src.length ∧ (3 : Int) ≠ 1 ∧ Position.ofOffset src 3 ≠ .ofOffset src 1) ∧
    (∃ e e', lex src = .error [e, e'] ∧ e.diagnostic.start src < e'.diagnostic.start src) ∧
    ∃ ts p e e', lex unclosed = .ok ts ∧ parse unclosed ts = .ok p ∧ p.errors = [e, e'] ∧
      e.diagnostic.start unclosed ≤ e'.diagnostic.start unclosed := by
  intro src unclosed
  obtain ⟨hlt, hne, hlexical, -⟩ := ofOffset_increasing src
  obtain ⟨-, -, -, hsyntactic⟩ := ofOffset_increasing unclosed
  have hlength : (src.length : Int) = 4 := by decide
  let e : LexError := ⟨"@", ⟨0, 1⟩⟩
  let e' : LexError := ⟨"#", ⟨3, 4⟩⟩
  have hlex : lex src = .error [e, e'] := by decide +kernel
  let ts : List Token := [⟨.funcWord, "func", ⟨0, 4⟩⟩, ⟨.ident, "f", ⟨5, 6⟩⟩,
    ⟨.lparen, "(", ⟨6, 7⟩⟩, ⟨.rparen, ")", ⟨7, 8⟩⟩, ⟨.lbrace, "\x7b", ⟨9, 10⟩⟩,
    ⟨.ident, "T", ⟨11, 12⟩⟩, ⟨.ident, "x", ⟨13, 14⟩⟩]
  have hlex' : lex unclosed = .ok ts := by decide +kernel
  let missing : SyntaxError := ⟨.expected [.equals] .endOfInput, .atEnd unclosed⟩
  have hparse : parse unclosed ts = .ok ⟨[], [missing, missingBrace unclosed]⟩ := by decide +kernel
  obtain ⟨p, hp, hstarts⟩ := hsyntactic ts hlex'
  obtain rfl := Except.ok.inj (hparse.symm.trans hp)
  refine ⟨⟨by decide, by decide, by omega, hlt 1 2 (by decide) (by decide) (by omega)⟩,
    ⟨by omega, by decide, hne 3 1 (by decide) (by omega) (by decide) (by omega) (by decide)⟩,
    ⟨e, e', hlex, List.rel_of_pairwise_cons (hlexical _ hlex) List.mem_cons_self⟩,
    ⟨ts, _, _, _, hlex', hparse, rfl, List.rel_of_pairwise_cons hstarts List.mem_cons_self⟩⟩

end Errors

end ScripCheck
