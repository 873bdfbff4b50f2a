import ScripCheck.Proofs.Check.Diagnosed
import ScripCheck.Proofs.Check.SourceOrder
import ScripCheck.Proofs.Token.Runs
import ScripCheck.Proofs.Tree.Reported

/-!
# Messages and spans of syntax errors

* `SyntaxError.Finds`: what an error with some span says it found. `SyntaxError.Told.finds`: errors
  say that.
* `Cursor.run`: the tokens at a cursor up to the next identifier or line break.
  `RaisedAt.spans_run`: an error at a token that starts no declaration is about these.
* `lex_parse_reported`: how messages and spans of the syntax errors of a text belong together.
-/

namespace ScripCheck

variable {src : List Char} {ts us vs ws : List Token} {t u : Token} {e : SyntaxError} {s : Cursor}

/-! ## Messages -/

/-- What an error with this span has found, by the name `x`: the end of the text, a line break, or
the text of the span. -/
structure SyntaxError.Finds (src : List Char) (ts : List Token) (e : SyntaxError) (x : String) :
    Prop where
  atEnd : e.span.lo = e.span.hi → x = "EOF"
  lineBreak : ∀ t ∈ ts, t.kind = .newline → t.span = e.span → x = "Newline"
  text : e.span.lo ≠ e.span.hi → (∀ t ∈ ts, t.kind = .newline → t.span ≠ e.span) →
    x = String.ofList (e.span.slice src)

/-- Two tokens do not start at one place. -/
theorem InOrder.eq_of_lo (h : InOrder ts) (ht : t ∈ ts) (hu : u ∈ ts)
    (hlo : t.span.lo = u.span.lo) : t = u := by
  have htne := h.nonempty t ht
  have hune := h.nonempty u hu
  exact h.eq_of_covers ht hu ⟨Int.le_refl _, htne⟩ ⟨Int.le_of_eq hlo.symm, hlo ▸ hune⟩

theorem SyntaxError.Told.finds (h : e.Told src ts) (hts : InOrder ts)
    (htext : ∀ t ∈ ts, t.text.toList = t.span.slice src) :
    e.cause = .numeral ∨ ∃ kinds found, e.cause = .expected kinds found ∧
      e.Finds src ts found.display := by
  cases h with
  | @missing kinds t mem =>
    have hne := hts.nonempty t mem
    refine .inr ⟨kinds, t.found, rfl, fun hempty => absurd hempty (Int.ne_of_lt hne), ?_, ?_⟩
    · intro n hn hk hspan
      obtain rfl := hts.eq_of_lo hn mem (congrArg Span.lo hspan)
      rw [Token.found, if_pos hk]; rfl
    · intro _ hno
      have hk : t.kind ≠ .newline := fun hk => hno t mem hk rfl
      rw [Token.found, if_neg hk, ← htext t mem, String.ofList_toList]; rfl
  | missingEnd kinds =>
    refine .inr ⟨kinds, _, rfl, fun _ => rfl, ?_, fun hne => absurd rfl hne⟩
    intro n hn _ hspan
    have hne := hts.nonempty n hn
    rw [hspan] at hne
    exact absurd hne (Int.lt_irrefl _)
  | numeral => exact .inl rfl
  | @skipped kinds t us mem kind =>
    have hne := hts.nonempty t mem
    have hlo : (cover (t :: us)).lo = t.span.lo := cover_lo t us
    have hhi : t.span.hi ≤ (cover (t :: us)).hi := le_cover_hi t us
    refine .inr ⟨kinds, _, rfl, fun hempty => ?_, ?_, fun _ _ => rfl⟩
    · dsimp only at hempty
      omega
    · intro n hn hk hspan
      obtain rfl := hts.eq_of_lo hn mem ((congrArg Span.lo hspan).trans hlo)
      exact absurd hk kind

theorem SyntaxError.message_expected {kinds : List Kind} {found : Found}
    (h : e.cause = .expected kinds found) :
    ∃ front, e.message = front ++ "found `" ++ found.display ++ "`" := by
  refine ⟨"Expected `" ++ Kind.describe kinds ++ "`, ", ?_⟩
  have hsplit : "`, found `" = "`, " ++ "found `" := rfl
  simp only [message, h, hsplit, String.append_assoc]

/-! ## Runs of tokens -/

/-- The tokens at the cursor up to, not including, the next identifier or line break. -/
def Cursor.run (s : Cursor) : List Token := s.rest.takeWhile fun t => t.kind ∉ [.ident, .newline]

theorem Cursor.run_eq (hs : s.rest = us ++ vs) (hus : ∀ t ∈ us, t.kind ∉ [.ident, .newline])
    (hvs : vs = [] ∨ Starts [.ident, .newline] vs) : s.run = us := by
  have hstop : vs.takeWhile (fun t => t.kind ∉ [.ident, .newline]) = [] := by
    rcases hvs with rfl | hstarts
    · rfl
    · obtain ⟨t, vs, rfl, hk⟩ := hstarts.exists_cons
      rw [List.takeWhile_cons_of_neg (by simpa [or_iff_not_imp_left] using hk)]
  rw [Cursor.run, hs, List.takeWhile_append_of_pos (by simpa using hus), hstop, List.append_nil]

/-- Among tokens in order, those inside the span of a run are the run. -/
theorem InOrder.inside_iff {x : Span} (h : InOrder (us ++ (vs ++ ws))) (hx : Spans vs x)
    (ht : t ∈ us ++ (vs ++ ws)) : x.lo ≤ t.span.lo ∧ t.span.hi ≤ x.hi ↔ t ∈ vs := by
  obtain ⟨first, last, hfirst, hlast, rfl⟩ := hx
  have hvs : InOrder vs := h.right.left
  have hne := h.nonempty t ht
  refine ⟨fun ⟨hlo, hhi⟩ => ?_, fun hmem => ⟨hvs.first_le hfirst hmem, hvs.le_last hlast hmem⟩⟩
  dsimp only at hlo hhi
  rcases List.mem_append.mp ht with hus | hrest
  · have := h.le hus (List.mem_append_left ws (List.mem_of_mem_head? hfirst))
    omega
  · rcases List.mem_append.mp hrest with hmem | hws
    · exact hmem
    · have := h.right.le (List.mem_of_getLast? hlast) hws
      omega

/-- An error at a token that starts no declaration is about the run of tokens there. -/
theorem RaisedAt.spans_run (h : RaisedAt src ts s e) (hts : InOrder ts)
    (hstarts : ¬ Starts declarationStarts s.rest) :
    s.rest <:+ ts ∧ Spans s.run e.span ∧ ∀ t ∈ ts, e.Covers t ↔ t ∈ s.run := by
  obtain ⟨hreaches, d, s', es, hround, herrors, he⟩ := h
  have hsuffix : s.rest <:+ ts := hreaches.suffix
  refine ⟨hsuffix, ?_⟩
  obtain ⟨us, rfl⟩ := hsuffix
  obtain ⟨t, vs, hs⟩ := List.exists_cons_of_ne_nil
    (show s.rest ≠ [] by simpa [inProgram] using (round_takes hround).1)
  by_cases ht : t.kind = .newline
  · -- an empty line has no errors
    have hskips : orEmptyLine (declaration src) s = .found none (s.past [t] vs) := by
      rw [orEmptyLine, if_pos (Cursor.at?_of_starts hs (by simp [ht]))]
      exact bind_run (advance_run hs)
    obtain ⟨rfl, rfl⟩ := Outcome.found.inj (hskips.symm.trans hround)
    obtain rfl : es = [] := List.self_eq_append_right.mp herrors
    cases he
  · rw [hs, starts_cons] at hstarts
    obtain ⟨run, ws, s₁, rfl, hrun, hws, hreported, herrors₁⟩ := round_reported src hs
      fun hk => (List.mem_cons.mp hk).elim ht hstarts
    obtain ⟨rfl, rfl⟩ := Outcome.found.inj (hreported.symm.trans hround)
    obtain rfl := List.append_cancel_left (herrors.symm.trans herrors₁)
    obtain rfl := List.mem_singleton.mp he
    have hident : t.kind ≠ .ident := fun hk => hstarts (by simp [hk, declarationStarts])
    have hall : ∀ u ∈ t :: run, u.kind ∉ [Kind.ident, .newline] :=
      List.forall_mem_cons.mpr ⟨by simp [hident, ht], hrun⟩
    have hs' : s.rest = (t :: run) ++ ws := hs
    rw [Cursor.run_eq hs' hall hws]
    rw [hs'] at hts
    have hspans : Spans (t :: run) (cover (t :: run)) :=
      hts.right.left.spans_cover (List.cons_ne_nil t run)
    refine ⟨hspans, fun u hu => ?_⟩
    rw [hs'] at hu
    exact hts.inside_iff hspans hu

/-! ## Syntax errors -/

/-- A syntax error with a nonempty span is about a run of tokens. It is about a number that is no
literal, or its message names what is at its span. An error is one of the loop's rounds; if the round
starts at a token that starts no declaration, the error is about the tokens from that one up to the
next identifier or line break. -/
theorem lex_parse_reported (hlex : lex src = .ok ts) : ∃ p, parse src ts = .ok p ∧
    (∀ e ∈ p.errors,
      (e.span.lo ≠ e.span.hi →
        (∃ t ∈ ts, e.span.lo = t.span.lo) ∧ ∃ t ∈ ts, e.span.hi = t.span.hi) ∧
      (e.message = "invalid numeric literal" ∧ (∃ t ∈ ts, t.kind = .intLit ∧ e.span = t.span) ∨
        ∃ front x, e.message = front ++ "found `" ++ x ++ "`" ∧ e.Finds src ts x)) ∧
    (∀ e, e ∈ p.errors ↔ ∃ s, RaisedAt src ts s e) ∧
    ∀ s e, RaisedAt src ts s e → ¬ Starts declarationStarts s.rest →
      s.rest <:+ ts ∧ Spans s.run e.span ∧ ∀ t ∈ ts, e.Covers t ↔ t ∈ s.run := by
  have hts := lex_inOrder hlex
  have htext : ∀ t ∈ ts, t.text.toList = t.span.slice src := fun t ht =>
    lexemes_slice rfl ((lex_sublist hlex).subset ht)
  obtain ⟨ds, s, hrun, -⟩ := decls_found src (s := ⟨ts, [], []⟩) (lex_booleansSpelled hlex)
  have harises : ∀ e ∈ s.errors, e.Arises src ts := by
    have hkeeps : KeptOutcome src AnyTokens ⟨ts, [], []⟩ (decls src ⟨ts, [], []⟩) :=
      keeps_decls _ rfl
    rw [hrun] at hkeeps
    cases hkeeps with
    | found takes =>
      obtain ⟨es, herrors, harises⟩ := takes.errors
      exact fun e he => harises e (by simpa [herrors] using he)
  refine ⟨_, parse_of_decls hrun, fun e he => ⟨fun hne => ?_, ?_⟩, fun e => mem_errors_iff hrun,
    fun s e h => h.spans_run hts⟩
  · rcases (harises e he).spans hts with hend | ⟨us, vs, ws, rfl, -, t, r, ht, hr, hspan⟩
    · exact absurd (by rw [hend]; rfl) hne
    · have hmem {u : Token} (hu : u ∈ vs) : u ∈ us ++ (vs ++ ws) :=
        List.mem_append_right us (List.mem_append_left ws hu)
      exact ⟨⟨t, hmem (List.mem_of_mem_head? ht), by rw [hspan]⟩,
        r, hmem (List.mem_of_getLast? hr), by rw [hspan]⟩
  · rcases (decls_told hrun e he).finds hts htext with hnumeral | ⟨kinds, found, hcause, hfinds⟩
    · have hmessage : e.message = "invalid numeric literal" := by
        rw [SyntaxError.message, hnumeral]
      obtain ⟨t, ht, hkind, hno, hspan⟩ := (harises e he).numeral_of_message hmessage
      have hint := (lexemes_noValue ((lex_sublist hlex).subset ht) hkind hno).1
      exact .inl ⟨hmessage, t, ht, hint, hspan.symm⟩
    · obtain ⟨front, hmessage⟩ := SyntaxError.message_expected hcause
      exact .inr ⟨front, found.display, hmessage, hfinds⟩

/-- A string over two lines is reported as it stands in the text. -/
theorem lex_parse_reported_string :
    let src := "= \"a\nb\" x\n".toList
    ∃ ts p e, lex src = .ok ts ∧ parse src ts = .ok p ∧ p.errors = [e] ∧ e.span = ⟨0, 7⟩ ∧
      (∃ front, e.message = front ++ "found `" ++ "= \"a\nb\"" ++ "`") ∧
      ∃ s, RaisedAt src ts s e := by
  intro src
  let ts : List Token := [⟨.equals, "=", ⟨0, 1⟩⟩, ⟨.strLit, "\"a\nb\"", ⟨2, 7⟩⟩,
    ⟨.ident, "x", ⟨8, 9⟩⟩, ⟨.newline, "\n", ⟨9, 10⟩⟩]
  let e : SyntaxError := ⟨.expected declarationStarts (.text "= \"a\nb\""), ⟨0, 7⟩⟩
  have hlex : lex src = .ok ts := by decide +kernel
  have hparse : parse src ts = .ok ⟨[], [e]⟩ := by decide +kernel
  obtain ⟨p, hp, hall, hraised, -⟩ := lex_parse_reported hlex
  obtain rfl := Except.ok.inj (hparse.symm.trans hp)
  refine ⟨ts, _, e, hlex, hparse, rfl, rfl, ?_, (hraised e).mp List.mem_cons_self⟩
  rcases (hall e List.mem_cons_self).2 with ⟨hnumeral, -⟩ | ⟨front, x, hmessage, hfinds⟩
  · exact absurd hnumeral (SyntaxError.expected_message rfl)
  · have hno : ∀ t ∈ ts, t.kind = .newline → t.span ≠ e.span := by decide
    obtain rfl : x = "= \"a\nb\"" := hfinds.text (by decide) hno
    exact ⟨front, hmessage⟩

end ScripCheck
