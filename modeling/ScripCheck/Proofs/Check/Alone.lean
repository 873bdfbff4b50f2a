import ScripCheck.Proofs.Check.Concat
import ScripCheck.Proofs.Token.Cutout
import ScripCheck.Proofs.Tree.Alone
import ScripCheck.Proofs.Tree.Node

/-!
# The text of a declaration

The text of a declaration, cut out of a program at its span, is a program with a line break behind
it. This also holds of an item of a function body.

* `LonePhrase.lex_slice`, `LonePhrase.lex_line`: the tokens of the text, and with the line break.
* `parse_unshifted`: tokens are read alike without the text before them.
* `check_declared`: checking the text gives the same declaration.
-/

namespace ScripCheck

variable {src : List Char} {ts us : List Token} {d : Decl} {ds : List Decl}

/-- The text in the span of a declaration has the tokens of the declaration. -/
theorem LonePhrase.lex_slice (h : LonePhrase us d) (hlex : lex src = .ok ts) (hus : us <:+: ts) :
    ∃ (front : List Char) (ts' : List Token), d.span.lo = front.length ∧
      lex (d.span.slice src) = .ok ts' ∧ ts'.map (Token.shift front.length) = us := by
  obtain ⟨pre, post, rfl⟩ := hus
  obtain ⟨t, us, rfl, ht⟩ := h.starts.exists_cons
  have hkind : t.kind ≠ .newline := fun hk => by simp [hk, declarationStarts] at ht
  have horder : InOrder (t :: us) := (lex_inOrder hlex).left.right
  obtain ⟨t', r, ht', hr, hspan⟩ := horder.spans_cover (List.cons_ne_nil t us)
  obtain rfl := Option.some.inj ht'
  rw [List.append_assoc] at hlex
  obtain ⟨a, b, c, ts', rfl, hlo, hhi, hts', hshift⟩ := lex_cutout hlex hr hkind
  rw [h.span_eq, hspan, hlo, hhi, Int.natCast_add, Span.slice_append]
  exact ⟨a, ts', rfl, hts', hshift⟩

/-- With a line break behind it, the text in the span of a declaration is a program. -/
theorem LonePhrase.lex_line (h : LonePhrase us d) (hlex : lex src = .ok ts) (hus : us <:+: ts) :
    ∃ (front : List Char) (ts' : List Token), d.span.lo = front.length ∧
      lex (d.span.slice src ++ ['\n']) = .ok ts' ∧
      Derives (ts'.map (Token.shift front.length)) [d] := by
  obtain ⟨front, ts', hlo, hslice, rfl⟩ := h.lex_slice hlex hus
  refine ⟨front, _, hlo, ScripCheck.lex_line hslice, ?_⟩
  rw [List.map_append, apply_ite (List.map _), ← lastKind_shift front.length ts']
  exact h.derives rfl

/-- Tokens that are a program behind some text are one without it. -/
theorem parse_unshifted {front : List Char} (src : List Char)
    (h : Derives (ts.map (Token.shift front.length)) ds) (hspelled : BooleansSpelled ts)
    (hpositive : ∀ t ∈ ts, t.span.Positive) :
    parse src ts = .ok ⟨ds.map (Decl.shift (-front.length)), []⟩ := by
  obtain ⟨ds', s, hrun, -⟩ := decls_found src (s := ⟨ts, [], []⟩) hspelled
  obtain ⟨s', hmoved, herrors⟩ := decls_moved front hpositive hrun
  have hparse := h.parse.symm.trans (parse_of_decls hmoved)
  simp only [Except.ok.injEq, Parsed.mk.injEq] at hparse
  obtain ⟨rfl, hnone⟩ := hparse
  rw [← hnone] at herrors
  have hback : Decl.shift (-front.length) ∘ Decl.shift front.length = id :=
    funext (Decl.shift_neg front.length)
  have hdecls : (ds'.map (Option.map (Decl.shift front.length))).filterMap id =
      (ds'.filterMap id).map (Decl.shift front.length) := by
    simp [List.filterMap_map, List.map_filterMap]
  rw [parse_of_decls hrun, List.map_eq_nil_iff.mp herrors.symm, hdecls, List.map_map, hback,
    List.map_id]

/-- The text of a declaration, or of an item in the body of a function, with a line break behind it
is checked without errors. It gives one declaration, the same as in the program, but for its
place. -/
theorem check_declared {program : Program} (h : check src = .ok program)
    (hd : Declared program.declarations d) :
    check (d.span.slice src ++ ['\n']) =
      .ok ⟨[d.shift (-d.span.lo)], ⟨0, (d.span.slice src).length + 1⟩⟩ := by
  obtain ⟨ts, hlex, hparse⟩ := check_eq_ok h
  have hds := Derives.of_parse (lex_booleansSpelled hlex) hparse
  obtain ⟨us, hus, lone⟩ := hds.declared hd
  obtain ⟨front, ts', hlo, hline, hderives⟩ := lone.lex_line hlex hus
  have hpositive : ∀ t ∈ ts', t.span.Positive := fun t ht => by
    have hspan := lexeme_span ((lex_sublist hline).subset ht)
    exact ⟨by omega, by omega⟩
  have hcheck := check_of_parse hline
    (parse_unshifted _ hderives (lex_booleansSpelled hline) hpositive)
  rw [hcheck, hlo, List.map_singleton, List.length_append, List.length_singleton, Int.natCast_add,
    Int.natCast_one]

/-- The variable in the body of `func f(){` with `T x=1` and `}` on the next lines. -/
theorem check_declared_item :
    let src := "func f()\x7b\nT x=1\n\x7d".toList
    let x : VarDef := ⟨⟨"T", ⟨10, 11⟩⟩, ⟨"x", ⟨12, 13⟩⟩, ⟨.int 1, ⟨14, 15⟩⟩, ⟨10, 15⟩⟩
    let f : FuncDef := ⟨⟨"f", ⟨5, 6⟩⟩, [], ⟨[.var x], ⟨8, 17⟩⟩, ⟨0, 17⟩⟩
    check src = .ok ⟨[.func f], ⟨0, 17⟩⟩ ∧ Declared [.func f] (.item (.var x)) ∧
      check "T x=1\n".toList =
        .ok ⟨[.item (.var ⟨⟨"T", ⟨0, 1⟩⟩, ⟨"x", ⟨2, 3⟩⟩, ⟨.int 1, ⟨4, 5⟩⟩, ⟨0, 5⟩⟩)], ⟨0, 6⟩⟩ := by
  intro src x f
  let ts : List Token := [⟨.funcWord, "func", ⟨0, 4⟩⟩, ⟨.ident, "f", ⟨5, 6⟩⟩,
    ⟨.lparen, "(", ⟨6, 7⟩⟩, ⟨.rparen, ")", ⟨7, 8⟩⟩, ⟨.lbrace, "\x7b", ⟨8, 9⟩⟩,
    ⟨.ident, "T", ⟨10, 11⟩⟩, ⟨.ident, "x", ⟨12, 13⟩⟩, ⟨.equals, "=", ⟨13, 14⟩⟩,
    ⟨.intLit, "1", ⟨14, 15⟩⟩, ⟨.newline, "\n", ⟨15, 16⟩⟩, ⟨.rbrace, "\x7d", ⟨16, 17⟩⟩]
  have hlex : lex src = .ok ts := by decide +kernel
  have hparse : parse src ts = .ok ⟨[.func f], []⟩ := by decide +kernel
  have hcheck : check src = .ok ⟨[.func f], ⟨0, 17⟩⟩ := check_of_parse hlex hparse
  have hd : Declared [.func f] (.item (.var x)) := .body List.mem_cons_self List.mem_cons_self
  exact ⟨hcheck, hd, check_declared hcheck hd⟩

end ScripCheck
