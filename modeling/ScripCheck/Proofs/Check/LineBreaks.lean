import ScripCheck.Check
import ScripCheck.Proofs.Diagnostic.Unified
import ScripCheck.Proofs.Token.Lexemes
import ScripCheck.Proofs.Tree.Frame

/-!
# Checking does not depend on how lines end

* `Likeness.unified`: how reading a text and the text with unified line breaks correspond. Spans of
  nodes are left open: a line break of two characters is shorter there, and nodes may end inside.
* `check_unified`: what checking the two texts gives.
-/

namespace ScripCheck

/-- The value with unified line breaks. -/
def Value.unified : Value → Value
  | .str s => .str (unifiedText s)
  | v => v

variable {src : List Char} {t u : Token}

/-! ## Tokens -/

theorem Token.Unified.same_text (h : t.Unified src u)
    (hk : t.kind ∈ [.ident, .intLit, .floatLit, .boolLit]) : u.text = t.text := by
  have hkinds : ∀ k ∈ [Kind.ident, .intLit, .floatLit, .boolLit],
      k ≠ .newline ∧ k ∉ [Kind.newline, .strLit] := by decide
  obtain ⟨hnewline, hother⟩ := hkinds _ hk
  exact (h.text hnewline).trans (unifiedText_of_notMem (h.unbroken hother))

theorem Token.Unified.unquote (h : t.Unified src u) (hk : t.kind = .strLit) :
    unquote u.text = unifiedText (unquote t.text) := by
  obtain ⟨w, hw⟩ := h.quoted hk
  have hu : u.text = String.ofList ('"' :: (unifyBreaks w ++ ['"'])) := by
    rw [h.text (by simp [hk]), hw, unifiedText, String.toList_ofList, unifyBreaks_quoted]
  rw [hu, hw, unquote_quoted, unquote_quoted, unifiedText, String.toList_ofList]

theorem Token.Unified.place (h : t.Unified src u) :
    t.span.Same src u.span ∨ t.span.LineBreak src u.span := by
  by_cases hk : t.kind = .newline
  · exact .inr (h.lineBreak hk)
  · exact .inl (h.span hk)

theorem Token.Unified.found (h : t.Unified src u) :
    u.found.display = unifiedText t.found.display := by
  unfold Token.found
  rw [h.kind]
  split
  · exact (unifiedText_of_notMem (by decide)).symm
  · next hk => exact h.text hk

/-! ## Errors -/

/-- The diagnostics of the two errors are the same. -/
def SyntaxError.Unified (src : List Char) (e e' : SyntaxError) : Prop :=
  e.diagnostic.Unified src e'.diagnostic

theorem SyntaxError.unified_expected {kinds : List Kind} {found found' : Found} {x y : Span}
    (hfound : found'.display = unifiedText found.display)
    (hplace : x.Same src y ∨ x.LineBreak src y) :
    SyntaxError.Unified src ⟨.expected kinds found, x⟩ ⟨.expected kinds found', y⟩ := by
  refine ⟨?_, hplace⟩
  simp only [SyntaxError.diagnostic, SyntaxError.message, hfound]
  have hexpected : TextUnified "Expected `" "Expected `" := textUnified_self (by decide)
  have hbetween : TextUnified "`, found `" "`, found `" := textUnified_self (by decide)
  exact ((hexpected.append (textUnified_kinds kinds)).append hbetween).backquoted _

theorem SyntaxError.unified_numeral {x y : Span} (h : x.Same src y) :
    SyntaxError.Unified src ⟨.numeral, x⟩ ⟨.numeral, y⟩ :=
  ⟨textUnified_self (s := "invalid numeric literal") (by decide), .inl h⟩

theorem LexError.Unified.diagnostic {e e' : LexError} (h : e.Unified src e') :
    e.diagnostic.Unified src e'.diagnostic where
  message := by
    have hmessage : e'.message = e.message := by
      rw [LexError.message, LexError.message, h.text]
    rw [LexError.diagnostic, LexError.diagnostic, hmessage]
    refine textUnified_self ?_
    simp only [LexError.message]
    split <;> simp [h.unbroken]
  place := .inl h.span

/-! ## Reading -/

theorem forall₂_concat {α : Type} {R : α → α → Prop} {as bs : List α} {a b : α}
    (h : List.Forall₂ R as bs) (hab : R a b) : List.Forall₂ R (as ++ [a]) (bs ++ [b]) :=
  List.rel_append h (.cons hab .nil)

/-- The tokens of a text, and of the text with unified line breaks. -/
def Likeness.unified (src : List Char) : Likeness src (unifyBreaks src) where
  span _ _ := True
  value v v' := v' = v.unified
  token := Token.Unified src
  errors := List.Forall₂ (SyntaxError.Unified src)
  kind h := h.kind
  place _ := trivial
  text := Token.Unified.same_text
  same {v} hv := by
    cases v with
    | str s => exact absurd rfl (hv s)
    | _ => rfl
  unquoted h hk := congrArg Value.str (h.unquote hk)
  reach _ _ := trivial
  atEnd := trivial
  missing h htu := forall₂_concat h (SyntaxError.unified_expected htu.found htu.place)
  missingEnd h := forall₂_concat h (SyntaxError.unified_expected
    (unifiedText_of_notMem (by decide)).symm (.inl ⟨samePlace_end src, samePlace_end src⟩))
  numeral h htu hk := forall₂_concat h (SyntaxError.unified_numeral (htu.span hk))
  skipped {es es' ts us} kinds h hts hne hline := by
    have hcover : (cover ts).Same src (cover us) := by
      have hline : List.Forall₂ (fun t u => t.kind ≠ .newline ∧ Token.Unified src t u) ts us :=
        (List.forall₂_and_left ts us).mpr ⟨hline, hts⟩
      exact forall₂_cover (fun _ _ htu => htu.2.span htu.1) (fun _ _ _ _ => Span.Same.reach) hline
        hne
    refine forall₂_concat h (SyntaxError.unified_expected ?_ (.inl hcover))
    simp [Found.display, unifiedText, hcover.slice]

theorem parse_unified {ts us : List Token} (h : List.Forall₂ (Token.Unified src) ts us)
    (hspelled : BooleansSpelled ts) : ∃ p p', parse src ts = .ok p ∧
      parse (unifyBreaks src) us = .ok p' ∧
      List.Forall₂ (DeclAlike (fun _ _ => True) fun v v' => v' = v.unified) p.declarations
        p'.declarations ∧
      List.Forall₂ (SyntaxError.Unified src) p.errors p'.errors := by
  obtain ⟨ds, s, hrun, -⟩ := decls_found src (s := ⟨ts, [], []⟩) hspelled
  have hstart : (Likeness.unified src).Cursors NoneOpen ⟨ts, [], []⟩ ⟨us, [], []⟩ :=
    ⟨h, ⟨rfl, rfl⟩, .nil⟩
  have hlike := Likeness.decls NoneOpen (widens_noneOpen _) _ _ hstart
  rw [hrun] at hlike
  generalize hrun' : decls (unifyBreaks src) ⟨us, [], []⟩ = o at hlike
  cases hlike with
  | found value cursors =>
    exact ⟨_, _, parse_of_decls hrun, parse_of_decls hrun', Likeness.forall₂_filterMap value,
      cursors.errors⟩

/-! ## Checking -/

/-- What checking the two texts gives. -/
inductive ResultsUnified (src : List Char) :
    Except Failure Program → Except Failure Program → Prop where
  | ok {p p' : Program} (declarations : List.Forall₂ (DeclAlike (fun _ _ => True)
      fun v v' => v' = v.unified) p.declarations p'.declarations) :
    ResultsUnified src (.ok p) (.ok p')
  | error {f f' : Failure} (nonempty : f.diagnostics ≠ [])
    (diagnostics : List.Forall₂ (Diagnostic.Unified src) f.diagnostics f'.diagnostics) :
    ResultsUnified src (.error f) (.error f')

theorem checkTokens_unified {ts us : List Token} (h : List.Forall₂ (Token.Unified src) ts us)
    (hspelled : BooleansSpelled ts) :
    ResultsUnified src (checkTokens src ts) (checkTokens (unifyBreaks src) us) := by
  obtain ⟨p, p', hp, hp', hdecls, herrors⟩ := parse_unified h hspelled
  unfold checkTokens Parsed.program?
  rw [hp, hp']
  dsimp only
  generalize p.errors = es, p'.errors = es' at herrors
  cases herrors with
  | nil => exact .ok hdecls
  | cons he hes =>
    refine .error (List.cons_ne_nil _ _) (.cons he ?_)
    rw [List.forall₂_map_left_iff, List.forall₂_map_right_iff]
    exact hes

theorem results_unified (src : List Char) :
    ResultsUnified src (check src) (check (unifyBreaks src)) := by
  unfold check
  rcases lex_unified src with ⟨ts, us, hts, hus, h⟩ | ⟨es, es', hes, hes', hne, h⟩
  · rw [hts, hus]
    exact checkTokens_unified h (lex_booleansSpelled hts)
  · rw [hes, hes']
    refine .error (by simpa [Failure.diagnostics] using hne) ?_
    simp only [Failure.diagnostics]
    rw [List.forall₂_map_left_iff, List.forall₂_map_right_iff]
    exact h.imp fun _ _ he => he.diagnostic

/-- A text is checked without errors exactly if it is with unified line breaks. The programs have
the same declarations, but for spans, and the strings in them have unified line breaks. The errors
start at the same positions, and what is shown of them is the same but for line breaks. -/
theorem check_unified (src : List Char) :
    (∃ p p', check src = .ok p ∧ check (unifyBreaks src) = .ok p' ∧
      List.Forall₂ (DeclAlike (fun _ _ => True) fun v v' => v' = v.unified) p.declarations
        p'.declarations) ∨
    ∃ f f', check src = .error f ∧ check (unifyBreaks src) = .error f' ∧ f.diagnostics ≠ [] ∧
      List.Forall₂ (fun d d' => d'.start (unifyBreaks src) = d.start src) f.diagnostics
        f'.diagnostics ∧
      ∀ own filename limit, '\r' ∉ own.toList → '\r' ∉ filename.toList →
        (Batch.mk f'.diagnostics own).render (unifyBreaks src) filename limit =
          unifiedText ((Batch.mk f.diagnostics own).render src filename limit) := by
  have hresults := results_unified src
  generalize check src = r, check (unifyBreaks src) = r' at hresults ⊢
  cases hresults with
  | ok declarations => exact .inl ⟨_, _, rfl, rfl, declarations⟩
  | error nonempty diagnostics =>
    exact .inr ⟨_, _, rfl, rfl, nonempty, diagnostics.imp fun _ _ hd => hd.start,
      fun own filename limit hown hfilename =>
        Batch.render_unified diagnostics hown hfilename limit⟩

/-- The error at the end of the line `T x` is shown alike, whether the line ends in one character
or in two. -/
theorem check_unified_pair :
    ∃ f f', check "T x\r\n".toList = .error f ∧ check "T x\n".toList = .error f' ∧
      f.diagnostics ≠ [] ∧ '\r' ∉ "a.scrip".toList ∧
      (Batch.mk f'.diagnostics "").render "T x\n".toList "a.scrip" 0 =
        unifiedText ((Batch.mk f.diagnostics "").render "T x\r\n".toList "a.scrip" 0) := by
  have hunify : unifyBreaks "T x\r\n".toList = "T x\n".toList := by decide
  have hfails : (check "T x\n".toList).toOption.isSome = false := by decide +kernel
  have hfilename : '\r' ∉ "a.scrip".toList := by decide
  have hunified := check_unified "T x\r\n".toList
  rw [hunify] at hunified
  rcases hunified with ⟨p, p', -, hp', -⟩ | ⟨f, f', hf, hf', hne, -, hrender⟩
  · rw [hp'] at hfails
    cases hfails
  · exact ⟨f, f', hf, hf', hne, hfilename, hrender "" "a.scrip" 0 (by decide) hfilename⟩

end ScripCheck
