import ScripCheck.Proofs.Tree.Extent

/-!
# One line of a program

Outside of functions a line is one declaration, or it costs one error. The lines after it are read
as if it were not there.

* `Quits.bind`, `Quits.spanned`, `Quits.after`: what gives up within a line, from the first step on
  that does.
* `funcDef_quits`: a function without a brace on its first line is given up within this line.
* `declaration_line`: one round of the loop of a program takes one line.
* `parse_line`: a program with one more line at its front.
-/

namespace ScripCheck

open Production

section Quitting

variable {α β : Type} {src : List Char} {us ts : List Token} {s : Cursor} {kinds : List Kind}
  {p : Production α} {f : α → Production β}

theorem quits_expect (h : ¬ Starts kinds s.rest) : Quits s (expect src kinds s) :=
  ⟨_, [], _, expect_missing src h, rfl, inline_nil, rfl, Nat.le_refl _⟩

theorem Quits.bind (h : Quits s (p s)) : Quits s ((p >>= f) s) := by
  obtain ⟨e, us, s', hrun, h⟩ := h
  exact ⟨e, us, s', by rw [bind_apply, hrun]; rfl, h⟩

theorem Quits.spanned (h : Quits (s.opened src) (p (s.opened src))) :
    Quits s (spanned src p s) := by
  obtain ⟨e, us, s', hrun, hrest, hus, herrors, hdepth⟩ := h
  have habandoned : (p >>= fun a => do return (a, ← closeSpan)) (s.opened src) = .abandoned s' := by
    rw [bind_apply, hrun]; rfl
  exact ⟨e, us, s', habandoned, hrest, hus, herrors, Nat.le_of_succ_le hdepth⟩

theorem Quits.after {o : Outcome α} (rest : s.rest = us ++ ts) (inline : Inline us)
    (h : Quits (s.past us ts) o) : Quits s o := by
  obtain ⟨e, vs, s', hrun, hrest, hvs, herrors, hdepth⟩ := h
  have hts : ts = vs ++ s'.rest := hrest
  refine ⟨e, us ++ vs, s', hrun, ?_, inline.append hvs, herrors, ?_⟩
  · rw [rest, hts, List.append_assoc]
  · rwa [← Cursor.length_widenBy s.spans us]

theorem block_quits (h : ¬ Starts [.lbrace] s.rest) : Quits s (block src s) :=
  (Quits.bind (quits_expect (s := s.opened src) h)).spanned.bind

theorem funcDef_quits (h : Starts [.funcWord] s.rest) (hspelled : BooleansSpelled s.rest)
    (hopens : ∀ us ts, s.rest = us ++ ts → Inline us → ¬ Starts [.lbrace] ts) :
    Quits s (funcDef src s) := by
  rw [funcDef_eq]
  refine .bind (.spanned ?_)
  have hheader : ReadOutcome src (.start false) _ (s.opened src) (header src (s.opened src)) :=
    reads_header h (s.opened src) rfl hspelled
  cases ho : header src (s.opened src) with
  | found x s' =>
    rw [ho] at hheader
    cases hheader with
    | @found _ us ts rest inline phrase =>
      have hblock : Quits ((s.opened src).past us ts) (block src ((s.opened src).past us ts)) :=
        block_quits (hopens us ts rest inline)
      rw [bind_run ho]
      exact .after rest inline hblock.bind
  | abandoned s' =>
    rw [ho] at hheader
    cases hheader with
    | abandoned rest inline errors blames depth =>
      exact Quits.bind ⟨_, _, s', ho, rest, inline, errors, depth⟩
  | faulted f => rw [ho] at hheader; cases hheader

end Quitting

section Lines

variable {src : List Char} {line us ts : List Token} {s : Cursor} {n : Token}

/-- Nothing that is taken within a line without an opening brace is followed by one. -/
theorem not_starts_lbrace (hline : ∀ t ∈ line, t.kind ≠ .lbrace) (hn : n.kind = .newline)
    (hus : Inline us) {vs : List Token} (h : line ++ n :: ts = us ++ vs) :
    ¬ Starts [.lbrace] vs := by
  rcases List.append_eq_append_iff.mp h with ⟨us', rfl, hrest⟩ | ⟨line', rfl, rfl⟩
  · cases us' with
    | nil => rw [List.nil_append] at hrest; simp [← hrest, hn]
    | cons u us' =>
      obtain ⟨rfl, -⟩ := List.cons.inj hrest
      exact absurd hn fun hk => hus n (by simp) (by simp [hk, enders])
  · cases line' with
    | nil => simp [hn]
    | cons t line' => simpa using hline t (by simp)

/-- A line is one declaration, or it is given up. -/
theorem declaration_line (src : List Char) (hne : line ≠ []) (hline : ∀ t ∈ line, t.kind ≠ .newline)
    (hn : n.kind = .newline) (hfunc : Starts [.funcWord] line → ∀ t ∈ line, t.kind ≠ .lbrace)
    (hs : s.rest = line ++ n :: ts) (hspelled : BooleansSpelled s.rest) :
    ∃ i es s', orEmptyLine (declaration src) s = .found (i.map .item) s' ∧
      ItemOrError (line ++ [n]) i es ∧ s'.rest = ts ∧ s'.errors = s.errors ++ es ∧
      s'.spans.length = s.spans.length := by
  have hextent : Extent false 0 (line ++ [n]) := extent_topLine hline hn
  have hs' : s.rest = (line ++ [n]) ++ ts := by rw [hs, List.append_assoc]; rfl
  obtain ⟨u, us, rfl⟩ := List.exists_cons_of_ne_nil hne
  have hstart : ¬ Starts [.newline] (u :: us) := by simpa using hline u List.mem_cons_self
  rw [orEmptyLine_of_not_starts hs' hextent.ne_nil hstart, declaration]
  split
  · next hat =>
    rw [Cursor.at?_iff] at hat
    have hword : u.kind = .funcWord := by simpa [hs] using hat
    have hquits : Quits s (funcDef src s) := funcDef_quits hat hspelled fun vs ws hrest hvs =>
      not_starts_lbrace (hfunc (by simp [hword])) hn hvs (hs.symm.trans hrest)
    obtain ⟨e, s', hrun, hrest, herrors, hdepth⟩ := Quits.givenUp (b := false)
      (p := do return Decl.func (← funcDef src)) hquits.bind hextent hs'
    refine ⟨none, [e], s', hrun, .inr ⟨?_, rfl, e, rfl⟩, hrest, herrors, hdepth⟩
    rintro ⟨i, hi⟩
    have hitem : Starts [.globalWord, .ident] (u :: us ++ []) := ((partPhrase_line hn).mp hi).starts
    simp [hword] at hitem
  · obtain ⟨i, es, s', hrun, hi, h⟩ :=
      item?_extent src declarationStarts hextent hstart hs' hspelled
    exact ⟨i, es, s', bind_run hrun, hi, h⟩

/-- A line at the front of a program is one declaration, or it costs one error. What follows it is
read as if the line were not there. -/
theorem parse_line (src : List Char) (hne : line ≠ []) (hline : ∀ t ∈ line, t.kind ≠ .newline)
    (hn : n.kind = .newline) (hfunc : ¬ (Starts [.funcWord] line ∧ ∃ t ∈ line, t.kind = .lbrace))
    (hspelled : BooleansSpelled line) (hts : BooleansSpelled ts) :
    ∃ p ds es, parse src ts = .ok p ∧
      parse src (line ++ [n] ++ ts) = .ok ⟨ds ++ p.declarations, es ++ p.errors⟩ ∧
      ((∃ i, ItemPhrase line i ∧ ds = [.item i] ∧ es = []) ∨
        ((¬ ∃ i, ItemPhrase line i) ∧ ds = [] ∧ ∃ e, es = [e])) := by
  have hfunc' (h : Starts [.funcWord] line) : ∀ t ∈ line, t.kind ≠ .lbrace :=
    fun t ht hk => hfunc ⟨h, t, ht, hk⟩
  have hspelled' : BooleansSpelled (line ++ n :: ts) :=
    hspelled.append (booleansSpelled_cons hn (by decide) hts)
  obtain ⟨i, es, s', hround, hi, hrest, herrors, hdepth⟩ := declaration_line src
    (s := ⟨line ++ n :: ts, [], []⟩) hne hline hn hfunc' rfl hspelled'
  obtain rfl : s' = ⟨ts, [], es⟩ := by
    cases s'
    simp_all
  obtain ⟨ds, s₁, hds, -⟩ := decls_found src (s := ⟨ts, [], []⟩) hts
  obtain ⟨s₂, hbehind, herrors₂⟩ := decls_behind es hds
  have hgo : inProgram ⟨line ++ n :: ts, [], []⟩ = true := by simp [inProgram]
  have hdecls : decls src ⟨line ++ n :: ts, [], []⟩ = .found (i.map .item :: ds) s₂ := by
    rw [decls, whileAt_go _ hgo, hround]
    exact congrArg (Outcome.map _) hbehind
  have htokens : line ++ [n] ++ ts = line ++ n :: ts := by simp
  have hparse := parse_of_decls hdecls
  rw [herrors₂, ← htokens] at hparse
  simp only [ItemOrError, partPhrase_line hn] at hi
  rcases hi with ⟨hi, hsome, rfl⟩ | ⟨hno, rfl, herror⟩
  · obtain ⟨i, rfl⟩ := Option.ne_none_iff_exists'.mp hsome
    exact ⟨_, [.item i], [], parse_of_decls hds, hparse,
      .inl ⟨i, (partPhrase_line hn).mp hi, rfl, rfl⟩⟩
  · exact ⟨_, [], es, parse_of_decls hds, hparse, .inr ⟨hno, rfl, herror⟩⟩

end Lines

/-- The line `func }` costs one error, and the line `x y = 1` after it is read. -/
theorem parse_line_garbled :
    let line : List Token := [⟨.funcWord, "func", ⟨0, 4⟩⟩, ⟨.rbrace, "\x7d", ⟨5, 6⟩⟩]
    let n (lo : Int) : Token := ⟨.newline, "\n", ⟨lo, lo + 1⟩⟩
    let ts : List Token := [⟨.ident, "x", ⟨7, 8⟩⟩, ⟨.ident, "y", ⟨9, 10⟩⟩, ⟨.equals, "=", ⟨11, 12⟩⟩,
      ⟨.intLit, "1", ⟨13, 14⟩⟩, n 14]
    line ≠ [] ∧ (∀ t ∈ line, t.kind ≠ .newline) ∧
      ¬ (Starts [.funcWord] line ∧ ∃ t ∈ line, t.kind = .lbrace) ∧
      BooleansSpelled line ∧ BooleansSpelled ts ∧
      ∃ p e, parse [] ts = .ok p ∧
        parse [] (line ++ [n 6] ++ ts) = .ok ⟨p.declarations, e :: p.errors⟩ := by
  intro line n ts
  have hne : line ≠ [] := List.cons_ne_nil _ _
  have hline : ∀ t ∈ line, t.kind ≠ .newline := by simp [line]
  have hfunc : ¬ (Starts [.funcWord] line ∧ ∃ t ∈ line, t.kind = .lbrace) := by simp [line]
  have hspelled : BooleansSpelled line := by simp [line, BooleansSpelled]
  have hts : BooleansSpelled ts := by simp [ts, n, BooleansSpelled]
  refine ⟨hne, hline, hfunc, hspelled, hts, ?_⟩
  obtain ⟨p, ds, es, hp, hparse, ⟨i, hi, -⟩ | ⟨-, rfl, e, rfl⟩⟩ :=
    parse_line [] hne hline (n := n 6) rfl hfunc hspelled hts
  · have hitem : Starts [.globalWord, .ident] (line ++ []) := hi.starts
    simp [line] at hitem
  · exact ⟨p, e, hp, hparse⟩

end ScripCheck
