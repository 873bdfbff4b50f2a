import ScripCheck.Proofs.Tree.Extent

/-!
# A statement before the rest of a body

One statement of a body is taken by one round of the loop of the body. What follows it there is read
as if the statement were not there.

* `statement_extent`: the round takes the statement, and gives its item or one error.
* `parts_behind`: the loop does not depend on errors so far, nor on the spans of the nodes around.
* `parse_function_statement`: a function with one more statement at the front of its body.
-/

namespace ScripCheck

open Production

section Statements

variable {src : List Char} {us vs ts : List Token} {s s' : Cursor} {t l r : Token}

/-- One round of the loop of a body takes one statement. -/
theorem statement_extent (src : List Char) (h : Extent true 0 us) (hline : ¬ Starts [.newline] us)
    (hs : s.rest = us ++ ts) (hspelled : BooleansSpelled s.rest) :
    ∃ i es s', orEmptyLine (statement src) s = .found i s' ∧ ItemOrError us i es ∧
      s'.rest = ts ∧ s'.errors = s.errors ++ es ∧ s'.spans.length = s.spans.length := by
  rw [orEmptyLine_of_not_starts hs h.ne_nil hline]
  exact item?_extent src statementStarts h hline hs hspelled

/-! ## The rest of the body -/

theorem forall₂_option_eq {α : Type} {R : α → α → Prop} {as bs : List (Option α)}
    (h : List.Forall₂ (Option.Rel R) as bs) (hR : ∀ a b, R a b → b = a) : bs = as := by
  have hmap := forall₂_eq_map (g := id) h fun a b hab => by
    cases hab with
    | none => rfl
    | some hab => rw [hR _ _ hab]; rfl
  rwa [List.map_id] at hmap

theorem parts_behind {is : List (Option Item)} {s₁ : Cursor} (es : List SyntaxError)
    (h : parts src s = .found is s₁) (hrest : s'.rest = s.rest) (herrors : s'.errors = es ++ s.errors)
    (hdepth : s'.spans.length = s.spans.length) : ∃ s₁', parts src s' = .found is s₁' ∧
      s₁'.rest = s₁.rest ∧ s₁'.errors = es ++ s₁.errors ∧
      s₁'.spans.length = s₁.spans.length := by
  let SameDepth (as bs : List Span) : Prop := bs.length = as.length
  have hwidens : (Likeness.behind src es).Widens SameDepth := by
    intro as bs x y hxy h
    cases as <;> cases bs <;> simp_all [SameDepth, Cursor.widen]
  have hstart : (Likeness.behind src es).Cursors SameDepth s s' :=
    ⟨hrest ▸ List.forall₂_same.mpr fun _ _ => rfl, hdepth, herrors⟩
  have hrun := Likeness.parts SameDepth hwidens _ _ hstart
  rw [h] at hrun
  generalize parts src s' = o at hrun
  cases hrun with
  | @found _ is' _ s₁' value cursors =>
    obtain rfl := forall₂_option_eq value fun a b hab => by
      simpa using hab.mapSpan_eq (f := id) (g := id) fun _ _ h => h.symm
    refine ⟨s₁', rfl, ?_, cursors.errors, cursors.spans⟩
    exact (List.forall₂_eq_eq_eq ▸ cursors.rest : s₁.rest = s₁'.rest).symm

/-- After one statement the loop of a body goes on as if the statement were not there. -/
theorem parts_statement {is : List (Option Item)} {s₁ : Cursor} (h : Extent true 0 us)
    (hline : ¬ Starts [.newline] us) (hs : s.rest = us ++ s'.rest)
    (hspelled : BooleansSpelled s.rest) (hdepth : s.spans.length = s'.spans.length)
    (herrors : s.errors = []) (herrors' : s'.errors = []) (hparts : parts src s' = .found is s₁) :
    ∃ i es s₂, ItemOrError us i es ∧ parts src s = .found (i :: is) s₂ ∧ s₂.rest = s₁.rest ∧
      s₂.errors = es ++ s₁.errors ∧ s₂.spans.length = s₁.spans.length := by
  obtain ⟨i, es, s₃, hround, hi, hrest, herrors₃, hdepth₃⟩ :=
    statement_extent src h hline hs hspelled
  have hgo : inBlock s = true := by
    obtain ⟨t, us, rfl⟩ := List.exists_cons_of_ne_nil h.ne_nil
    rw [inBlock_iff, hs]
    exact ⟨List.cons_ne_nil _ _, h.not_rbrace⟩
  obtain ⟨s₂, hrun, hrest₂, herrors₂, hdepth₂⟩ := parts_behind es hparts hrest
    (by rw [herrors₃, herrors, herrors', List.append_nil]; rfl) (hdepth₃.trans hdepth)
  refine ⟨i, es, s₂, hi, ?_, hrest₂, herrors₂, hdepth₂⟩
  rw [parts, whileAt_go _ hgo, hround]
  exact congrArg (Outcome.map (i :: ·)) hrun

/-! ## Functions -/

theorem length_bodyStart (src : List Char) (us : List Token) (l : Token) (ts vs : List Token) :
    (bodyStart src ⟨ts, [], []⟩ us l vs).spans.length = 2 := by
  simp [bodyStart, Cursor.past, Cursor.opened, Cursor.length_widenBy]

/-- A text that is one function, by its body. -/
theorem parse_of_parts {n : Name} {ns : List Name} {is : List (Option Item)}
    (header : HeaderPhrase us n ns) (hl : l.kind = .lbrace) (hr : r.kind = .rbrace)
    (hparts : parts src (bodyStart src ⟨us ++ l :: (vs ++ [r]), [], []⟩ us l (vs ++ [r])) =
      .found is s') (hrest : s'.rest = [r]) (hdepth : s'.spans.length = 2) :
    ∃ f, parse src (us ++ [l] ++ vs ++ [r]) = .ok ⟨[.func f], s'.errors⟩ ∧ f.name = n ∧
      f.params = ns ∧ f.body.body = is.filterMap id := by
  obtain ⟨x, y, hspans⟩ := List.length_eq_two.mp hdepth
  have hfunc := funcDef_of_parts header hl hr rfl hparts hrest hspans
  have hend : decls src ⟨[], [], s'.errors⟩ = .found [] ⟨[], [], s'.errors⟩ := whileAt_stop _ rfl
  have hdecls := (decls_function header.starts hfunc).trans (congrArg (Outcome.map _) hend)
  have htokens : us ++ [l] ++ vs ++ [r] = us ++ l :: (vs ++ [r]) := by simp
  exact ⟨_, htokens ▸ parse_of_decls hdecls, rfl, rfl, rfl⟩

/-- A body with one more statement at its front, as against the body alone. -/
theorem parse_function_extent (src : List Char) {n : Name} {ns : List Name} {body : List Token}
    (header : HeaderPhrase us n ns) (hl : l.kind = .lbrace) (hr : r.kind = .rbrace)
    (hbody : Balanced body) (hspelled : BooleansSpelled body) :
    ∃ f es, parse src (us ++ [l] ++ body ++ [r]) = .ok ⟨[.func f], es⟩ ∧ ∀ vs,
      Extent true 0 vs → ¬ Starts [.newline] vs → BooleansSpelled vs → ∃ g i es',
        parse src (us ++ [l] ++ (vs ++ body) ++ [r]) = .ok ⟨[.func g], es' ++ es⟩ ∧
        ItemOrError vs i es' ∧ g.name = f.name ∧ g.params = f.params ∧
        g.body.body = i.toList ++ f.body.body := by
  have hspelled' : BooleansSpelled (body ++ [r]) :=
    hspelled.append (booleansSpelled_cons hr (by decide) booleansSpelled_nil)
  have hstart : InBody r [] (bodyStart src ⟨us ++ l :: (body ++ [r]), [], []⟩ us l (body ++ [r])) :=
    ⟨body, hbody.closes, rfl⟩
  obtain ⟨is, s', hparts, hrest, hdepth⟩ := parts_inBody src hr hstart hspelled'
  rw [length_bodyStart] at hdepth
  obtain ⟨f, hparse, hname, hparams, hitems⟩ := parse_of_parts header hl hr hparts hrest hdepth
  refine ⟨f, s'.errors, hparse, fun vs hvs hline hspelled => ?_⟩
  let s := bodyStart src ⟨us ++ l :: (vs ++ body ++ [r]), [], []⟩ us l (vs ++ body ++ [r])
  have hs : s.rest = vs ++ (body ++ [r]) := List.append_assoc ..
  have hsame : s.spans.length = (bodyStart src ⟨us ++ l :: (body ++ [r]), [], []⟩ us l
      (body ++ [r])).spans.length := (length_bodyStart ..).trans (length_bodyStart ..).symm
  obtain ⟨i, es, s₂, hi, hparts₂, hrest₂, herrors₂, hdepth₂⟩ :=
    parts_statement hvs hline hs (hs ▸ hspelled.append hspelled') hsame rfl rfl hparts
  obtain ⟨g, hparse₂, hname₂, hparams₂, hitems₂⟩ :=
    parse_of_parts header hl hr hparts₂ (hrest₂.trans hrest) (hdepth₂.trans hdepth)
  rw [herrors₂] at hparse₂
  refine ⟨g, i, es, hparse₂, hi, hname₂.trans hname.symm, hparams₂.trans hparams.symm, ?_⟩
  rw [hitems₂, hitems]
  cases i <;> rfl

/-- A line at the front of a body is an item of it, or it costs one error. A line that goes on in a
group of braces costs one error, and ends with the group. The rest of the body is read as if neither
were there. -/
theorem parse_function_statement (src : List Char) {n : Name} {ns : List Name} {body : List Token}
    (header : HeaderPhrase us n ns) (hl : l.kind = .lbrace) (hr : r.kind = .rbrace)
    (hbody : Balanced body) (hspelled : BooleansSpelled body) :
    ∃ f es, parse src (us ++ [l] ++ body ++ [r]) = .ok ⟨[.func f], es⟩ ∧
      (∀ line t, line ≠ [] → Inline line → t.kind = .newline → BooleansSpelled line →
        ∃ g is es', parse src (us ++ [l] ++ (line ++ [t] ++ body) ++ [r]) =
            .ok ⟨[.func g], es' ++ es⟩ ∧
          g.body.body = is ++ f.body.body ∧
          ((∃ i, ItemPhrase line i ∧ is = [i] ∧ es' = []) ∨
            ((¬ ∃ i, ItemPhrase line i) ∧ is = [] ∧ ∃ e, es' = [e]))) ∧
      ∀ line lb group rb, Inline line → lb.kind = .lbrace → Balanced group → rb.kind = .rbrace →
        BooleansSpelled line → BooleansSpelled group →
        ∃ g e, parse src (us ++ [l] ++ (line ++ [lb] ++ group ++ [rb] ++ body) ++ [r]) =
            .ok ⟨[.func g], e :: es⟩ ∧
          g.body.body = f.body.body := by
  obtain ⟨f, es, hparse, hstatement⟩ :=
    parse_function_extent src header hl hr hbody hspelled
  refine ⟨f, es, hparse, fun line t hne hline ht hspelled => ?_,
    fun line lb group rb hline hlb hgroup hrb hline' hgroup' => ?_⟩
  · have hstart : ¬ Starts [.newline] (line ++ [t]) := by
      obtain ⟨u, line, rfl⟩ := List.exists_cons_of_ne_nil hne
      exact fun hu => hline u List.mem_cons_self (by simp_all [enders])
    have hspelled' : BooleansSpelled (line ++ [t]) :=
      hspelled.append (booleansSpelled_cons ht (by decide) booleansSpelled_nil)
    obtain ⟨g, i, es', hparse', hi, -, -, hitems⟩ :=
      hstatement (line ++ [t]) (extent_line hline ht) hstart hspelled'
    refine ⟨g, i.toList, es', hparse', hitems, ?_⟩
    simp only [ItemOrError, partPhrase_line ht] at hi
    rcases hi with ⟨hi, hsome, rfl⟩ | ⟨hno, rfl, herror⟩
    · obtain ⟨i, rfl⟩ := Option.ne_none_iff_exists'.mp hsome
      exact .inl ⟨i, (partPhrase_line ht).mp hi, rfl, rfl⟩
    · exact .inr ⟨hno, rfl, herror⟩
  · have htokens : line ++ [lb] ++ group ++ [rb] = line ++ lb :: (group ++ [rb]) := by simp
    have hextent := extent_group hline hlb hgroup hrb
    have hstart : ¬ Starts [.newline] (line ++ lb :: (group ++ [rb])) := by
      cases line with
      | nil => simp [hlb]
      | cons u line => exact fun hu => hline u List.mem_cons_self (by simp_all [enders])
    have hspelled' : BooleansSpelled (line ++ lb :: (group ++ [rb])) :=
      hline'.append (booleansSpelled_cons hlb (by decide)
        (hgroup'.append (booleansSpelled_cons hrb (by decide) booleansSpelled_nil)))
    obtain ⟨g, i, es', hparse', hi, -, -, hitems⟩ := hstatement _ hextent hstart hspelled'
    rcases hi with ⟨hi, hsome, -⟩ | ⟨-, rfl, e, rfl⟩
    · obtain ⟨i, rfl⟩ := Option.ne_none_iff_exists'.mp hsome
      rw [← htokens] at hi
      exact absurd hi (not_partPhrase_group hrb)
    · exact ⟨g, e, htokens ▸ hparse', hitems⟩

end Statements

/-- In a body with the word `y` at its end, the line `x` costs one error, and so does `x { }`. -/
theorem parse_function_statement_garbled :
    let word (text : String) (lo : Int) : Token := ⟨.ident, text, ⟨lo, lo + 1⟩⟩
    let l (lo : Int) : Token := ⟨.lbrace, "\x7b", ⟨lo, lo + 1⟩⟩
    let r (lo : Int) : Token := ⟨.rbrace, "\x7d", ⟨lo, lo + 1⟩⟩
    let n : Token := ⟨.newline, "\n", ⟨12, 13⟩⟩
    let header : List Token := [⟨.funcWord, "func", ⟨0, 4⟩⟩, word "f" 5, ⟨.lparen, "(", ⟨6, 7⟩⟩,
      ⟨.rparen, ")", ⟨7, 8⟩⟩]
    let body : List Token := [word "y" 17]
    (∃ n ns, HeaderPhrase header n ns) ∧ Balanced body ∧ BooleansSpelled body ∧
      ∃ f es, parse [] (header ++ [l 9] ++ body ++ [r 19]) = .ok ⟨[.func f], es⟩ ∧
        (∃ g e, parse [] (header ++ [l 9] ++ ([word "x" 11] ++ [n] ++ body) ++ [r 19]) =
          .ok ⟨[.func g], e :: es⟩ ∧ g.body.body = f.body.body) ∧
        ∃ g e, parse [] (header ++ [l 9] ++ ([word "x" 11] ++ [l 13] ++ [] ++ [r 15] ++ body) ++
          [r 19]) = .ok ⟨[.func g], e :: es⟩ ∧ g.body.body = f.body.body := by
  intro word l r n header body
  have hheader : HeaderPhrase header ⟨"f", ⟨5, 6⟩⟩ [] := .intro rfl (.intro rfl .nil) rfl .none rfl
  have hbalanced : Balanced body := Closes.balanced ⟨Int.le_refl 0, rfl⟩
  have hspelled : BooleansSpelled body := booleansSpelled_cons rfl (by decide) booleansSpelled_nil
  have hnil : Balanced [] := Closes.balanced rfl
  have hinline : Inline [word "x" 11] := by simp [Inline, word, enders]
  have hword : BooleansSpelled [word "x" 11] := booleansSpelled_cons rfl (by decide) booleansSpelled_nil
  obtain ⟨f, es, hfunc, hline, hgroup⟩ :=
    parse_function_statement [] hheader (l := l 9) (r := r 19) rfl rfl hbalanced hspelled
  refine ⟨⟨_, _, hheader⟩, hbalanced, hspelled, f, es, hfunc, ?_, ?_⟩
  · obtain ⟨g, is, es', hg, hitems, ⟨i, hi, -⟩ | ⟨-, rfl, e, rfl⟩⟩ :=
      hline [word "x" 11] n (List.cons_ne_nil _ _) hinline rfl hword
    · -- a single word is no item
      generalize hus : [word "x" 11] = us at hi
      cases hi with
      | var hvar => cases hvar; simp at hus
      | global hg hvar => cases hvar; simp at hus
    · exact ⟨g, e, hg, hitems⟩
  · exact hgroup [word "x" 11] (l 13) [] (r 15) hinline rfl hnil rfl hword booleansSpelled_nil

end ScripCheck
