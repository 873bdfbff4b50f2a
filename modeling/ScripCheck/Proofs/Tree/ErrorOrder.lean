import ScripCheck.Proofs.Tree.ErrorRow

/-!
# Errors in the order of the text

* `Cursor.GoesTo`: where reading goes on after an error. `orResync_goesTo`, `reported_clearTo`: it
  goes on behind what was reported, unless no statement can start where it stands.
* `Unclosed`: a function whose body reaches to the end of the text.
* `block_marks`, `funcDef_marks`: a body can end with two errors about the end of the text.
* `Reaches`: the loop of a program comes from one cursor to another. `decls_goesTo`: its errors.
* `lex_parse_ordered`: the errors of a text come one after another.
-/

namespace ScripCheck

open Production

/-! ## Going on after an error -/

/-- No statement can start here: it is the end of the text or, in a body, the brace that closes
it. -/
def Cursor.Ended (b : Bool) (s : Cursor) : Prop :=
  s.rest = [] ∨ b = true ∧ Starts [.rbrace] s.rest

/-- Reading goes on at `s'`, behind all that was reported since `s`, or no statement can start
there. -/
def Cursor.GoesTo (src : List Char) (Twice : List SyntaxError → SyntaxError → Prop) (b : Bool)
    (s s' : Cursor) : Prop :=
  s.ClearTo src s' ∨ s.Adds src Twice s' ∧ s'.Ended b

section Going

variable {α : Type} {src : List Char} {s s₁ s' : Cursor} {b : Bool} {us ts : List Token}
  {T : List SyntaxError → SyntaxError → Prop} {p : Production α}

theorem resync_ended (h : s.Ended b) : resync b 0 s = s := by
  rcases h with hnil | ⟨rfl, hbrace⟩
  · exact resync_nil hnil
  · cases hs : s.rest with
    | nil => exact resync_nil hs
    | cons t ts =>
      have hk : t.kind = .rbrace := by simpa [hs] using hbrace
      rw [resync_cons hs, if_neg (by simp [hk]), if_pos (by simp [closesGroup, hk])]

/-- Where a statement can start, skipping takes a token at least. -/
theorem resync_moves (h : ¬ s.Ended b) :
    ∃ us ts, us ≠ [] ∧ s.rest = us ++ ts ∧ resync b 0 s = s.past us ts := by
  obtain ⟨t, ts, hs⟩ := List.exists_cons_of_ne_nil fun hnil => h (.inl hnil)
  have hopen : ¬ closesGroup b 0 t.kind = true := by
    intro hcloses
    simp only [closesGroup, Bool.and_eq_true, beq_iff_eq, and_true] at hcloses
    exact h (.inr ⟨hcloses.1, by simp [hs, hcloses.2]⟩)
  rw [resync_cons hs, if_neg hopen]
  split
  · exact ⟨[t], ts, List.cons_ne_nil t [], hs, rfl⟩
  · split
    · exact ⟨[t], ts, List.cons_ne_nil t [], hs, rfl⟩
    · obtain ⟨us, vs, hus, hrun⟩ := resync_past b (depthAfter b 0 t.kind) (s.pass t ts)
      have hts : ts = us ++ vs := hus
      exact ⟨t :: us, vs, List.cons_ne_nil t us, by rw [hs, hts]; rfl, hrun⟩

/-- What was reported where reading stood is behind it when a token was taken. -/
theorem Cursor.Adds.clearTo_past (h : s.Adds src T s₁) (hs : Fits src s.rest) (hne : us ≠ [])
    (hrest : s₁.rest = us ++ ts) : s.ClearTo src (s₁.past us ts) := by
  obtain ⟨t, us, rfl⟩ := List.exists_cons_of_ne_nil hne
  cases h with
  | clear clear =>
    exact clear.trans (clearTo_skip (hs.clearTo clear) ⟨t :: us, hrest.symm⟩ rfl)
  | @here s₀ e clear rest errors span =>
    rw [Cursor.here_cons hrest] at span
    have hfits : Fits src s₀.rest := hs.clearTo clear
    have hs₀ : s₀.rest = [t] ++ (us ++ ts) := rest.trans hrest
    let behind : Cursor := ⟨us ++ ts, s₁.spans, s₁.errors⟩
    have hone : s₀.ClearTo src behind :=
      clearTo_cover hfits hs₀ (List.cons_ne_nil t []) errors span
    have hmore : behind.ClearTo src (s₁.past (t :: us) ts) :=
      clearTo_skip (hfits.clearTo hone) ⟨us, rfl⟩ rfl
    exact clear.trans (hone.trans hmore)
  | twice clear rest ends => rw [ends] at hrest; cases hrest

theorem Cursor.GoesTo.adds (h : s.GoesTo src T b s') : s.Adds src T s' :=
  h.elim .clear And.left

theorem Cursor.GoesTo.after (h : s.ClearTo src s₁) (h' : s₁.GoesTo src T b s') :
    s.GoesTo src T b s' :=
  h'.imp h.trans fun h' => ⟨h'.1.after h, h'.2⟩

/-- After a statement that was given up, reading goes on behind what was reported. -/
theorem orResync_goesTo {o : Option α} (hs : Fits src s.rest) (h : MarkOutcome src T s (p s))
    (hrun : orResync b p s = .found o s') : s.GoesTo src T b s' := by
  unfold orResync at hrun
  cases hp : p s with
  | found a s₁ =>
    rw [hp] at h hrun
    cases hrun
    cases h with
    | found clear => exact .inl clear
  | abandoned s₁ =>
    rw [hp] at h hrun
    cases h with
    | abandoned adds =>
      let dropped : Cursor := { s₁ with spans := s₁.spans.drop (s₁.spans.length - s.spans.length) }
      have hadds : s.Adds src T dropped := adds.congr rfl rfl
      obtain rfl : resync b 0 dropped = s' := (Outcome.found.inj hrun).2
      by_cases hend : dropped.Ended b
      · rw [resync_ended hend]
        exact .inr ⟨hadds, hend⟩
      · obtain ⟨us, ts, hne, hrest, hmoves⟩ := resync_moves hend
        rw [hmoves]
        exact .inl (hadds.clearTo_past hs hne hrest)
  | faulted f => rw [hp] at hrun; cases hrun

/-- Tokens that start no statement are reported after they were skipped. -/
theorem reported_clearTo {o : Option α} {starts : List Kind} (hs : Fits src s.rest)
    (hne : s.rest ≠ []) (hrun : reported src starts b s = .found o s') : s.ClearTo src s' := by
  obtain ⟨last, depth, us, vs, hskips⟩ := skipRun_past b 0 (s := s.opened src) hne
  have hrest : s.rest = us ++ vs := hskips.rest
  obtain ⟨_, s₁, hreport, hpure⟩ := bind_found hrun
  cases hpure
  rw [unexpected_run src starts hskips, report] at hreport
  let e : SyntaxError := ⟨.expected starts (.text (String.ofList ((cover us).slice src))), cover us⟩
  have hclear : s.ClearTo src ((s.past us vs).record e) :=
    Cursor.clearTo_cover hs hrest hskips.nonempty rfl rfl
  split at hreport
  · cases hreport
    exact hclear
  · obtain ⟨us', vs', hvs, hresync⟩ := resync_past b depth ((s.past us vs).record e)
    rw [hresync] at hreport
    cases hreport
    exact hclear.trans (Cursor.clearTo_skip (hs.clearTo hclear) ⟨us', hvs.symm⟩ rfl)

theorem item?_goesTo {o : Option Item} {other : Production (Option Item)} (hs : Fits src s.rest)
    (hother : ∀ o s', other s = .found o s' → s.ClearTo src s')
    (hrun : item? src b other s = .found o s') : s.GoesTo src T b s' := by
  unfold item? at hrun
  split at hrun
  · exact orResync_goesTo hs (marks_varItem.terminated T s hs) hrun
  · split at hrun
    · exact orResync_goesTo hs (marks_globalItem.terminated T s hs) hrun
    · exact .inl (hother o s' hrun)

theorem orEmptyLine_goesTo {o : Option α} {p : Production (Option α)} (hs : Fits src s.rest)
    (hp : ∀ o s', p s = .found o s' → s.GoesTo src T b s')
    (hrun : orEmptyLine p s = .found o s') : s.GoesTo src T b s' := by
  unfold orEmptyLine at hrun
  split at hrun
  · have hmarks := (marks_advance.bind fun _ => marks_pure (none : Option α)) T s hs
    rw [hrun] at hmarks
    cases hmarks with
    | found clear => exact .inl clear
  · exact hp o s' hrun

/-- A repetition that stops where no statement can start. `I` is what each round keeps. -/
theorem whileAt_goesTo {go : Cursor → Bool} (progress : Advances go p) {I : Cursor → Prop}
    (hstop : ∀ s : Cursor, s.Ended b → go s = false)
    (hp : ∀ s a s', go s = true → I s → Fits src s.rest → p s = .found a s' →
      I s' ∧ s.GoesTo src T b s')
    {as : List α} (hI : I s) (hs : Fits src s.rest)
    (hrun : whileAt go p progress s = .found as s') : s.GoesTo src T b s' := by
  induction s using whileAt_induction progress generalizing as with
  | stop s hgo =>
    rw [whileAt_stop progress hgo] at hrun
    cases hrun
    exact .inl (Cursor.clearTo_of_eq rfl rfl)
  | round s hgo ih =>
    obtain ⟨a, s₁, bs, hround, hrec, -⟩ := whileAt_found progress hgo hrun
    obtain ⟨hI₁, hclear | ⟨hadds, hend⟩⟩ := hp s a s₁ hgo hI hs hround
    · exact .after hclear (ih a s₁ hround hI₁ (hs.clearTo hclear) hrec)
    · rw [whileAt_stop progress (hstop s₁ hend)] at hrec
      cases hrec
      exact .inr ⟨hadds, hend⟩

end Going

/-! ## Bodies and functions -/

/-- A body that starts at `s` reaches to the end of the text. `e` is the last error in it, and `es`
are all errors before that one. -/
def UnclosedBody (src : List Char) (s : Cursor) (es : List SyntaxError) (e : SyntaxError) : Prop :=
  ∃ l vs is s', s.rest = l :: vs ∧ l.kind = .lbrace ∧
    parts src ((s.opened src).past [l] vs) = .found is s' ∧ s'.rest = [] ∧
    s.errors <+: es ∧ s'.errors = es ++ [e]

/-- A function that starts at `s` has a body that reaches to the end of the text. `e` is the last
error in the body, and `es` are all errors before that one. -/
def Unclosed (src : List Char) (s : Cursor) (es : List SyntaxError) (e : SyntaxError) : Prop :=
  ∃ us n ns l vs is s', HeaderPhrase us n ns ∧ s.rest = us ++ l :: vs ∧ l.kind = .lbrace ∧
    parts src (bodyStart src s us l vs) = .found is s' ∧ s'.rest = [] ∧
    s.errors <+: es ∧ s'.errors = es ++ [e]

section Bodies

variable {src : List Char} {s s' : Cursor} {T : List SyntaxError → SyntaxError → Prop}

theorem inBlock_of_ended (h : s.Ended true) : inBlock s = false := by
  rw [← Bool.not_eq_true, inBlock_iff]
  rcases h with hnil | ⟨-, hbrace⟩
  · exact fun hgo => hgo.1 hnil
  · exact fun hgo => hgo.2 hbrace

theorem parts_goesTo {is : List (Option Item)} (hs : Fits src s.rest)
    (hrun : parts src s = .found is s') : s.GoesTo src T true s' := by
  refine whileAt_goesTo _ (I := fun _ => True) (fun _ => inBlock_of_ended)
    (fun s i s₁ hgo _ hs hround => ⟨trivial, orEmptyLine_goesTo hs ?_ hround⟩) trivial hs hrun
  have hreported (o : Option Item) (s₂ : Cursor) :
      reported src statementStarts true s = .found o s₂ → s.ClearTo src s₂ :=
    reported_clearTo hs (inBlock_iff.mp hgo).1
  exact fun o s₂ => item?_goesTo hs hreported

/-- Behind the statements of a body its closing brace is looked for. Where it is missing, the text
has ended, perhaps after an error that says so already. -/
theorem expectBrace_marks (hs : Fits src s.rest) (h : s.GoesTo src (fun _ _ => False) true s')
    (hend : inBlock s' = false)
    (hT : ∀ es e, s'.rest = [] → s.errors <+: es → s'.errors = es ++ [e] → T es e) :
    MarkOutcome src T s (expect src [.rbrace] s') := by
  by_cases hbrace : Starts [.rbrace] s'.rest
  · obtain ⟨r, ts, hrest, hbrace⟩ := hbrace.exists_cons
    rw [expect_run src hrest hbrace]
    exact .found (h.adds.clearTo_past hs (List.cons_ne_nil r []) hrest)
  · have hnil : s'.rest = [] := by
      by_contra hne
      rw [inBlock_iff.mpr ⟨hne, hbrace⟩] at hend
      cases hend
    have hhere : s'.here src = .atEnd src := Cursor.here_nil hnil
    have hmissing : s'.missing src [.rbrace] = missingBrace src := by
      simp only [Cursor.missing, Cursor.found, hhere, hnil, missingBrace]
    rw [expect_missing src hbrace, hmissing]
    refine .abandoned ?_
    cases h.adds with
    | clear clear => exact .here clear rfl rfl hhere.symm
    | @here s₀ e clear rest errors span =>
      obtain ⟨es, hes, -⟩ := clear.errors
      refine .twice clear rest hnil ?_ (span.trans hhere) (hT _ e hnil ⟨es, hes.symm⟩ errors)
      simp [Cursor.record, errors]
    | twice clear rest ends errors span twice => exact twice.elim

theorem block_marks (hs : Fits src s.rest) :
    MarkOutcome src (UnclosedBody src s) s (block src s) := by
  refine .bind (.spanned hs ?_) fun _ _ _ _ => .found (Cursor.clearTo_of_eq rfl rfl)
  refine (marks_expect _ (s.opened src) hs).bind fun l s₁ hrun _ => ?_
  obtain ⟨vs, hrest, hl, rfl⟩ := expect_found hrun
  have hvs : Fits src vs := by
    have hrest : s.rest = [l] ++ vs := hrest
    rw [hrest] at hs
    exact hs.right
  show MarkOutcome src _ _ ((parts src ((s.opened src).past [l] vs)).andThen _)
  cases hparts : parts src ((s.opened src).past [l] vs) with
  | found is s₂ =>
    have hend : inBlock s₂ = false :=
      (whileAt_ends (I := fun _ => True) _ (fun _ _ _ _ _ _ => trivial) trivial hparts).2
    have hbrace : MarkOutcome src (UnclosedBody src s) _ (expect src [.rbrace] s₂) :=
      expectBrace_marks hvs (parts_goesTo hvs hparts) hend fun es e hnil hes herrors =>
        ⟨l, vs, is, s₂, hrest, List.mem_singleton.mp hl, hparts, hnil, hes, herrors⟩
    exact hbrace.andThen fun _ _ _ _ => .found (Cursor.clearTo_of_eq rfl rfl)
  | abandoned s₂ =>
    exact absurd hparts (Settles.whileAt _ settles_statement _ _)
  | faulted f => exact .faulted f

theorem funcDef_marks (h : Starts [.funcWord] s.rest) (hspelled : BooleansSpelled s.rest)
    (hs : Fits src s.rest) : MarkOutcome src (Unclosed src s) s (funcDef src s) := by
  rw [funcDef_eq]
  refine .bind (.spanned hs ?_) fun _ _ _ _ => .found (Cursor.clearTo_of_eq rfl rfl)
  refine (marks_header _ (s.opened src) hs).bind fun ⟨n, ns⟩ s₁ hrun clear => ?_
  have hread : ReadOutcome src (.start false) _ (s.opened src) (header src (s.opened src)) :=
    reads_header h (s.opened src) rfl hspelled
  rw [hrun] at hread
  cases hread with
  | @found _ us ts rest inline phrase =>
    have hus : Fits src ts := Fits.clearTo (s := s.opened src) hs clear
    have hblock : MarkOutcome src _ ((s.opened src).past us ts) (block src _) := block_marks hus
    refine (hblock.mono fun es e hbody => ?_).bind fun _ _ _ _ =>
      .found (Cursor.clearTo_of_eq rfl rfl)
    obtain ⟨l, vs, is, s₂, rfl, hl, hparts, hnil, hes, herrors⟩ := hbody
    exact ⟨us, n, ns, l, vs, is, s₂, phrase, rest, hl, hparts, hnil, hes, herrors⟩

end Bodies

/-! ## Programs -/

/-- The loop of a program comes from one cursor to another. -/
inductive Reaches (src : List Char) : Cursor → Cursor → Prop where
  | refl (s : Cursor) : Reaches src s s
  | round {s s₁ s' : Cursor} {d : Option Decl} (before : Reaches src s s₁)
      (run : orEmptyLine (declaration src) s₁ = .found d s') : Reaches src s s'

section Programs

variable {src : List Char} {s s' : Cursor}

theorem declaration_goesTo {d : Option Decl} (hne : s.rest ≠ []) (hspelled : BooleansSpelled s.rest)
    (hs : Fits src s.rest) (hrun : orEmptyLine (declaration src) s = .found d s') :
    s.GoesTo src (Unclosed src s) false s' := by
  refine orEmptyLine_goesTo hs (fun o s₁ hdecl => ?_) hrun
  unfold declaration at hdecl
  split at hdecl
  · next hat =>
    have hfunc := funcDef_marks (Cursor.at?_iff.mp hat) hspelled hs
    exact orResync_goesTo hs (hfunc.bind fun _ _ _ _ => .found (Cursor.clearTo_of_eq rfl rfl)) hdecl
  · obtain ⟨i, s₂, hitem, hpure⟩ := bind_found hdecl
    cases hpure
    exact item?_goesTo hs (fun _ _ => reported_clearTo hs hne) hitem

/-- Two errors about the end of the text are of a function that the loop comes to. -/
theorem decls_goesTo {ds : List (Option Decl)} (hspelled : BooleansSpelled s.rest)
    (hs : Fits src s.rest) (hrun : decls src s = .found ds s') :
    s.GoesTo src (fun es e => ∃ s₀, Reaches src s s₀ ∧ Unclosed src s₀ es e) false s' := by
  refine whileAt_goesTo _ (I := fun s₁ => Reaches src s s₁ ∧ BooleansSpelled s₁.rest) ?_ ?_
    ⟨.refl s, hspelled⟩ hs hrun
  · rintro s₁ (hnil | ⟨hb, -⟩)
    · simp [inProgram, hnil]
    · cases hb
  · rintro s₁ d s₂ hgo ⟨hreaches, hspelled₁⟩ hs₁ hround
    have hne : s₁.rest ≠ [] := by simpa [inProgram] using hgo
    have hgoes := declaration_goesTo hne hspelled₁ hs₁ hround
    refine ⟨⟨.round hreaches hround, fun t ht => hspelled₁ t (hgoes.adds.rest.subset ht)⟩, ?_⟩
    exact hgoes.imp_right fun hcase => ⟨hcase.1.mono fun es e h => ⟨s₁, hreaches, h⟩, hcase.2⟩

end Programs

end ScripCheck
