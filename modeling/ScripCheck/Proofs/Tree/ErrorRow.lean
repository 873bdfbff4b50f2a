import ScripCheck.Proofs.Tree.Node

/-!
# Where errors are

A production that gives up has one error, about the next token or about a token that it took. So
errors come one after another as the tokens do, if reading goes on behind what was reported.

* `Row`: errors one after another, none with an empty span.
* `Fits`: the tokens of a text, in order.
* `Cursor.ClearTo`: what was reported between two cursors is a row of tokens that were taken.
* `Cursor.Adds`: the same but for the last errors, which are about the place where reading stands.
* `Marks`: how a production ends. `marks_name`, ..., `marks_header`: one lemma for each production
  without a body.
-/

namespace ScripCheck

open Production

/-! ## Rows of errors -/

/-- The errors are about parts of a text that are not empty, one after another from `lo` to `hi`. -/
inductive Row : Int → List SyntaxError → Int → Prop where
  | nil {lo hi : Int} (le : lo ≤ hi) : Row lo [] hi
  | cons {lo hi : Int} {e : SyntaxError} {es : List SyntaxError} (start : lo ≤ e.span.lo)
      (nonempty : e.span.lo < e.span.hi) (rest : Row e.span.hi es hi) : Row lo (e :: es) hi

section Row

variable {lo mid hi : Int} {e : SyntaxError} {es es' : List SyntaxError}

theorem Row.one (start : lo ≤ e.span.lo) (nonempty : e.span.lo < e.span.hi)
    (stop : e.span.hi ≤ hi) : Row lo [e] hi := .cons start nonempty (.nil stop)

theorem Row.le (h : Row lo es hi) : lo ≤ hi := by
  induction h with
  | nil le => exact le
  | cons start nonempty rest ih => omega

theorem Row.from_le {lo' : Int} (h : Row mid es hi) (hlo : lo' ≤ mid) : Row lo' es hi := by
  cases h with
  | nil le => exact .nil (Int.le_trans hlo le)
  | cons start nonempty rest => exact .cons (Int.le_trans hlo start) nonempty rest

theorem Row.append (h : Row lo es mid) (h' : Row mid es' hi) : Row lo (es ++ es') hi := by
  induction h with
  | nil le => exact h'.from_le le
  | cons start nonempty rest ih => exact .cons start nonempty (ih h')

theorem Row.between (h : Row lo es hi) (he : e ∈ es) :
    lo ≤ e.span.lo ∧ e.span.lo < e.span.hi ∧ e.span.hi ≤ hi := by
  induction h with
  | nil => cases he
  | cons start nonempty rest ih =>
    rcases List.mem_cons.mp he with rfl | he
    · exact ⟨start, nonempty, rest.le⟩
    · have := ih he
      omega

theorem Row.pairwise (h : Row lo es hi) : es.Pairwise (·.span.hi ≤ ·.span.lo) := by
  induction h with
  | nil => exact .nil
  | cons start nonempty rest ih => exact .cons (fun _ he => (rest.between he).1) ih

end Row

/-! ## Tokens of a text -/

/-- The tokens are in order, and inside the text. -/
structure Fits (src : List Char) (ts : List Token) : Prop where
  inOrder : InOrder ts
  inside : ∀ t ∈ ts, 0 ≤ t.span.lo ∧ t.span.hi ≤ src.length

section Fits

variable {src : List Char} {us ts : List Token} {t : Token} {s s' : Cursor}

theorem Fits.right (h : Fits src (us ++ ts)) : Fits src ts :=
  ⟨h.inOrder.right, fun t ht => h.inside t (List.mem_append_right us ht)⟩

theorem Fits.suffix (h : Fits src ts) (hsuffix : us <:+ ts) : Fits src us := by
  obtain ⟨vs, rfl⟩ := hsuffix
  exact h.right

theorem Cursor.here_congr (h : s.rest = s'.rest) : s.here src = s'.here src := by
  simp only [Cursor.here, h]

theorem Cursor.here_nil (h : s.rest = []) : s.here src = .atEnd src := by
  simp only [Cursor.here, h]

theorem Cursor.here_cons (h : s.rest = t :: ts) : s.here src = t.span := by
  simp only [Cursor.here, h]

/-- What is taken ends before the next token, or before the end of the text. -/
theorem Fits.hi_le_here (h : Fits src s.rest) (hs : s.rest = us ++ s'.rest) (ht : t ∈ us) :
    t.span.hi ≤ (s'.here src).lo := by
  rw [hs] at h
  cases hrest : s'.rest with
  | nil =>
    rw [Cursor.here_nil hrest]
    exact (h.inside t (List.mem_append_left _ ht)).2
  | cons u us' =>
    rw [Cursor.here_cons hrest]
    exact h.inOrder.le ht (hrest ▸ List.mem_cons_self)

theorem Fits.here_le (h : Fits src s.rest) (hs : s.rest = us ++ s'.rest) :
    (s.here src).lo ≤ (s'.here src).lo := by
  cases us with
  | nil =>
    have hrest : s.rest = s'.rest := hs
    exact Int.le_of_eq (congrArg Span.lo (Cursor.here_congr hrest))
  | cons u us =>
    have hhi := h.hi_le_here hs (t := u) List.mem_cons_self
    have hu := h.inOrder.nonempty u (hs ▸ List.mem_cons_self)
    rw [Cursor.here_cons (s := s) hs]
    omega

end Fits

/-! ## Errors between two cursors -/

/-- From `s` to `s'` tokens were taken, and errors were added about some of them, one after
another. -/
structure Cursor.ClearTo (src : List Char) (s s' : Cursor) : Prop where
  rest : s'.rest <:+ s.rest
  errors : ∃ es, s'.errors = s.errors ++ es ∧ Row (s.here src).lo es (s'.here src).lo

/-- The error about a body without its closing brace. -/
def missingBrace (src : List Char) : SyntaxError :=
  ⟨.expected [.rbrace] .endOfInput, .atEnd src⟩

/-- From `s` to `s'` errors were added about tokens that were taken, and at the end errors about the
place where reading stands. There are two of them only if the text ends in a body: `Twice` is what
is known of the first one and of the errors before it. -/
inductive Cursor.Adds (src : List Char) (Twice : List SyntaxError → SyntaxError → Prop)
    (s s' : Cursor) : Prop where
  | clear (clear : s.ClearTo src s')
  | here {s₁ : Cursor} {e : SyntaxError} (clear : s.ClearTo src s₁) (rest : s₁.rest = s'.rest)
      (errors : s'.errors = s₁.errors ++ [e]) (span : e.span = s'.here src)
  | twice {s₁ : Cursor} {e : SyntaxError} (clear : s.ClearTo src s₁) (rest : s₁.rest = s'.rest)
      (ends : s'.rest = []) (errors : s'.errors = s₁.errors ++ [e, missingBrace src])
      (span : e.span = .atEnd src) (twice : Twice s₁.errors e)

section Cursors

variable {src : List Char} {s s₁ s' s'' : Cursor} {e : SyntaxError} {us : List Token}
  {T T' : List SyntaxError → SyntaxError → Prop}

/-- The open spans do not matter. -/
theorem Cursor.clearTo_of_eq (hrest : s'.rest = s.rest) (herrors : s'.errors = s.errors) :
    s.ClearTo src s' := by
  refine ⟨hrest ▸ List.suffix_rfl, [], by rw [herrors, List.append_nil], .nil ?_⟩
  exact Int.le_of_eq (congrArg Span.lo (Cursor.here_congr hrest.symm))

/-- Tokens were taken without an error. -/
theorem Cursor.clearTo_skip (hfits : Fits src s.rest) (hrest : s'.rest <:+ s.rest)
    (herrors : s'.errors = s.errors) : s.ClearTo src s' := by
  obtain ⟨us, hus⟩ := hrest
  exact ⟨⟨us, hus⟩, [], by rw [herrors, List.append_nil], .nil (hfits.here_le hus.symm)⟩

/-- Tokens were taken, and are reported together. -/
theorem Cursor.clearTo_cover (hfits : Fits src s.rest) (hs : s.rest = us ++ s'.rest) (hne : us ≠ [])
    (herrors : s'.errors = s.errors ++ [e]) (he : e.span = cover us) : s.ClearTo src s' := by
  refine ⟨⟨us, hs.symm⟩, [e], herrors, ?_⟩
  have hhi : ∀ t ∈ us, t.span.hi ≤ (s'.here src).lo := fun t ht => hfits.hi_le_here hs ht
  obtain ⟨t, us, rfl⟩ := List.exists_cons_of_ne_nil hne
  have ht := hfits.inOrder.nonempty t (hs ▸ List.mem_cons_self)
  have hlo : e.span.lo = t.span.lo := by rw [he, cover_lo]
  have hle : t.span.hi ≤ e.span.hi := he ▸ le_cover_hi t us
  rw [Cursor.here_cons (s := s) hs]
  exact .one (Int.le_of_eq hlo.symm) (by omega) (he ▸ cover_hi_le hhi)

theorem Cursor.ClearTo.trans (h : s.ClearTo src s₁) (h' : s₁.ClearTo src s') :
    s.ClearTo src s' := by
  obtain ⟨es, herrors, hrow⟩ := h.errors
  obtain ⟨es', herrors', hrow'⟩ := h'.errors
  exact ⟨h'.rest.trans h.rest, es ++ es', by rw [herrors', herrors, List.append_assoc],
    hrow.append hrow'⟩

theorem Fits.clearTo (h : Fits src s.rest) (hs : s.ClearTo src s') : Fits src s'.rest :=
  h.suffix hs.rest

theorem Cursor.Adds.after (h : s.ClearTo src s₁) (h' : s₁.Adds src T s') : s.Adds src T s' := by
  cases h' with
  | clear clear => exact .clear (h.trans clear)
  | here clear rest errors span => exact .here (h.trans clear) rest errors span
  | twice clear rest ends errors span twice =>
    exact .twice (h.trans clear) rest ends errors span twice

theorem Cursor.Adds.mono (h : s.Adds src T s') (hT : ∀ es e, T es e → T' es e) :
    s.Adds src T' s' := by
  cases h with
  | clear clear => exact .clear clear
  | here clear rest errors span => exact .here clear rest errors span
  | twice clear rest ends errors span twice =>
    exact .twice clear rest ends errors span (hT _ _ twice)

theorem Cursor.Adds.rest (h : s.Adds src T s') : s'.rest <:+ s.rest := by
  cases h with
  | clear clear => exact clear.rest
  | here clear rest => exact rest ▸ clear.rest
  | twice clear rest => exact rest ▸ clear.rest

theorem Cursor.Adds.congr (h : s.Adds src T s') (hrest : s''.rest = s'.rest)
    (herrors : s''.errors = s'.errors) : s.Adds src T s'' := by
  have hhere : s'.here src = s''.here src := Cursor.here_congr hrest.symm
  cases h with
  | clear clear => exact .clear (clear.trans (clearTo_of_eq hrest herrors))
  | here clear rest errors span =>
    exact .here clear (rest.trans hrest.symm) (herrors.trans errors) (span.trans hhere)
  | twice clear rest ends errors span twice =>
    exact .twice clear (rest.trans hrest.symm) (hrest.trans ends) (herrors.trans errors) span twice

end Cursors

/-! ## How a production ends -/

/-- How a production ends that starts at `s`. -/
inductive MarkOutcome {α : Type} (src : List Char) (Twice : List SyntaxError → SyntaxError → Prop)
    (s : Cursor) : Outcome α → Prop where
  | found {a : α} {s' : Cursor} (clear : s.ClearTo src s') : MarkOutcome src Twice s (.found a s')
  | abandoned {s' : Cursor} (adds : s.Adds src Twice s') : MarkOutcome src Twice s (.abandoned s')
  | faulted (f : Fault) : MarkOutcome src Twice s (.faulted f)

/-- The errors of the production are about tokens that it took, but for one at most, which is about
the place where reading stands. -/
def Marks {α : Type} (src : List Char) (p : Production α) : Prop :=
  ∀ (T : List SyntaxError → SyntaxError → Prop) (s : Cursor), Fits src s.rest →
    MarkOutcome src T s (p s)

section Rules

variable {α β : Type} {src : List Char} {s s₁ s' : Cursor} {p q : Production α}
  {f : α → Production β} {T T' : List SyntaxError → SyntaxError → Prop} {kinds : List Kind}
  {go : Cursor → Bool}

theorem MarkOutcome.after {o : Outcome α} (h : s.ClearTo src s₁) (ho : MarkOutcome src T s₁ o) :
    MarkOutcome src T s o := by
  cases ho with
  | found clear => exact .found (h.trans clear)
  | abandoned adds => exact .abandoned (adds.after h)
  | faulted f => exact .faulted f

theorem MarkOutcome.mono {o : Outcome α} (h : MarkOutcome src T s o)
    (hT : ∀ es e, T es e → T' es e) : MarkOutcome src T' s o := by
  cases h with
  | found clear => exact .found clear
  | abandoned adds => exact .abandoned (adds.mono hT)
  | faulted f => exact .faulted f

theorem MarkOutcome.map {o : Outcome α} {g : α → β} (h : MarkOutcome src T s o) :
    MarkOutcome src T s (o.map g) := by
  cases h with
  | found clear => exact .found clear
  | abandoned adds => exact .abandoned adds
  | faulted f => exact .faulted f

theorem MarkOutcome.andThen {o : Outcome α} (h : MarkOutcome src T s o)
    (hf : ∀ a s', o = .found a s' → s.ClearTo src s' → MarkOutcome src T s' (f a s')) :
    MarkOutcome src T s (o.andThen f) := by
  cases h with
  | found clear => exact .after clear (hf _ _ rfl clear)
  | abandoned adds => exact .abandoned adds
  | faulted f => exact .faulted f

theorem MarkOutcome.bind (h : MarkOutcome src T s (p s))
    (hf : ∀ a s', p s = .found a s' → s.ClearTo src s' → MarkOutcome src T s' (f a s')) :
    MarkOutcome src T s ((p >>= f) s) := h.andThen hf

theorem marks_pure (a : α) : Marks src (pure a : Production α) :=
  fun _ _ _ => .found (Cursor.clearTo_of_eq rfl rfl)

theorem Marks.bind (hp : Marks src p) (hf : ∀ a, Marks src (f a)) : Marks src (p >>= f) :=
  fun T s hs => (hp T s hs).bind fun a s' _ clear => hf a T s' (hs.clearTo clear)

theorem marks_advance : Marks src advance := fun T s hs => by
  unfold advance
  split
  · exact .faulted _
  · next t ts h => exact .found (Cursor.clearTo_skip hs ⟨[t], h.symm⟩ rfl)

theorem marks_require : Marks src (require src kinds) := fun T s hs => by
  unfold require
  split
  · exact .found (Cursor.clearTo_of_eq rfl rfl)
  · exact .abandoned (.here (Cursor.clearTo_of_eq rfl rfl) rfl rfl rfl)

theorem marks_expect : Marks src (expect src kinds) := marks_require.bind fun _ => marks_advance

theorem marks_closeSpan : Marks src closeSpan := fun T s _ => by
  unfold closeSpan
  split
  · exact .faulted _
  · exact .found (Cursor.clearTo_of_eq rfl rfl)

theorem MarkOutcome.spanned (hs : Fits src s.rest)
    (h : MarkOutcome src T (s.opened src) (p (s.opened src))) :
    MarkOutcome src T s (spanned src p s) := by
  have hopened : s.ClearTo src (s.opened src) := Cursor.clearTo_of_eq rfl rfl
  exact .after hopened (h.bind fun a s' _ clear =>
    (marks_closeSpan.bind fun span => marks_pure (a, span)) T s' (hs.clearTo (hopened.trans clear)))

theorem Marks.spanned (hp : Marks src p) : Marks src (spanned src p) :=
  fun T s hs => .spanned hs (hp T (s.opened src) hs)

theorem Marks.whileAt (progress : Advances go p) (hp : Marks src p) :
    Marks src (whileAt go p progress) := fun T s hs => by
  induction s using whileAt_induction progress with
  | stop s h =>
    rw [whileAt_stop progress h]
    exact .found (Cursor.clearTo_of_eq rfl rfl)
  | round s h ih =>
    rw [whileAt_go progress h]
    exact (hp T s hs).bind fun a s' ho clear => (ih a s' ho (hs.clearTo clear)).map

/-- A choice by the next token. -/
theorem Marks.ite (hp : Marks src p) (hq : Marks src q) :
    Marks src (fun s => if s.at? kinds then p s else q s) := fun T s hs => by
  dsimp only
  split
  · exact hp T s hs
  · exact hq T s hs

end Rules

/-! ## Productions without a body -/

section Productions

variable {src : List Char}

theorem marks_dottedWord : Marks src (dottedWord src) := marks_advance.bind fun _ => marks_expect

theorem marks_name : Marks src (name src) :=
  (Marks.spanned (marks_expect.bind fun _ => (marks_dottedWord.whileAt _).bind fun _ =>
    marks_pure _)).bind fun _ => marks_pure _

theorem marks_typeName : Marks src (typeName src) := marks_expect.spanned.bind fun _ => marks_pure _

/-- A literal without a value is reported after it was taken. -/
theorem marks_literal : Marks src (literal src) := fun T s hs => by
  by_cases h : Starts literalKinds s.rest
  · obtain ⟨t, ts, hrest, h⟩ := h.exists_cons
    rcases literal_cases hrest h with ⟨v, hv⟩ | ⟨-, hv⟩ | ⟨-, hv⟩
    · rw [hv]
      exact .found (Cursor.clearTo_skip hs ⟨[t], hrest.symm⟩ rfl)
    · rw [hv]
      exact .abandoned (.clear (Cursor.clearTo_cover hs hrest (List.cons_ne_nil t []) rfl rfl))
    · rw [hv]
      exact .faulted _
  · rw [literal_missing h]
    exact .abandoned (.here (Cursor.clearTo_of_eq rfl rfl) rfl rfl rfl)

theorem marks_varDef : Marks src (varDef src) :=
  (Marks.spanned (marks_typeName.bind fun _ => marks_name.bind fun _ => marks_expect.bind fun _ =>
    marks_literal.bind fun _ => marks_require.bind fun _ => marks_pure _)).bind fun _ =>
    marks_pure _

theorem marks_varItem : Marks src (varItem src) := marks_varDef.bind fun _ => marks_pure _

theorem marks_globalItem : Marks src (globalItem src) :=
  (Marks.spanned (marks_advance.bind fun _ => marks_varDef)).bind fun _ => marks_pure _

theorem Marks.terminated {α : Type} {p : Production α} (hp : Marks src p) :
    Marks src (terminated p) := hp.bind fun _ => marks_advance.bind fun _ => marks_pure _

theorem marks_nextParam : Marks src (nextParam src) := marks_advance.bind fun _ => marks_name

theorem marks_params : Marks src (params src) :=
  .ite (marks_name.bind fun _ => (marks_nextParam.whileAt _).bind fun _ => marks_pure _)
    (marks_pure _)

theorem marks_header : Marks src (header src) :=
  marks_advance.bind fun _ => marks_name.bind fun _ => marks_expect.bind fun _ =>
    marks_params.bind fun _ => marks_expect.bind fun _ => marks_pure _

end Productions

end ScripCheck
