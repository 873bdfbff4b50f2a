import ScripCheck.Proofs.Tree.Keeping

/-!
# Which spans are open

A production that finds something leaves the spans open that it found open, and of these only the
innermost one may reach further. So the span that it closes is the one that it opened.

* `Widened`: how the open spans may change. `Cursor.Takes.widened_spans`: how tokens change them.
* `Rounds`: where the rounds of a loop start.
* `LeavesOpen`, `DropsOwn`: the open spans when a production finds something, and when it gives up.
  `KeepsOwn`, `ClosesOwn`: the span that it opens is the one that it closes.
* `openSpans_kept`: all productions are so, and a run ends with no span open.
-/

namespace ScripCheck

open Production

/-- The same spans are open. The innermost one may reach further. -/
inductive Widened : List Span → List Span → Prop where
  | none : Widened [] []
  | top {a b : Span} {outer : List Span} (lo : b.lo = a.lo) (hi : a.hi ≤ b.hi) :
    Widened (a :: outer) (b :: outer)

section

variable {spans spans' spans'' : List Span}

theorem Widened.refl (spans : List Span) : Widened spans spans := by
  cases spans with
  | nil => exact .none
  | cons top outer => exact .top rfl (Int.le_refl _)

theorem Widened.trans (h : Widened spans spans') (h' : Widened spans' spans'') :
    Widened spans spans'' := by
  cases h with
  | none => exact h'
  | top lo hi =>
    cases h' with
    | top lo' hi' => exact .top (lo'.trans lo) (Int.le_trans hi hi')

theorem Widened.length_eq (h : Widened spans spans') : spans'.length = spans.length := by
  cases h <;> rfl

/-- Tokens widen the innermost span only. -/
theorem widened_widenBy (spans : List Span) (us : List Token) :
    Widened spans (Cursor.widenBy spans us) := by
  cases spans with
  | nil => rw [Cursor.widenBy_nil]; exact .none
  | cons top outer =>
    rw [Cursor.widenBy_cons]
    induction us generalizing top with
    | nil => exact .refl _
    | cons u us ih =>
      have hstep : Widened (top :: outer) (top.reach u.span.hi :: outer) :=
        .top rfl (top.le_reach_hi u.span.hi)
      exact hstep.trans (ih _)

end

/-! ## Productions -/

section

variable {α : Type} {src : List Char} {s s' s₁ : Cursor} {us : List Token} {outer : List Span}
  {L : List Token → List Token → Prop} {p : Production α} {go : Cursor → Bool}

/-- Whatever the production finds, it leaves the spans open that it found open. -/
def LeavesOpen (p : Production α) : Prop :=
  ∀ s a s', p s = .found a s' → Widened s.spans s'.spans

/-- If the production gives up, the spans that it found open are below those that it opened. -/
def DropsOwn (p : Production α) : Prop :=
  ∀ s s', p s = .abandoned s' →
    Widened s.spans (s'.spans.drop (s'.spans.length - s.spans.length))

/-- After what is read inside a span, this span is again the innermost one, above all those that were
open before. -/
def KeepsOwn (src : List Char) (p : Production α) : Prop :=
  ∀ (s : Cursor) (a : α) (s' : Cursor), p (s.opened src) = .found a s' → ∃ own : Span,
    own.lo = (s.here src).lo ∧ (s.here src).hi ≤ own.hi ∧ s'.spans = own :: s.spans

/-- The production reads a node inside a span, and the span that it closes is the one that it
opened. -/
def ClosesOwn (src : List Char) (p : Production α) : Prop :=
  ∃ (β : Type) (inside : Production β) (node : β → Span → α),
    p = (do let (b, span) ← spanned src inside; return node b span) ∧ KeepsOwn src inside

/-- The rounds of a loop lead from one cursor to another. -/
inductive Rounds (go : Cursor → Bool) (p : Production α) : Cursor → Cursor → Prop where
  | refl (s : Cursor) : Rounds go p s s
  | round {s s₁ s' : Cursor} {a : α} (before : Rounds go p s s₁) (goes : go s₁ = true)
    (run : p s₁ = .found a s') : Rounds go p s s'

theorem Cursor.Takes.widened_spans (h : s.Takes src s' us outer) : Widened s.spans outer := by
  obtain ⟨vs, -, rfl⟩ := h.widened
  exact widened_widenBy s.spans vs

theorem Rounds.leaveOpen (h : Rounds go p s s')
    (hp : ∀ s a s', go s = true → p s = .found a s' → Widened s.spans s'.spans) :
    Widened s.spans s'.spans := by
  induction h with
  | refl => exact .refl _
  | round before goes run ih => exact ih.trans (hp _ _ _ goes run)

/-- Where a loop ends, its next round would start. -/
theorem rounds_of_found {progress : Advances go p} {as : List α} (hs : Rounds go p s s₁)
    (h : whileAt go p progress s₁ = .found as s') : Rounds go p s s' := by
  induction s₁ using whileAt_induction progress generalizing as with
  | stop s₁ hgo =>
    rw [whileAt_stop progress hgo] at h
    cases h
    exact hs
  | round s₁ hgo ih =>
    obtain ⟨a, s₂, bs, hround, hmore, -⟩ := whileAt_found progress hgo h
    exact ih a s₂ hround (hs.round hgo hround) hmore

theorem Widened.own (h : Widened (s.opened src).spans s'.spans) : ∃ own : Span,
    own.lo = (s.here src).lo ∧ (s.here src).hi ≤ own.hi ∧ s'.spans = own :: s.spans := by
  generalize s'.spans = spans at h
  cases h with
  | top lo hi => exact ⟨_, lo, hi, rfl⟩

theorem LeavesOpen.keepsOwn (hp : LeavesOpen p) : KeepsOwn src p :=
  fun s a s' hrun => (hp (s.opened src) a s' hrun).own

theorem Keeps.widened (hp : Keeps src L p s.rest) {a : α} (hrun : p s = .found a s') :
    Widened s.spans s'.spans := by
  have h := hp s rfl
  rw [hrun] at h
  cases h with
  | found takes => exact takes.widened_spans

theorem Keeps.widened_drop (hp : Keeps src L p s.rest) (hrun : p s = .abandoned s') :
    Widened s.spans (s'.spans.drop (s'.spans.length - s.spans.length)) := by
  have h := hp s rfl
  rw [hrun] at h
  cases h with
  | abandoned takes spans =>
    rw [takes.drop_inner spans]
    exact takes.widened_spans

theorem Keeps.leavesOpen (hp : ∀ ts, Keeps src L p ts) : LeavesOpen p :=
  fun s _ _ hrun => (hp s.rest).widened hrun

theorem Keeps.dropsOwn (hp : ∀ ts, Keeps src L p ts) : DropsOwn p :=
  fun s _ hrun => (hp s.rest).widened_drop hrun

end

/-! ## Productions that need a token -/

section

variable {α β : Type} {src : List Char} {s s' : Cursor} {L : List Token → List Token → Prop}
  {p : Production α} {f : α → Production β}

/-- The production cannot start at the end of the text. -/
def NeedsToken (p : Production α) : Prop := ∀ s : Cursor, s.rest = [] → p s = .faulted .endPassed

theorem needsToken_advance : NeedsToken advance := fun s hs => by rw [advance, hs]

theorem NeedsToken.bind (hp : NeedsToken p) : NeedsToken (p >>= f) := fun s hs => by
  rw [bind_apply, hp s hs]; rfl

theorem NeedsToken.spanned (hp : NeedsToken p) : NeedsToken (spanned src p) := fun s hs =>
  hp.bind (s.opened src) hs

/-- So it is enough to look at texts that go on. -/
theorem NeedsToken.keeps_rest (hp : NeedsToken p) (hkeeps : ∀ t ts, Keeps src L p (t :: ts))
    (hrun : p s ≠ .faulted .endPassed) : Keeps src L p s.rest := by
  cases hs : s.rest with
  | nil => exact absurd (hp s hs) hrun
  | cons t ts => exact hkeeps t ts

theorem NeedsToken.leavesOpen (hp : NeedsToken p) (hkeeps : ∀ t ts, Keeps src L p (t :: ts)) :
    LeavesOpen p := fun _ _ _ hrun =>
  (hp.keeps_rest hkeeps (by rw [hrun]; nofun)).widened hrun

theorem NeedsToken.dropsOwn (hp : NeedsToken p) (hkeeps : ∀ t ts, Keeps src L p (t :: ts)) :
    DropsOwn p := fun _ _ hrun =>
  (hp.keeps_rest hkeeps (by rw [hrun]; nofun)).widened_drop hrun

theorem needsToken_skipRun (b : Bool) (depth : Int) : NeedsToken (skipRun b depth) :=
  fun _ hs => skipRun_nil hs

theorem needsToken_item? {b : Bool} {other : Production (Option Item)} (h : NeedsToken other) :
    NeedsToken (item? src b other) := fun s hs => by
  rw [item?, if_neg (by simp [Cursor.at?, hs]), if_neg (by simp [Cursor.at?, hs]), h s hs]

theorem needsToken_reported (starts : List Kind) (b : Bool) :
    NeedsToken (reported src starts b : Production (Option α)) :=
  (needsToken_skipRun b 0).spanned.bind.bind

theorem leavesOpen_skipRun (b : Bool) (depth : Int) : LeavesOpen (skipRun b depth) :=
  fun s a s' hrun => by
    cases hs : s.rest with
    | nil => rw [skipRun_nil hs] at hrun; cases hrun
    | cons t ts =>
      obtain ⟨u, d, us, vs, hskips⟩ := skipRun_past b depth (s := s) (by simp [hs])
      rw [hskips.run] at hrun
      cases hrun
      exact widened_widenBy s.spans us

end

/-! ## A run -/

/-- What holds of the open spans while the tokens `ts` are read. -/
structure OpenSpansKept (src : List Char) (ts : List Token) : Prop where
  /-- Reading ends, and no span is open then. -/
  ends : ∃ ds s, declarations src ⟨ts, [], []⟩ = .found ds s ∧ s.spans = []
  /-- No span is open where a round of the loop of a program starts. -/
  program : ∀ s, Rounds inProgram (orEmptyLine (declaration src)) ⟨ts, [], []⟩ s → s.spans = []
  /-- As many spans are open where each round of the loop of a body starts. -/
  body : ∀ s s', Rounds inBlock (orEmptyLine (statement src)) s s' →
    s'.spans.length = s.spans.length
  /-- What finds something leaves the spans open that it found open. -/
  found : LeavesOpen (typeName src) ∧ LeavesOpen (name src) ∧ LeavesOpen (varDef src) ∧
    LeavesOpen (globalItem src) ∧ LeavesOpen (block src) ∧ LeavesOpen (funcDef src) ∧
    ∀ starts b, LeavesOpen (unexpected src starts b)
  /-- So does what reads a declaration, which may be given up. -/
  declared : LeavesOpen (declaration src) ∧ LeavesOpen (statement src)
  /-- Dropping the spans on top of the stack leaves those that were open before. -/
  givenUp : DropsOwn (funcDef src) ∧ DropsOwn (terminated (globalItem src)) ∧
    DropsOwn (terminated (varItem src))
  /-- Each node closes the span that it opened. -/
  closed : ClosesOwn src (typeName src) ∧ ClosesOwn src (name src) ∧ ClosesOwn src (varDef src) ∧
    ClosesOwn src (globalItem src) ∧ ClosesOwn src (block src) ∧ ClosesOwn src (funcDef src)
  /-- So does what is skipped. -/
  skipped : ∀ b, KeepsOwn src (skipRun b 0)

section

variable {src : List Char} {ts : List Token}

theorem starts_own (t : Token) (ts : List Token) : Starts [t.kind] (t :: ts) :=
  starts_cons.mpr (List.mem_singleton_self _)

theorem needsToken_globalItem : NeedsToken (globalItem src) := needsToken_advance.bind.spanned.bind

theorem needsToken_funcDef : NeedsToken (funcDef src) := needsToken_advance.bind.spanned.bind

theorem needsToken_declaration : NeedsToken (declaration src) := fun s hs => by
  rw [declaration, if_neg (by simp [Cursor.at?, hs])]
  exact (needsToken_item? (needsToken_reported _ false)).bind s hs

theorem leavesOpen_unexpected (starts : List Kind) (b : Bool) :
    LeavesOpen (unexpected src starts b) :=
  (needsToken_skipRun b 0).spanned.bind.leavesOpen fun t ts =>
    keeps_unexpected starts b (List.cons_ne_nil t ts)

theorem leavesOpen_declaration : LeavesOpen (declaration src) :=
  needsToken_declaration.leavesOpen fun t ts => keeps_declaration (List.cons_ne_nil t ts)

theorem leavesOpen_statement : LeavesOpen (statement src) :=
  (needsToken_item? (needsToken_reported _ true)).leavesOpen fun t ts =>
    keeps_statement (List.cons_ne_nil t ts)

/-- Each round of the loop of a body starts with the same spans open. -/
theorem Rounds.leaveOpen_body {s s' : Cursor}
    (h : Rounds inBlock (orEmptyLine (statement src)) s s') : Widened s.spans s'.spans :=
  h.leaveOpen fun _ _ _ hgo hrun => (keeps_statement (inBlock_iff.mp hgo).1).orEmptyLine.widened hrun

/-- No span is open where a round of the loop of a program starts. -/
theorem Rounds.spans_eq_nil {s : Cursor}
    (h : Rounds inProgram (orEmptyLine (declaration src)) ⟨ts, [], []⟩ s) : s.spans = [] := by
  have hwidened : Widened [] s.spans := h.leaveOpen fun s₁ _ _ hgo hrun => by
    have hne : s₁.rest ≠ [] := by simpa [inProgram] using hgo
    exact (keeps_declaration hne).orEmptyLine.widened hrun
  exact List.length_eq_zero_iff.mp hwidened.length_eq

/-- Reading tokens ends with no span open, and in between every production closes what it opens. -/
theorem openSpans_kept (src : List Char) (h : BooleansSpelled ts) : OpenSpansKept src ts where
  ends := by
    obtain ⟨ds, s, hrun, -⟩ := decls_found src (s := ⟨ts, [], []⟩) h
    exact ⟨_, s, bind_run hrun, (rounds_of_found (.refl _) hrun).spans_eq_nil⟩
  program _ hrounds := hrounds.spans_eq_nil
  body _ _ hrounds := hrounds.leaveOpen_body.length_eq
  found := ⟨Keeps.leavesOpen fun _ => keeps_typeName, Keeps.leavesOpen fun _ => keeps_name,
    Keeps.leavesOpen fun _ => keeps_varDef,
    needsToken_globalItem.leavesOpen fun t ts => keeps_globalItem (starts_own t ts),
    Keeps.leavesOpen fun _ => keeps_block,
    needsToken_funcDef.leavesOpen fun t ts => keeps_funcDef (starts_own t ts),
    leavesOpen_unexpected⟩
  declared := ⟨leavesOpen_declaration, leavesOpen_statement⟩
  givenUp := ⟨needsToken_funcDef.dropsOwn fun t ts => keeps_funcDef (starts_own t ts),
    needsToken_globalItem.bind.dropsOwn fun t ts => (keeps_globalItem (starts_own t ts)).terminated,
    Keeps.dropsOwn fun _ => keeps_varItem.terminated⟩
  closed := ⟨⟨_, expect src [.ident], fun t span => ⟨t.text, span⟩, rfl,
      (Keeps.leavesOpen fun _ => keeps_expect).keepsOwn⟩,
    ⟨_, words src, fun x span => ⟨String.intercalate "." ((x.1 :: x.2).map (·.text)), span⟩, rfl,
      (Keeps.leavesOpen fun _ => keeps_words).keepsOwn⟩,
    ⟨_, varParts src, fun x span => ⟨x.1, x.2.1, x.2.2, span⟩, rfl,
      (Keeps.leavesOpen fun _ => keeps_varParts).keepsOwn⟩,
    ⟨_, globalParts src, fun d span => .global d span, rfl,
      (needsToken_advance.bind.leavesOpen fun t ts =>
        keeps_globalParts (starts_own t ts)).keepsOwn⟩,
    ⟨_, braced src, fun items span => ⟨items, span⟩, rfl,
      (Keeps.leavesOpen fun _ => keeps_braced).keepsOwn⟩,
    ⟨_, funcParts src, fun x span => ⟨x.1, x.2.1, x.2.2, span⟩, rfl,
      (needsToken_advance.bind.leavesOpen fun t ts =>
        keeps_funcParts (starts_own t ts)).keepsOwn⟩⟩
  skipped b := (leavesOpen_skipRun b 0).keepsOwn

/-- A function with a statement in its body that is given up. -/
theorem openSpans_kept_garbled :
    let ts : List Token := [⟨.funcWord, "func", ⟨0, 4⟩⟩, ⟨.ident, "f", ⟨5, 6⟩⟩,
      ⟨.lparen, "(", ⟨6, 7⟩⟩, ⟨.rparen, ")", ⟨7, 8⟩⟩, ⟨.lbrace, "\x7b", ⟨8, 9⟩⟩,
      ⟨.ident, "T", ⟨9, 10⟩⟩, ⟨.boolLit, "True", ⟨11, 15⟩⟩, ⟨.newline, "\n", ⟨15, 16⟩⟩,
      ⟨.rbrace, "\x7d", ⟨16, 17⟩⟩]
    BooleansSpelled ts ∧ OpenSpansKept "func f()\x7bT True\n\x7d".toList ts := by
  intro ts
  have hspelled : BooleansSpelled ts := by simp [BooleansSpelled, ts]
  exact ⟨hspelled, openSpans_kept _ hspelled⟩

end

end ScripCheck
