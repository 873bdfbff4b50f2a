import ScripCheck.Proofs.Tree.FirstError

/-!
# What every production keeps

Whatever the tokens are, a production takes some of them from the front, widens the innermost open
span by some of those, and adds errors that are about them. It faults on nothing but a boolean
literal that is neither of the two words.

* `SyntaxError.Arises`: how an error comes about among some tokens.
* `Cursor.Takes`: what lies between two cursors. `Keeps`: a production ends at such a cursor; one
  that gives up may leave more spans open.
* `keeps_name`, ..., `keeps_decls`: one lemma for each production.
* `declarations_keeps`: how reading a list of tokens ends.
-/

namespace ScripCheck

open Production

/-- A boolean literal that is neither of the two words. -/
structure Token.Misspelled (t : Token) : Prop where
  kind : t.kind = .boolLit
  text : t.text ≠ "True" ∧ t.text ≠ "False"

/-- How an error comes about among some tokens. -/
inductive SyntaxError.Arises (src : List Char) : List Token → SyntaxError → Prop where
  /-- A token of another kind was expected before the tokens `vs`. -/
  | missing (kinds : List Kind) (us vs : List Token) :
    Arises src (us ++ vs) (Cursor.missing src kinds ⟨vs, [], []⟩)
  | numeral {ts : List Token} {t : Token} (mem : t ∈ ts) (kind : t.kind ∈ literalKinds)
    (noValue : ∀ v, ¬ Denotes t v) : Arises src ts ⟨.numeral, t.span⟩
  /-- The tokens `vs` were skipped. -/
  | skipped (kinds : List Kind) (us ws : List Token) {vs : List Token} (nonempty : vs ≠ []) :
    Arises src (us ++ (vs ++ ws))
      ⟨.expected kinds (.text (String.ofList ((cover vs).slice src))), cover vs⟩

theorem SyntaxError.Arises.after {src : List Char} {ts : List Token} {e : SyntaxError}
    (h : e.Arises src ts) (us : List Token) : e.Arises src (us ++ ts) := by
  cases h with
  | missing kinds vs ws => exact List.append_assoc us vs ws ▸ .missing kinds (us ++ vs) ws
  | numeral mem kind noValue => exact .numeral (List.mem_append_right us mem) kind noValue
  | skipped kinds vs ws nonempty =>
    exact List.append_assoc us vs _ ▸ .skipped kinds (us ++ vs) ws nonempty

/-- From `s` to `s'` the tokens `us` were taken. The spans `outer` are those that were open at `s`,
the innermost of them widened by some of the tokens. -/
structure Cursor.Takes (src : List Char) (s s' : Cursor) (us : List Token) (outer : List Span) :
    Prop where
  rest : s.rest = us ++ s'.rest
  widened : ∃ vs, vs ⊆ us ∧ outer = widenBy s.spans vs
  errors : ∃ es, s'.errors = s.errors ++ es ∧ ∀ e ∈ es, e.Arises src s.rest

/-- How a production ends. `L` is about the tokens that it took and the tokens that are left. -/
inductive KeptOutcome {α : Type} (src : List Char) (L : List Token → List Token → Prop)
    (s : Cursor) : Outcome α → Prop where
  | found {a : α} {us : List Token} {s' : Cursor} (takes : s.Takes src s' us s'.spans)
    (tokens : L us s'.rest) : KeptOutcome src L s (.found a s')
  | abandoned {us : List Token} {s' : Cursor} {inner outer : List Span}
    (takes : s.Takes src s' us outer) (spans : s'.spans = inner ++ outer) :
    KeptOutcome src L s (.abandoned s')
  | faulted {t : Token} (mem : t ∈ s.rest) (misspelled : t.Misspelled) :
    KeptOutcome src L s (.faulted (.boolean t.text))

/-- Where the tokens `ts` are left, the production ends in one of these ways. -/
def Keeps {α : Type} (src : List Char) (L : List Token → List Token → Prop) (p : Production α)
    (ts : List Token) : Prop :=
  ∀ s : Cursor, s.rest = ts → KeptOutcome src L s (p s)

/-- Nothing is said about the tokens. -/
def AnyTokens (_us _ts : List Token) : Prop := True

/-- At least one token was taken. -/
def SomeTokens (us _ts : List Token) : Prop := us ≠ []

/-- At least one token was taken, and a line break is next. -/
def LineTokens (us ts : List Token) : Prop := us ≠ [] ∧ Starts [.newline] ts

section Rules

variable {α β : Type} {src : List Char} {s s₁ s₂ : Cursor} {us vs ts : List Token}
  {outer : List Span} {L M : List Token → List Token → Prop} {p : Production α}
  {f : α → Production β} {kinds : List Kind} {e : SyntaxError}

theorem Cursor.takes_refl (src : List Char) (s : Cursor) : s.Takes src s [] s.spans :=
  ⟨rfl, ⟨[], List.nil_subset _, rfl⟩, [], by simp⟩

theorem Cursor.Takes.trans (h₁ : s.Takes src s₁ us s₁.spans) (h₂ : s₁.Takes src s₂ vs outer) :
    s.Takes src s₂ (us ++ vs) outer := by
  obtain ⟨ws₁, hws₁, hspans₁⟩ := h₁.widened
  obtain ⟨ws₂, hws₂, hspans₂⟩ := h₂.widened
  obtain ⟨es₁, herrors₁, harises₁⟩ := h₁.errors
  obtain ⟨es₂, herrors₂, harises₂⟩ := h₂.errors
  refine ⟨by rw [h₁.rest, h₂.rest, List.append_assoc], ⟨ws₁ ++ ws₂, ?_, ?_⟩, es₁ ++ es₂, ?_, ?_⟩
  · exact List.append_subset.mpr ⟨List.subset_append_of_subset_left vs hws₁,
      List.subset_append_of_subset_right us hws₂⟩
  · rw [hspans₂, hspans₁, widenBy, widenBy, widenBy, List.foldl_append]
  · rw [herrors₂, herrors₁, List.append_assoc]
  · refine List.forall_mem_append.mpr ⟨harises₁, fun e he => ?_⟩
    rw [h₁.rest]
    exact (harises₂ e he).after us

theorem Cursor.takes_past (src : List Char) (h : s.rest = us ++ ts) :
    s.Takes src (s.past us ts) us (s.past us ts).spans :=
  ⟨h, ⟨us, List.Subset.refl us, rfl⟩, [], by simp [past]⟩

theorem Cursor.takes_record (he : e.Arises src s.rest) : s.Takes src (s.record e) [] s.spans :=
  ⟨rfl, ⟨[], List.nil_subset _, rfl⟩, [e], rfl, by simpa using he⟩

theorem KeptOutcome.stopped (h : s.Takes src s₁ us s₁.spans) :
    KeptOutcome src L s (.abandoned s₁ : Outcome α) :=
  .abandoned h (List.nil_append _).symm

theorem KeptOutcome.mono {o : Outcome α} (h : KeptOutcome src L s o)
    (hL : ∀ us ts, L us ts → M us ts) : KeptOutcome src M s o := by
  cases h with
  | found takes tokens => exact .found takes (hL _ _ tokens)
  | abandoned takes spans => exact .abandoned takes spans
  | faulted mem misspelled => exact .faulted mem misspelled

theorem KeptOutcome.any {o : Outcome α} (h : KeptOutcome src L s o) :
    KeptOutcome src AnyTokens s o := h.mono fun _ _ _ => trivial

theorem KeptOutcome.map {o : Outcome α} {g : α → β} (h : KeptOutcome src L s o) :
    KeptOutcome src L s (o.map g) := by
  cases h with
  | found takes tokens => exact .found takes tokens
  | abandoned takes spans => exact .abandoned takes spans
  | faulted mem misspelled => exact .faulted mem misspelled

/-- What ends like this after some tokens ends like this. -/
theorem KeptOutcome.after {o : Outcome α} (h : s.Takes src s₁ us s₁.spans)
    (ho : KeptOutcome src (fun vs => M (us ++ vs)) s₁ o) : KeptOutcome src M s o := by
  cases ho with
  | found takes tokens => exact .found (h.trans takes) tokens
  | abandoned takes spans => exact .abandoned (h.trans takes) spans
  | faulted mem misspelled =>
    exact .faulted (h.rest ▸ List.mem_append_right us mem) misspelled

theorem Keeps.mono (hp : Keeps src L p ts) (hL : ∀ us ts, L us ts → M us ts) : Keeps src M p ts :=
  fun s hs => (hp s hs).mono hL

theorem Keeps.any (hp : Keeps src L p ts) : Keeps src AnyTokens p ts := fun s hs => (hp s hs).any

theorem keeps_pure (a : α) (hL : L [] ts) : Keeps src L (pure a : Production α) ts :=
  fun s hs => .found (s.takes_refl src) (hs ▸ hL)

theorem Keeps.bind (hp : Keeps src L p ts)
    (hf : ∀ us a ts, L us ts → Keeps src (fun vs => M (us ++ vs)) (f a) ts) :
    Keeps src M (p >>= f) ts := by
  intro s hs
  have h := hp s hs
  rw [bind_apply]
  generalize p s = o at h
  cases h with
  | found takes tokens => exact .after takes (hf _ _ _ tokens _ rfl)
  | abandoned takes spans => exact .abandoned takes spans
  | faulted mem misspelled => exact .faulted mem misspelled

/-- What follows a production that took a token need not take one. -/
theorem Keeps.bind_some (hp : Keeps src L p ts) (hL : ∀ us ts, L us ts → us ≠ [])
    (hf : ∀ us a ts, L us ts → Keeps src AnyTokens (f a) ts) : Keeps src SomeTokens (p >>= f) ts :=
  hp.bind fun us a ts h => (hf us a ts h).mono fun vs _ _ =>
    List.append_ne_nil_of_left_ne_nil (hL us ts h) vs

theorem keeps_advance (h : Starts kinds ts) : Keeps src SomeTokens advance ts := by
  intro s hs
  cases ts with
  | nil => exact h.elim
  | cons t ts =>
    have htakes : s.Takes src (s.past [t] ts) [t] (s.past [t] ts).spans := Cursor.takes_past src hs
    rw [advance_run hs]
    exact .found htakes (List.cons_ne_nil t [])

theorem arises_missing (kinds : List Kind) (s : Cursor) :
    (s.missing src kinds).Arises src s.rest := .missing kinds [] s.rest

theorem keeps_require :
    Keeps src (fun us ts => us = [] ∧ Starts kinds ts) (require src kinds) ts := by
  intro s hs
  by_cases h : Starts kinds s.rest
  · rw [require_run src h]
    exact .found (s.takes_refl src) ⟨rfl, h⟩
  · rw [require_missing src h]
    exact .stopped (Cursor.takes_record (arises_missing kinds s))

theorem keeps_expect : Keeps src SomeTokens (expect src kinds) ts :=
  keeps_require.bind fun _ _ _ h => by
    obtain ⟨rfl, h⟩ := h
    exact keeps_advance h

/-- A span that is closed widens the one around it by the tokens that it covers. -/
theorem widen_cover (t : Token) (us : List Token) (spans : List Span) :
    Cursor.widen (cover (t :: us)).hi spans = Cursor.widenBy spans (t :: us) := by
  cases spans with
  | nil => rw [Cursor.widenBy_nil]; rfl
  | cons top outer => rw [Cursor.widenBy_cons, foldl_reach]; rfl

theorem Keeps.spanned (hp : Keeps src L p ts) (hL : ∀ us ts, L us ts → us ≠ []) :
    Keeps src L (spanned src p) ts := by
  intro s hs
  have h := hp (s.opened src) hs
  show KeptOutcome src L s ((p (s.opened src)).andThen fun a => do return (a, ← closeSpan))
  generalize p (s.opened src) = o at h
  cases h with
  | @found a us s' takes tokens =>
    obtain ⟨vs, hvs, hspans⟩ := takes.widened
    obtain ⟨u, us, rfl⟩ := List.exists_cons_of_ne_nil (hL _ _ tokens)
    have hhere : s.here src = u.span := by
      have hrest : s.rest = u :: (us ++ s'.rest) := takes.rest
      simp [Cursor.here, hrest]
    rw [Cursor.opened, Cursor.widenBy_cons, hhere] at hspans
    change s'.spans = cover (u :: vs) :: s.spans at hspans
    have hclose : closeSpan s' = .found (cover (u :: vs))
        { s' with spans := Cursor.widen (cover (u :: vs)).hi s.spans } := by
      rw [closeSpan, hspans]
    rw [Outcome.andThen, bind_run hclose]
    refine .found ⟨takes.rest, ⟨u :: vs, ?_, widen_cover u vs s.spans⟩, takes.errors⟩ tokens
    exact List.cons_subset.mpr ⟨List.mem_cons_self, hvs⟩
  | @abandoned us s' inner outer takes spans =>
    obtain ⟨vs, -, rfl⟩ := takes.widened
    rw [Cursor.opened, Cursor.widenBy_cons] at spans
    have htakes : s.Takes src s' us s.spans :=
      ⟨takes.rest, ⟨[], List.nil_subset _, rfl⟩, takes.errors⟩
    exact .abandoned htakes (spans.trans (List.append_cons ..))
  | faulted mem misspelled => exact .faulted mem misspelled

theorem Keeps.whileAt {go : Cursor → Bool} (progress : Advances go p)
    (hp : ∀ s : Cursor, go s = true → Keeps src AnyTokens p s.rest) :
    Keeps src AnyTokens (whileAt go p progress) ts := by
  intro s hs
  clear hs
  induction s using whileAt_induction progress with
  | stop s h =>
    rw [whileAt_stop progress h]
    exact .found (s.takes_refl src) trivial
  | round s h ih =>
    have hround := hp s h s rfl
    rw [whileAt_go progress h]
    generalize ho : p s = o at hround
    cases hround with
    | found takes => exact .after takes ((ih _ _ ho).map)
    | abandoned takes spans => exact .abandoned takes spans
    | faulted mem misspelled => exact .faulted mem misspelled

/-- A choice by the next token. -/
theorem Keeps.ite {q : Production α} (hp : Starts kinds ts → Keeps src L p ts)
    (hq : ¬ Starts kinds ts → Keeps src L q ts) :
    Keeps src L (fun s => if s.at? kinds then p s else q s) ts := by
  intro s hs
  dsimp only
  split
  · next h => exact hp (hs ▸ Cursor.at?_iff.mp h) s hs
  · next h => exact hq (hs ▸ mt Cursor.at?_iff.mpr h) s hs

/-! ## Going on after an error -/

/-- When a production gives up, the spans that it opened are those on top. -/
theorem Cursor.Takes.drop_inner {inner : List Span} (h : s.Takes src s₁ us outer)
    (hspans : s₁.spans = inner ++ outer) :
    s₁.spans.drop (s₁.spans.length - s.spans.length) = outer := by
  have hlength : outer.length = s.spans.length := by
    obtain ⟨vs, -, rfl⟩ := h.widened
    exact Cursor.length_widenBy ..
  rw [hspans, List.length_append, ← hlength, Nat.add_sub_cancel, List.drop_left]

/-- Spans that a production opened are dropped when it gives up. -/
theorem Keeps.orResync (b : Bool) (hp : Keeps src L p ts) :
    Keeps src AnyTokens (orResync b p) ts := by
  intro s hs
  have h := hp s hs
  unfold ScripCheck.orResync
  generalize p s = o at h
  cases h with
  | found takes tokens => exact .found takes trivial
  | @abandoned us s' inner outer takes spans =>
    obtain ⟨vs, ws, hws, hrun⟩ := resync_past b 0 { s' with spans := outer }
    have hdropped : s.Takes src { s' with spans := outer } us outer :=
      ⟨takes.rest, takes.widened, takes.errors⟩
    dsimp only
    rw [takes.drop_inner spans, hrun]
    exact .found (hdropped.trans (Cursor.takes_past src hws)) trivial
  | faulted mem misspelled => exact .faulted mem misspelled

theorem keeps_unexpected (starts : List Kind) (b : Bool) (hts : ts ≠ []) :
    Keeps src AnyTokens (unexpected src starts b) ts := by
  intro s hs
  obtain ⟨last, depth, us, vs, hskips⟩ := skipRun_past b 0 (s := s.opened src) (hs ▸ hts)
  have hrest : s.rest = us ++ vs := hskips.rest
  let e : SyntaxError := ⟨.expected starts (.text (String.ofList ((cover us).slice src))), cover us⟩
  have he : e.Arises src s.rest := hrest ▸ .skipped starts [] vs hskips.nonempty
  have hreport : s.Takes src ((s.past us vs).record e) us (s.past us vs).spans :=
    (Cursor.takes_record he).trans (Cursor.takes_past (s := s.record e) src hrest)
  rw [unexpected_run src starts hskips, report]
  split
  · exact .found hreport trivial
  · obtain ⟨us', vs', hvs, hresync⟩ := resync_past b depth ((s.past us vs).record e)
    rw [hresync]
    exact .found (hreport.trans (Cursor.takes_past src hvs)) trivial

end Rules

/-! ## Productions -/

section Productions

variable {src : List Char} {ts : List Token} {b : Bool} {kinds : List Kind}

theorem keeps_dottedWord (h : Starts [.dot] ts) : Keeps src SomeTokens (dottedWord src) ts :=
  (keeps_advance h).bind_some (fun _ _ h => h) fun _ _ _ _ => keeps_expect.any

/-- What is read inside the span of a name. -/
def words (src : List Char) : Production (Token × List Token) := do
  let first ← expect src [.ident]
  let more ← Production.whileAt (·.at? [.dot]) (dottedWord src) (advances_dottedWord src)
  return (first, more)

theorem keeps_words : Keeps src SomeTokens (words src) ts :=
  keeps_expect.bind_some (fun _ _ h => h) fun _ _ _ _ =>
    (Keeps.whileAt _ fun _ hs => (keeps_dottedWord (Cursor.at?_iff.mp hs)).any).bind
      fun _ _ _ _ => keeps_pure _ trivial

theorem keeps_name : Keeps src SomeTokens (name src) ts :=
  (keeps_words.spanned fun _ _ h => h).bind_some (fun _ _ h => h) fun _ _ _ _ =>
    keeps_pure _ trivial

theorem keeps_typeName : Keeps src SomeTokens (typeName src) ts :=
  (keeps_expect.spanned fun _ _ h => h).bind_some (fun _ _ h => h) fun _ _ _ _ =>
    keeps_pure _ trivial

/-- The token of a literal has a value, or it is reported after it was taken, or it is a misspelled
boolean. -/
theorem literal_cases {s : Cursor} {t : Token} (hs : s.rest = t :: ts) (hk : t.kind ∈ literalKinds) :
    (∃ v, literal src s = .found ⟨v, t.span⟩ (s.past [t] ts)) ∨
      ((∀ v, ¬ Denotes t v) ∧
        literal src s = .abandoned ((s.past [t] ts).record ⟨.numeral, t.span⟩)) ∨
      (t.Misspelled ∧ literal src s = .faulted (.boolean t.text)) := by
  have hrun : literal src s = ((literalValue t) (s.past [t] ts)).andThen fun v =>
      pure ⟨v, t.span⟩ := bind_run (expect_run src hs hk)
  by_cases hmisspelled : t.Misspelled
  · have hfault : literalValue t (s.past [t] ts) = .faulted (.boolean t.text) := by
      simp [literalValue, boolean, hmisspelled.kind, hmisspelled.text]
    exact .inr (.inr ⟨hmisspelled, by rw [hrun, hfault]; rfl⟩)
  · have hspelled (hk : t.kind = .boolLit) : t.text = "True" ∨ t.text = "False" :=
      Classical.byContradiction fun htext => hmisspelled ⟨hk, not_or.mp htext⟩
    rcases literalValue_cases (s.past [t] ts) hk hspelled with ⟨v, -, hv⟩ | ⟨hno, hv⟩
    · exact .inl ⟨v, by rw [hrun, hv]; rfl⟩
    · exact .inr (.inl ⟨hno, by rw [hrun, hv]; rfl⟩)

theorem literal_missing {s : Cursor} (h : ¬ Starts literalKinds s.rest) :
    literal src s = .abandoned (s.record (s.missing src literalKinds)) := by
  rw [literal, bind_apply, expect_missing src h]; rfl

theorem keeps_literal : Keeps src SomeTokens (literal src) ts := by
  intro s hs
  by_cases h : Starts literalKinds ts
  · obtain ⟨t, ts, rfl, h⟩ := h.exists_cons
    have hmem : t ∈ s.rest := hs ▸ List.mem_cons_self
    have htaken : s.Takes src (s.past [t] ts) [t] (s.past [t] ts).spans := Cursor.takes_past src hs
    rcases literal_cases hs h with ⟨v, hv⟩ | ⟨hno, hv⟩ | ⟨hmisspelled, hv⟩
    · rw [hv]
      exact .found htaken (List.cons_ne_nil t [])
    · rw [hv]
      have he : SyntaxError.Arises src s.rest ⟨.numeral, t.span⟩ := .numeral hmem h hno
      exact .stopped ((Cursor.takes_record he).trans (Cursor.takes_past (s := s.record _) src hs))
    · rw [hv]
      exact .faulted hmem hmisspelled
  · rw [literal_missing (hs ▸ h)]
    exact .stopped (Cursor.takes_record (arises_missing _ s))

/-- What is read inside the span of a variable. -/
def varParts (src : List Char) : Production (Name × Name × Literal) := do
  let type ← typeName src
  let name ← name src
  let _ ← expect src [.equals]
  let value ← literal src
  require src [.newline]
  return (type, name, value)

/-- A variable is followed by a line break. -/
theorem keeps_varParts : Keeps src LineTokens (varParts src) ts := by
  refine keeps_typeName.bind fun us _ _ hus => keeps_name.any.bind fun vs _ _ _ =>
    keeps_expect.any.bind fun _ _ _ _ => keeps_literal.any.bind fun _ _ _ _ =>
      keeps_require.bind fun ws _ ts h => keeps_pure _ ?_
  exact ⟨List.append_ne_nil_of_left_ne_nil hus _, h.2⟩

theorem keeps_varDef : Keeps src LineTokens (varDef src) ts :=
  (keeps_varParts.spanned fun _ _ h => h.1).bind fun us _ ts h => keeps_pure _ (by simpa using h)

theorem keeps_varItem : Keeps src LineTokens (varItem src) ts :=
  keeps_varDef.bind fun us _ ts h => keeps_pure _ (by simpa using h)

/-- What is read inside the span of a global variable. -/
def globalParts (src : List Char) : Production VarDef := do
  let _ ← advance
  varDef src

theorem keeps_globalParts (h : Starts kinds ts) : Keeps src LineTokens (globalParts src) ts :=
  (keeps_advance h).bind fun _ _ _ hus => keeps_varDef.mono fun vs _ h =>
    ⟨List.append_ne_nil_of_left_ne_nil hus vs, h.2⟩

theorem keeps_globalItem (h : Starts kinds ts) : Keeps src LineTokens (globalItem src) ts :=
  ((keeps_globalParts h).spanned fun _ _ h => h.1).bind fun us _ ts h =>
    keeps_pure _ (by simpa using h)

theorem Keeps.terminated {α : Type} {p : Production α} (hp : Keeps src LineTokens p ts) :
    Keeps src SomeTokens (terminated p) ts :=
  hp.bind_some (fun _ _ h => h.1) fun _ _ _ h => (keeps_advance h.2).any.bind fun _ _ _ _ =>
    keeps_pure _ trivial

theorem keeps_item? {other : Production (Option Item)} (h : Keeps src AnyTokens other ts) :
    Keeps src AnyTokens (item? src b other) ts :=
  .ite (fun _ => keeps_varItem.terminated.orResync b) fun _ =>
    .ite (fun hk => (keeps_globalItem hk).terminated.orResync b) fun _ => h

theorem keeps_reported {α : Type} (starts : List Kind) (hts : ts ≠ []) :
    Keeps src AnyTokens (reported src starts b : Production (Option α)) ts :=
  (keeps_unexpected starts b hts).bind fun _ _ _ _ => keeps_pure _ trivial

theorem Keeps.orEmptyLine {α : Type} {p : Production (Option α)} (hp : Keeps src AnyTokens p ts) :
    Keeps src AnyTokens (orEmptyLine p) ts :=
  .ite (fun h => (keeps_advance h).any.bind fun _ _ _ _ => keeps_pure _ trivial) fun _ => hp

theorem keeps_statement (hts : ts ≠ []) : Keeps src AnyTokens (statement src) ts :=
  keeps_item? (keeps_reported _ hts)

theorem keeps_parts : Keeps src AnyTokens (parts src) ts :=
  .whileAt _ fun _ hs => (keeps_statement (inBlock_iff.mp hs).1).orEmptyLine

/-- What is read inside the span of a body. -/
def braced (src : List Char) : Production (List Item) := do
  let _ ← expect src [.lbrace]
  let items ← parts src
  let _ ← expect src [.rbrace]
  return items.filterMap id

theorem keeps_braced : Keeps src SomeTokens (braced src) ts :=
  keeps_expect.bind_some (fun _ _ h => h) fun _ _ _ _ => keeps_parts.bind fun _ _ _ _ =>
    keeps_expect.any.bind fun _ _ _ _ => keeps_pure _ trivial

theorem keeps_block : Keeps src SomeTokens (block src) ts :=
  (keeps_braced.spanned fun _ _ h => h).bind_some (fun _ _ h => h) fun _ _ _ _ =>
    keeps_pure _ trivial

theorem keeps_nextParam (h : Starts [.comma] ts) : Keeps src SomeTokens (nextParam src) ts :=
  (keeps_advance h).bind_some (fun _ _ h => h) fun _ _ _ _ => keeps_name.any

theorem keeps_params : Keeps src AnyTokens (params src) ts := by
  refine .ite (fun _ => keeps_name.any.bind fun _ _ _ _ => ?_) fun _ => keeps_pure _ trivial
  exact (Keeps.whileAt _ fun s hs => (keeps_nextParam (Cursor.at?_iff.mp hs)).any).bind
    fun _ _ _ _ => keeps_pure _ trivial

/-- What is read inside the span of a function. -/
def funcParts (src : List Char) : Production (Name × List Name × Block) := do
  let _ ← advance
  let name ← name src
  let _ ← expect src [.lparen]
  let params ← params src
  let _ ← expect src [.rparen]
  let body ← block src
  return (name, params, body)

theorem keeps_funcParts (h : Starts kinds ts) : Keeps src SomeTokens (funcParts src) ts := by
  refine (keeps_advance h).bind_some (fun _ _ h => h) fun _ _ _ _ => ?_
  exact keeps_name.any.bind fun _ _ _ _ => keeps_expect.any.bind fun _ _ _ _ =>
    keeps_params.bind fun _ _ _ _ => keeps_expect.any.bind fun _ _ _ _ =>
      keeps_block.any.bind fun _ _ _ _ => keeps_pure _ trivial

theorem keeps_funcDef (h : Starts kinds ts) : Keeps src SomeTokens (funcDef src) ts :=
  ((keeps_funcParts h).spanned fun _ _ h => h).bind_some (fun _ _ h => h) fun _ _ _ _ =>
    keeps_pure _ trivial

theorem keeps_declaration (hts : ts ≠ []) : Keeps src AnyTokens (declaration src) ts := by
  refine .ite (fun h => ?_) fun _ => ?_
  · exact Keeps.orResync (L := SomeTokens) false
      ((keeps_funcDef h).bind_some (fun _ _ h => h) fun _ _ _ _ => keeps_pure _ trivial)
  · exact (keeps_item? (keeps_reported _ hts)).bind fun _ _ _ _ => keeps_pure _ trivial

theorem keeps_decls : Keeps src AnyTokens (decls src) ts :=
  .whileAt _ fun s hs => (keeps_declaration (by simpa [inProgram] using hs)).orEmptyLine

/-- Reading a list of tokens ends with declarations and errors, each of which arises among the
tokens; or it faults on a boolean literal that is neither of the two words. -/
theorem declarations_keeps (src : List Char) (ts : List Token) :
    (∃ ds s, declarations src ⟨ts, [], []⟩ = .found ds s ∧ ∀ e ∈ s.errors, e.Arises src ts) ∨
      ∃ t ∈ ts, t.Misspelled ∧ declarations src ⟨ts, [], []⟩ = .faulted (.boolean t.text) := by
  have h : KeptOutcome src AnyTokens ⟨ts, [], []⟩ (decls src ⟨ts, [], []⟩) := keeps_decls _ rfl
  have hdeclarations : declarations src ⟨ts, [], []⟩ =
      (decls src ⟨ts, [], []⟩).andThen fun ds => pure (ds.filterMap id) := rfl
  rw [hdeclarations]
  generalize ho : decls src ⟨ts, [], []⟩ = o at h
  cases h with
  | found takes =>
    obtain ⟨es, herrors, harises⟩ := takes.errors
    refine .inl ⟨_, _, rfl, fun e he => harises e ?_⟩
    simpa [herrors] using he
  | abandoned => exact absurd ho (Settles.whileAt _ (settles_orEmptyLine settles_declaration) _ _)
  | @faulted t mem misspelled => exact .inr ⟨t, mem, misspelled, rfl⟩

end Productions

end ScripCheck
