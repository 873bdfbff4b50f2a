import ScripCheck.Proofs.Tree.Alike
import ScripCheck.Proofs.Tree.Diagnosis

/-!
# Two runs on like tokens

Two lists of tokens of two texts are read in step, if their tokens correspond one to one: what is
read is alike, and so are the errors.

* `Likeness`: how the spans, literal values, tokens and errors of two texts correspond.
* `Likeness.Cursors`, `Likeness.Outcomes`: corresponding cursors and ends. How the spans of the
  nodes around correspond is left open (`K`): a production never looks at them, it only widens them.
* `Likeness.Like`, `Likeness.LikeInline`: two productions that keep in step, the second ones where
  no line break is next.
* `Likeness.name`, ..., `Likeness.decls`: one lemma for each production.
-/

namespace ScripCheck

open Production

/-- What the token is, as messages show it. -/
def Token.found (t : Token) : Found := if t.kind = .newline then .lineBreak else .text t.text

/-- What holds of the spans of corresponding tokens and is kept by `reach` holds of their covers. -/
theorem forall₂_cover {S : Span → Span → Prop} {T : Token → Token → Prop} {ts us : List Token}
    (place : ∀ t u, T t u → S t.span u.span)
    (reach : ∀ a b c d, S a b → S c d → S (a.reach c.hi) (b.reach d.hi))
    (h : List.Forall₂ T ts us) (hts : ts ≠ []) : S (cover ts) (cover us) := by
  cases h with
  | nil => exact absurd rfl hts
  | @cons t u ts us htu hrest =>
    have hfold (a b : Span) (hab : S a b) : S (ts.foldl (fun span t => span.reach t.span.hi) a)
        (us.foldl (fun span u => span.reach u.span.hi) b) := by
      induction hrest generalizing a b with
      | nil => exact hab
      | cons htu _ ih => exact ih (List.cons_ne_nil _ _) _ _ (reach _ _ _ _ hab (place _ _ htu))
    exact hfold _ _ (place _ _ htu)

/-- How two texts correspond. -/
structure Likeness (src src' : List Char) where
  span : Span → Span → Prop
  value : Value → Value → Prop
  token : Token → Token → Prop
  /-- All errors so far. -/
  errors : List SyntaxError → List SyntaxError → Prop
  kind {t u : Token} : token t u → u.kind = t.kind
  place {t u : Token} : token t u → span t.span u.span
  /-- The text of a string literal may differ. -/
  text {t u : Token} : token t u → t.kind ∈ [.ident, .intLit, .floatLit, .boolLit] →
    u.text = t.text
  same {v : Value} : (∀ s, v ≠ .str s) → value v v
  unquoted {t u : Token} : token t u → t.kind = .strLit →
    value (.str (unquote t.text)) (.str (unquote u.text))
  reach {a b c d : Span} : span a b → span c d → span (a.reach c.hi) (b.reach d.hi)
  atEnd : span (.atEnd src) (.atEnd src')
  missing {es es' : List SyntaxError} {t u : Token} {kinds : List Kind} : errors es es' →
    token t u → errors (es ++ [⟨.expected kinds t.found, t.span⟩])
      (es' ++ [⟨.expected kinds u.found, u.span⟩])
  missingEnd {es es' : List SyntaxError} {kinds : List Kind} : errors es es' →
    errors (es ++ [⟨.expected kinds .endOfInput, .atEnd src⟩])
      (es' ++ [⟨.expected kinds .endOfInput, .atEnd src'⟩])
  numeral {es es' : List SyntaxError} {t u : Token} : errors es es' → token t u →
    t.kind ≠ .newline → errors (es ++ [⟨.numeral, t.span⟩]) (es' ++ [⟨.numeral, u.span⟩])
  /-- A run of tokens that is skipped has no line breaks. -/
  skipped {es es' : List SyntaxError} {ts us : List Token} (kinds : List Kind) : errors es es' →
    List.Forall₂ token ts us → ts ≠ [] → (∀ t ∈ ts, t.kind ≠ .newline) →
    errors (es ++ [⟨.expected kinds (.text (String.ofList ((cover ts).slice src))), cover ts⟩])
      (es' ++ [⟨.expected kinds (.text (String.ofList ((cover us).slice src'))), cover us⟩])

namespace Likeness

variable {src src' : List Char} (A : Likeness src src')

/-- The relation of open spans outlives the widening of the innermost of them. -/
def Widens (K : List Span → List Span → Prop) : Prop :=
  ∀ as bs x y, A.span x y → K as bs → K (Cursor.widen x.hi as) (Cursor.widen y.hi bs)

/-- Two cursors at corresponding places. -/
structure Cursors (K : List Span → List Span → Prop) (s s' : Cursor) : Prop where
  rest : List.Forall₂ A.token s.rest s'.rest
  spans : K s.spans s'.spans
  errors : A.errors s.errors s'.errors

/-- Two productions end alike. Where they give up, equally many nodes are left open. -/
inductive Outcomes {α : Type} (K : List Span → List Span → Prop) (V : α → α → Prop) :
    Outcome α → Outcome α → Prop where
  | found {a b : α} {s s' : Cursor} (value : V a b) (cursors : A.Cursors K s s') :
    Outcomes K V (.found a s) (.found b s')
  | abandoned {s s' : Cursor} {inner inner' outer outer' : List Span}
    (rest : List.Forall₂ A.token s.rest s'.rest) (errors : A.errors s.errors s'.errors)
    (spans : s.spans = inner ++ outer) (spans' : s'.spans = inner' ++ outer')
    (length : inner'.length = inner.length) (outside : K outer outer') :
    Outcomes K V (.abandoned s) (.abandoned s')
  | faulted (f : Fault) : Outcomes K V (.faulted f) (.faulted f)

/-- From corresponding cursors on, the two productions end alike. -/
def Like {α : Type} (V : α → α → Prop) (p p' : Production α) : Prop :=
  ∀ K, A.Widens K → ∀ s s', A.Cursors K s s' → A.Outcomes K V (p s) (p' s')

/-- From corresponding cursors on, but at no line break, the two productions end alike. -/
def LikeInline {α : Type} (V : α → α → Prop) (p p' : Production α) : Prop :=
  ∀ K, A.Widens K → ∀ s s', A.Cursors K s s' → ¬ Starts [.newline] s.rest →
    A.Outcomes K V (p s) (p' s')

section Rules

variable {A} {α β : Type} {V V' : α → α → Prop} {W : β → β → Prop} {p p' : Production α}
  {f f' : α → Production β} {K : List Span → List Span → Prop} {s s' : Cursor} {kinds : List Kind}

/-- Either nothing is left in both texts, or there are corresponding next tokens. -/
theorem Cursors.next (h : A.Cursors K s s') : s.rest = [] ∧ s'.rest = [] ∨
    ∃ t ts u us, s.rest = t :: ts ∧ s'.rest = u :: us ∧ A.token t u ∧
      List.Forall₂ A.token ts us := by
  have hrest := h.rest
  generalize s.rest = ts, s'.rest = us at hrest
  cases hrest with
  | nil => exact .inl ⟨rfl, rfl⟩
  | cons htu hts => exact .inr ⟨_, _, _, _, rfl, rfl, htu, hts⟩

theorem Cursors.nil (h : A.Cursors K s s') (hs : s.rest = []) : s'.rest = [] := by
  have hrest := h.rest
  rw [hs] at hrest
  exact List.forall₂_nil_left_iff.mp hrest

theorem Cursors.cons (h : A.Cursors K s s') {t : Token} {ts : List Token} (hs : s.rest = t :: ts) :
    ∃ u us, s'.rest = u :: us ∧ A.token t u ∧ List.Forall₂ A.token ts us := by
  have hrest := h.rest
  rw [hs] at hrest
  obtain ⟨u, us, htu, hts, hs'⟩ := List.forall₂_cons_left_iff.mp hrest
  exact ⟨u, us, hs', htu, hts⟩

theorem Cursors.isEmpty (h : A.Cursors K s s') : s'.rest.isEmpty = s.rest.isEmpty := by
  rcases h.next with ⟨hs, hs'⟩ | ⟨t, ts, u, us, hs, hs', -⟩
  · rw [hs, hs']
  · rw [hs, hs']
    rfl

theorem Cursors.at? (h : A.Cursors K s s') (kinds : List Kind) : s'.at? kinds = s.at? kinds := by
  unfold Cursor.at?
  rcases h.next with ⟨hs, hs'⟩ | ⟨t, ts, u, us, hs, hs', htu, -⟩
  · rw [hs, hs']
  · rw [hs, hs']
    simp only [A.kind htu]

theorem Cursors.here (h : A.Cursors K s s') : A.span (s.here src) (s'.here src') := by
  unfold Cursor.here
  rcases h.next with ⟨hs, hs'⟩ | ⟨t, ts, u, us, hs, hs', htu, -⟩
  · rw [hs, hs']
    exact A.atEnd
  · rw [hs, hs']
    exact A.place htu

theorem Cursors.pass (hK : A.Widens K) (h : A.Cursors K s s') {t u : Token} {ts us : List Token}
    (htu : A.token t u) (hts : List.Forall₂ A.token ts us) :
    A.Cursors K (s.pass t ts) (s'.pass u us) :=
  ⟨hts, hK _ _ _ _ (A.place htu) h.spans, h.errors⟩

theorem Outcomes.mono {o o' : Outcome α} (h : A.Outcomes K V o o')
    (hV : ∀ a b, V a b → V' a b) : A.Outcomes K V' o o' := by
  cases h with
  | found value cursors => exact .found (hV _ _ value) cursors
  | abandoned rest errors spans spans' length outside =>
    exact .abandoned rest errors spans spans' length outside
  | faulted f => exact .faulted f

theorem Outcomes.map {g g' : α → β} {o o' : Outcome α} (h : A.Outcomes K V o o')
    (hV : ∀ a b, V a b → W (g a) (g' b)) : A.Outcomes K W (o.map g) (o'.map g') := by
  cases h with
  | found value cursors => exact .found (hV _ _ value) cursors
  | abandoned rest errors spans spans' length outside =>
    exact .abandoned rest errors spans spans' length outside
  | faulted f => exact .faulted f

theorem Outcomes.andThen {o o' : Outcome α} (h : A.Outcomes K V o o')
    (hf : ∀ a b s s', V a b → A.Cursors K s s' → A.Outcomes K W (f a s) (f' b s')) :
    A.Outcomes K W (o.andThen f) (o'.andThen f') := by
  cases h with
  | found value cursors => exact hf _ _ _ _ value cursors
  | abandoned rest errors spans spans' length outside =>
    exact .abandoned rest errors spans spans' length outside
  | faulted f => exact .faulted f

theorem Like.pure {a b : α} (h : V a b) : A.Like V (pure a) (pure b) := fun _ _ _ _ hs => .found h hs

theorem Like.bind (hp : A.Like V p p') (hf : ∀ a b, V a b → A.Like W (f a) (f' b)) :
    A.Like W (p >>= f) (p' >>= f') := fun K hK s s' hs =>
  (hp K hK s s' hs).andThen fun a b s₁ s₁' hab hs₁ => hf a b hab K hK s₁ s₁' hs₁

theorem LikeInline.bind (hp : A.LikeInline V p p') (hf : ∀ a b, V a b → A.Like W (f a) (f' b)) :
    A.LikeInline W (p >>= f) (p' >>= f') := fun K hK s s' hs hline =>
  (hp K hK s s' hs hline).andThen fun a b s₁ s₁' hab hs₁ => hf a b hab K hK s₁ s₁' hs₁

theorem Like.mono (hp : A.Like V p p') (hV : ∀ a b, V a b → V' a b) : A.Like V' p p' :=
  fun K hK s s' hs => (hp K hK s s' hs).mono hV

theorem Outcomes.of_abandoned (hs : A.Cursors K s s') {e e' : SyntaxError}
    (he : A.errors (s.errors ++ [e]) (s'.errors ++ [e'])) :
    A.Outcomes K V (.abandoned (s.record e)) (.abandoned (s'.record e')) := by
  have hnil (as : List Span) : as = [] ++ as := rfl
  exact .abandoned hs.rest he (hnil _) (hnil _) rfl hs.spans

theorem Cursors.missing (hs : A.Cursors K s s') (kinds : List Kind) :
    A.errors (s.errors ++ [s.missing src kinds]) (s'.errors ++ [s'.missing src' kinds]) := by
  unfold Cursor.missing Cursor.found Cursor.here
  rcases hs.next with ⟨hs₁, hs₁'⟩ | ⟨t, ts, u, us, hs₁, hs₁', htu, -⟩
  · rw [hs₁, hs₁']
    exact A.missingEnd hs.errors
  · rw [hs₁, hs₁']
    exact A.missing hs.errors htu

theorem advance : A.Like A.token advance advance := by
  intro K hK s s' hs
  unfold ScripCheck.advance
  rcases hs.next with ⟨hs₁, hs₁'⟩ | ⟨t, ts, u, us, hs₁, hs₁', htu, hts⟩
  · rw [hs₁, hs₁']
    exact .faulted _
  · rw [hs₁, hs₁']
    exact .found htu (hs.pass hK htu hts)

theorem require (kinds : List Kind) :
    A.Like (fun _ _ => True) (require src kinds) (require src' kinds) := by
  intro K hK s s' hs
  have hat := hs.at? kinds
  by_cases h : s.at? kinds = true
  · rw [require_run src (Cursor.at?_iff.mp h), require_run src' (Cursor.at?_iff.mp (hat.trans h))]
    exact .found trivial hs
  · rw [require_missing src (mt Cursor.at?_iff.mpr h),
      require_missing src' (mt Cursor.at?_iff.mpr (hat ▸ h))]
    exact .of_abandoned hs (hs.missing kinds)

theorem expect (kinds : List Kind) :
    A.Like (fun t u => A.token t u ∧ t.kind ∈ kinds) (expect src kinds) (expect src' kinds) := by
  intro K hK s s' hs
  have hat := hs.at? kinds
  by_cases h : s.at? kinds = true
  · rw [Cursor.at?_iff] at h
    rcases hs.next with ⟨hs₁, hs₁'⟩ | ⟨t, ts, u, us, hs₁, hs₁', htu, hts⟩
    · rw [hs₁] at h
      exact h.elim
    · rw [hs₁] at h
      rw [expect_run src hs₁ h, expect_run src' hs₁' (A.kind htu ▸ h)]
      exact .found ⟨htu, h⟩ (hs.pass hK htu hts)
  · rw [expect_missing src (mt Cursor.at?_iff.mpr h),
      expect_missing src' (mt Cursor.at?_iff.mpr (hat ▸ h))]
    exact .of_abandoned hs (hs.missing kinds)

/-- The spans of a node in the two texts correspond. -/
theorem Like.spanned (hp : A.Like V p p') :
    A.Like (fun x y => V x.1 y.1 ∧ A.span x.2 y.2) (spanned src p) (spanned src' p') := by
  intro K hK s s' hs
  -- the open node is one more span on both sides, which correspond
  let K₁ (as bs : List Span) : Prop :=
    ∃ x y as' bs', as = x :: as' ∧ bs = y :: bs' ∧ A.span x y ∧ K as' bs'
  have hK₁ : A.Widens K₁ := by
    rintro _ _ x y hxy ⟨a, b, as, bs, rfl, rfl, hab, hK'⟩
    exact ⟨_, _, _, _, rfl, rfl, A.reach hab hxy, hK'⟩
  have hopened : A.Cursors K₁ (s.opened src) (s'.opened src') :=
    ⟨hs.rest, ⟨_, _, _, _, rfl, rfl, hs.here, hs.spans⟩, hs.errors⟩
  have h := hp K₁ hK₁ _ _ hopened
  show A.Outcomes K _ ((p (s.opened src)).andThen _) ((p' (s'.opened src')).andThen _)
  generalize p (s.opened src) = o, p' (s'.opened src') = o' at h
  cases h with
  | @found a b s₁ s₁' value cursors =>
    obtain ⟨x, y, as, bs, hx, hy, hxy, hasbs⟩ := cursors.spans
    simp only [Outcome.andThen, bind_apply, closeSpan, hx, hy, pure_apply]
    exact .found ⟨value, hxy⟩ ⟨cursors.rest, hK _ _ _ _ hxy hasbs, cursors.errors⟩
  | abandoned rest errors spans spans' length outside =>
    obtain ⟨x, y, as, bs, rfl, rfl, -, hasbs⟩ := outside
    exact .abandoned rest errors (spans.trans (List.append_cons ..))
      (spans'.trans (List.append_cons ..)) (by simp [length]) hasbs
  | faulted f => exact .faulted f

theorem Like.whileAt {go go' : Cursor → Bool} {progress : Advances go p}
    {progress' : Advances go' p'}
    (hgo : ∀ K s s', A.Cursors K s s' → go' s' = go s) (hp : A.Like V p p') :
    A.Like (List.Forall₂ V) (whileAt go p progress) (whileAt go' p' progress') := by
  intro K hK s s' hs
  induction s using whileAt_induction progress generalizing s' with
  | stop s h =>
    rw [whileAt_stop progress h, whileAt_stop progress' ((hgo K s s' hs).trans h)]
    exact .found .nil hs
  | round s h ih =>
    have hround := hp K hK s s' hs
    rw [whileAt_go progress h, whileAt_go progress' ((hgo K s s' hs).trans h)]
    generalize ho : p s = o, p' s' = o' at hround
    cases hround with
    | found value cursors => exact (ih _ _ ho _ cursors).map fun _ _ htail => .cons value htail
    | abandoned rest errors spans spans' length outside =>
      exact .abandoned rest errors spans spans' length outside
    | faulted f => exact .faulted f

theorem Forall₂.starts {ts us : List Token} (h : List.Forall₂ A.token ts us) (kinds : List Kind) :
    Starts kinds us ↔ Starts kinds ts := by
  cases h with
  | nil => exact Iff.rfl
  | cons htu => rw [starts_cons, starts_cons, A.kind htu]

/-! ## Going on after an error -/

theorem resync {b : Bool} {depth : Int} (hK : A.Widens K) (hs : A.Cursors K s s') :
    A.Cursors K (resync b depth s) (resync b depth s') := by
  induction s using Cursor.pass_induction generalizing s' depth with
  | nil s hnil => rwa [resync_nil hnil, resync_nil (hs.nil hnil)]
  | cons s t ts hcons ih =>
    obtain ⟨u, us, hcons', htu, hts⟩ := hs.cons hcons
    have hpass := hs.pass hK htu hts
    rw [resync_cons hcons, resync_cons hcons', A.kind htu]
    split
    · exact hpass
    · split
      · exact hs
      · split
        · exact hpass
        · exact ih hpass

theorem Cursors.past (hK : A.Widens K) (hs : A.Cursors K s s') {us vs ts ws : List Token}
    (h : List.Forall₂ A.token us vs) (hrest : List.Forall₂ A.token ts ws) :
    A.Cursors K (s.past us ts) (s'.past vs ws) := by
  refine ⟨hrest, ?_, hs.errors⟩
  have hspans := hs.spans
  unfold Cursor.past Cursor.widenBy
  generalize s.spans = as, s'.spans = bs at hspans ⊢
  induction h generalizing as bs with
  | nil => exact hspans
  | cons htu _ ih => exact ih _ _ (hK _ _ _ _ (A.place htu) hspans)

/-- A run that starts at no line break ends before the next one. -/
theorem skipRun (b : Bool) (depth : Int) (h : List.Forall₂ A.token s.rest s'.rest)
    (hne : s.rest ≠ []) (hline : ¬ Starts [.newline] s.rest) : ∃ t u d us vs ts ws,
      Skips b depth s t d us ts ∧ Skips b depth s' u d vs ws ∧ A.token t u ∧
      List.Forall₂ A.token us vs ∧ List.Forall₂ A.token ts ws ∧ ∀ t ∈ us, t.kind ≠ .newline := by
  induction s using Cursor.pass_induction generalizing s' depth with
  | nil s hnil => exact absurd hnil hne
  | cons s t ts hs ih =>
    rw [hs] at h hline
    obtain ⟨u, us, htu, hts, hs'⟩ := List.forall₂_cons_left_iff.mp h
    have ht : t.kind ≠ .newline := fun hk => hline (by simp [hk])
    have hends (d : Int) : EndsRun b d u.kind us ↔ EndsRun b d t.kind ts := by
      have hnil : us = [] ↔ ts = [] := by
        rw [← List.length_eq_zero_iff, ← hts.length_eq, List.length_eq_zero_iff]
      simp only [EndsRun, A.kind htu, hnil, Forall₂.starts hts]
    have hdepth : depthAfter b depth u.kind = depthAfter b depth t.kind := by rw [A.kind htu]
    by_cases hend : EndsRun b (depthAfter b depth t.kind) t.kind ts
    · have hlast := Skips.last hs' ((hends _).mpr (hdepth ▸ hend))
      exact ⟨t, u, _, [t], [u], ts, us, .last hs hend, hdepth ▸ hlast, htu, .cons htu .nil, hts,
        by simpa using ht⟩
    · have hnext : ¬ Starts [.newline] ts := fun h =>
        hend (.inr (.inr (.inl (h.mono (by simp)))))
      have hpass : List.Forall₂ A.token (s.pass t ts).rest (s'.pass u us).rest := hts
      obtain ⟨t', u', d, vs, vs', ws, ws', hskips, hskips', htu', hvs, hws, hinline⟩ :=
        ih (depthAfter b depth t.kind) hpass (fun hnil => hend (.inr (.inl hnil))) hnext
      exact ⟨t', u', d, t :: vs, u :: vs', ws, ws', hskips.cons hs hend,
        .cons hs' (mt (hends _).mp (hdepth ▸ hend)) (hdepth ▸ hskips'), htu', .cons htu hvs, hws,
        List.forall_mem_cons.mpr ⟨ht, hinline⟩⟩

theorem unexpected (starts : List Kind) (b : Bool) : A.LikeInline (fun _ _ => True)
    (unexpected src starts b) (unexpected src' starts b) := by
  intro K hK s s' hs hline
  by_cases hne : s.rest = []
  · rw [unexpected_nil src starts hne, unexpected_nil src' starts (hs.nil hne)]
    exact .faulted _
  · have hopened : List.Forall₂ A.token (s.opened src).rest (s'.opened src').rest := hs.rest
    obtain ⟨t, u, d, us, vs, ts, ws, hskips, hskips', htu, husvs, htsws, hinline⟩ :=
      skipRun b 0 hopened hne hline
    have hpast := hs.past hK husvs htsws
    have herrors := A.skipped starts hs.errors husvs hskips.nonempty hinline
    rw [unexpected_run src starts hskips, unexpected_run src' starts hskips', report, report,
      A.kind htu]
    split
    · exact .found trivial ⟨hpast.rest, hpast.spans, herrors⟩
    · exact .found trivial (resync hK ⟨hpast.rest, hpast.spans, herrors⟩)

theorem reported (starts : List Kind) (b : Bool) :
    A.LikeInline (Option.Rel V) (reported src starts b) (reported src' starts b) :=
  (unexpected starts b).bind fun _ _ _ => .pure .none

theorem Like.orResync (b : Bool) (hp : A.Like V p p') :
    A.Like (Option.Rel V) (orResync b p) (orResync b p') := by
  intro K hK s s' hs
  -- the nodes that were open before are as many as before
  let K₁ (as bs : List Span) : Prop :=
    K as bs ∧ as.length = s.spans.length ∧ bs.length = s'.spans.length
  have hwiden (hi : Int) (as : List Span) : (Cursor.widen hi as).length = as.length := by
    cases as <;> rfl
  have hK₁ : A.Widens K₁ := fun as bs x y hxy h =>
    ⟨hK as bs x y hxy h.1, (hwiden ..).trans h.2.1, (hwiden ..).trans h.2.2⟩
  have h := hp K₁ hK₁ s s' ⟨hs.rest, ⟨hs.spans, rfl, rfl⟩, hs.errors⟩
  unfold ScripCheck.orResync
  generalize p s = o, p' s' = o' at h
  cases h with
  | found value cursors => exact .found (.some value) ⟨cursors.rest, cursors.spans.1, cursors.errors⟩
  | @abandoned s₁ s₁' inner inner' outer outer' rest errors spans spans' length outside =>
    obtain ⟨hK', hlength, hlength'⟩ := outside
    refine .found .none (resync hK ⟨rest, ?_, errors⟩)
    have hdrop : s₁.spans.drop (s₁.spans.length - s.spans.length) = outer := by
      rw [spans, List.length_append, ← hlength, Nat.add_sub_cancel, List.drop_left]
    have hdrop' : s₁'.spans.drop (s₁'.spans.length - s'.spans.length) = outer' := by
      rw [spans', List.length_append, ← hlength', Nat.add_sub_cancel, List.drop_left]
    simpa only [hdrop, hdrop'] using hK'
  | faulted f => exact .faulted f

end Rules

/-! ## Names and literals -/

section Productions

variable {A}

theorem dottedWord : A.Like (fun t u => u.text = t.text) (dottedWord src) (dottedWord src') :=
  advance.bind fun _ _ _ => (expect [.ident]).mono fun _ _ h => A.text h.1 (by simp_all)

theorem name : A.Like (NameAlike A.span) (name src) (name src') := by
  have hinner : A.Like (fun x y => y.1.text = x.1.text ∧
      List.Forall₂ (fun t u : Token => u.text = t.text) x.2 y.2) (do
        let first ← ScripCheck.expect src [.ident]
        let more ← Production.whileAt (·.at? [.dot]) (ScripCheck.dottedWord src)
          (advances_dottedWord src)
        return (first, more)) (do
        let first ← ScripCheck.expect src' [.ident]
        let more ← Production.whileAt (·.at? [.dot]) (ScripCheck.dottedWord src')
          (advances_dottedWord src')
        return (first, more)) := by
    refine (expect [.ident]).bind fun t u htu => ?_
    have htext : u.text = t.text := A.text htu.1 (by simp_all)
    exact (dottedWord.whileAt fun _ _ _ hs => hs.at? _).bind fun ts us hts => .pure ⟨htext, hts⟩
  refine hinner.spanned.bind ?_
  rintro ⟨⟨t, ts⟩, x⟩ ⟨⟨u, us⟩, y⟩ ⟨⟨htu, hts⟩, hxy⟩
  refine .pure ⟨?_, hxy⟩
  simp only [List.map_cons]
  rw [forall₂_map_eq hts fun _ _ h => h, htu]

theorem typeName : A.Like (NameAlike A.span) (typeName src) (typeName src') := by
  refine (expect [.ident]).spanned.bind ?_
  rintro ⟨t, x⟩ ⟨u, y⟩ ⟨htu, hxy⟩
  exact .pure ⟨A.text htu.1 (by simp_all), hxy⟩

theorem numberOr {t u : Token} {v : Option Value} (htu : A.token t u) (ht : t.kind ≠ .newline)
    (hv : ∀ w, v = some w → A.value w w) :
    A.Like A.value (numberOr t.span v) (numberOr u.span v) := by
  intro K hK s s' hs
  cases v with
  | some w => exact .found (hv w rfl) hs
  | none => exact .of_abandoned hs (A.numeral hs.errors htu ht)

theorem literalValue {t u : Token} (htu : A.token t u) (hk : t.kind ∈ literalKinds) :
    A.Like A.value (literalValue t) (literalValue u) := by
  have hkind : t.kind = .intLit ∨ t.kind = .floatLit ∨ t.kind = .boolLit ∨ t.kind = .strLit := by
    simpa [literalKinds] using hk
  have hukind := A.kind htu
  rcases hkind with h | h | h | h
  · have htext : u.text = t.text := A.text htu (by simp [h])
    rw [h] at hukind
    simp only [ScripCheck.literalValue, h, hukind, htext]
    refine numberOr htu (by simp [h]) fun w hw => A.same ?_
    rintro s rfl
    simp at hw
  · have htext : u.text = t.text := A.text htu (by simp [h])
    rw [h] at hukind
    simp only [ScripCheck.literalValue, h, hukind, htext]
    refine numberOr htu (by simp [h]) fun w hw => A.same ?_
    rintro s rfl
    simp at hw
  · have htext : u.text = t.text := A.text htu (by simp [h])
    rw [h] at hukind
    simp only [ScripCheck.literalValue, h, hukind, htext]
    intro K hK s s' hs
    unfold boolean
    split
    · exact .found (A.same (by simp)) hs
    · split
      · exact .found (A.same (by simp)) hs
      · exact .faulted _
  · rw [h] at hukind
    simp only [ScripCheck.literalValue, h, hukind]
    exact .pure (A.unquoted htu h)

theorem literal : A.Like (LiteralAlike A.span A.value) (literal src) (literal src') :=
  (expect literalKinds).bind fun _ _ ⟨htu, hk⟩ =>
    (literalValue htu hk).bind fun _ _ hv => .pure ⟨hv, A.place htu⟩

/-! ## Variables -/

theorem varDef : A.Like (VarAlike A.span A.value) (varDef src) (varDef src') := by
  have hinner : A.Like (fun x y => NameAlike A.span x.1 y.1 ∧ NameAlike A.span x.2.1 y.2.1 ∧
      LiteralAlike A.span A.value x.2.2 y.2.2) (do
        let type ← ScripCheck.typeName src
        let name ← ScripCheck.name src
        let _ ← ScripCheck.expect src [.equals]
        let value ← ScripCheck.literal src
        ScripCheck.require src [.newline]
        return (type, name, value)) (do
        let type ← ScripCheck.typeName src'
        let name ← ScripCheck.name src'
        let _ ← ScripCheck.expect src' [.equals]
        let value ← ScripCheck.literal src'
        ScripCheck.require src' [.newline]
        return (type, name, value)) :=
    typeName.bind fun _ _ ht => name.bind fun _ _ hn => (expect _).bind fun _ _ _ =>
      literal.bind fun _ _ hv => (require _).bind fun _ _ _ => .pure ⟨ht, hn, hv⟩
  refine hinner.spanned.bind ?_
  rintro ⟨⟨t, n, v⟩, x⟩ ⟨⟨t', n', v'⟩, y⟩ ⟨⟨ht, hn, hv⟩, hxy⟩
  exact .pure ⟨ht, hn, hv, hxy⟩

theorem varItem : A.Like (ItemAlike A.span A.value) (varItem src) (varItem src') :=
  varDef.bind fun _ _ h => .pure (.var h)

theorem globalItem : A.Like (ItemAlike A.span A.value) (globalItem src) (globalItem src') := by
  refine (Like.spanned (advance.bind fun _ _ _ => varDef)).bind ?_
  rintro ⟨d, x⟩ ⟨d', y⟩ ⟨hd, hxy⟩
  exact .pure (.global hd hxy)

theorem Like.terminated {α : Type} {V : α → α → Prop} {p p' : Production α} (hp : A.Like V p p') :
    A.Like V (terminated p) (terminated p') :=
  hp.bind fun _ _ h => advance.bind fun _ _ _ => .pure h

theorem item? (b : Bool) {other other' : Production (Option Item)}
    (h : A.LikeInline (Option.Rel (ItemAlike A.span A.value)) other other') :
    A.LikeInline (Option.Rel (ItemAlike A.span A.value)) (item? src b other)
      (item? src' b other') := by
  intro K hK s s' hs hline
  unfold ScripCheck.item?
  rw [hs.at? [.ident], hs.at? [.globalWord]]
  split
  · exact (varItem.terminated.orResync b) K hK s s' hs
  · split
    · exact (globalItem.terminated.orResync b) K hK s s' hs
    · exact h K hK s s' hs hline

theorem LikeInline.orEmptyLine {α : Type} {V : α → α → Prop} {p p' : Production (Option α)}
    (hp : A.LikeInline (Option.Rel V) p p') :
    A.Like (Option.Rel V) (orEmptyLine p) (orEmptyLine p') := by
  intro K hK s s' hs
  unfold ScripCheck.orEmptyLine
  rw [hs.at? [.newline]]
  split
  · exact (advance.bind fun _ _ _ => .pure .none) K hK s s' hs
  · next h => exact hp K hK s s' hs (mt Cursor.at?_iff.mpr h)

/-! ## Functions and programs -/

theorem forall₂_filterMap {α : Type} {V : α → α → Prop} {as bs : List (Option α)}
    (h : List.Forall₂ (Option.Rel V) as bs) :
    List.Forall₂ V (as.filterMap id) (bs.filterMap id) := by
  induction h with
  | nil => exact .nil
  | cons h _ ih =>
    cases h with
    | none => exact ih
    | some h => exact .cons h ih

theorem parts : A.Like (List.Forall₂ (Option.Rel (ItemAlike A.span A.value)))
    (parts src) (parts src') := by
  refine Like.whileAt (fun K s s' hs => ?_) (item? true (reported _ true)).orEmptyLine
  rw [inBlock, inBlock, hs.at?, hs.isEmpty]

theorem block : A.Like (BlockAlike A.span A.value) (block src) (block src') := by
  have hinner : A.Like (List.Forall₂ (ItemAlike A.span A.value)) (do
      let _ ← ScripCheck.expect src [.lbrace]
      let items ← ScripCheck.parts src
      let _ ← ScripCheck.expect src [.rbrace]
      return items.filterMap id) (do
      let _ ← ScripCheck.expect src' [.lbrace]
      let items ← ScripCheck.parts src'
      let _ ← ScripCheck.expect src' [.rbrace]
      return items.filterMap id) :=
    (expect _).bind fun _ _ _ => parts.bind fun _ _ h => (expect _).bind fun _ _ _ =>
      .pure (forall₂_filterMap h)
  refine hinner.spanned.bind ?_
  rintro ⟨is, x⟩ ⟨is', y⟩ ⟨his, hxy⟩
  exact .pure ⟨his, hxy⟩

theorem nextParam : A.Like (NameAlike A.span) (nextParam src) (nextParam src') :=
  advance.bind fun _ _ _ => name

theorem params : A.Like (List.Forall₂ (NameAlike A.span)) (params src) (params src') := by
  intro K hK s s' hs
  unfold ScripCheck.params
  rw [hs.at? [.ident]]
  split
  · refine (name.bind fun n n' hn => Like.bind (nextParam.whileAt fun _ _ _ hs => hs.at? _)
      fun _ _ hns => ?_) K hK s s' hs
    exact .pure (.cons hn hns)
  · exact .found .nil hs

theorem funcDef : A.Like (FuncAlike A.span A.value) (funcDef src) (funcDef src') := by
  have hinner : A.Like (fun x y => NameAlike A.span x.1 y.1 ∧
      List.Forall₂ (NameAlike A.span) x.2.1 y.2.1 ∧ BlockAlike A.span A.value x.2.2 y.2.2) (do
        let _ ← ScripCheck.advance
        let name ← ScripCheck.name src
        let _ ← ScripCheck.expect src [.lparen]
        let params ← ScripCheck.params src
        let _ ← ScripCheck.expect src [.rparen]
        let body ← ScripCheck.block src
        return (name, params, body)) (do
        let _ ← ScripCheck.advance
        let name ← ScripCheck.name src'
        let _ ← ScripCheck.expect src' [.lparen]
        let params ← ScripCheck.params src'
        let _ ← ScripCheck.expect src' [.rparen]
        let body ← ScripCheck.block src'
        return (name, params, body)) :=
    advance.bind fun _ _ _ => name.bind fun _ _ hn => (expect _).bind fun _ _ _ =>
      params.bind fun _ _ hns => (expect _).bind fun _ _ _ => block.bind fun _ _ hb =>
        .pure ⟨hn, hns, hb⟩
  refine hinner.spanned.bind ?_
  rintro ⟨⟨n, ns, b⟩, x⟩ ⟨⟨n', ns', b'⟩, y⟩ ⟨⟨hn, hns, hb⟩, hxy⟩
  exact .pure ⟨hn, hns, hb, hxy⟩

theorem declaration : A.LikeInline (Option.Rel (DeclAlike A.span A.value)) (declaration src)
    (declaration src') := by
  intro K hK s s' hs hline
  unfold ScripCheck.declaration
  rw [hs.at? [.funcWord]]
  split
  · exact (Like.orResync false (funcDef.bind fun _ _ h => .pure (.func h))) K hK s s' hs
  · refine ((item? false (reported _ false)).bind fun i i' hi => .pure ?_) K hK s s' hs hline
    cases hi with
    | none => exact .none
    | some h => exact .some (.item h)

theorem decls : A.Like (List.Forall₂ (Option.Rel (DeclAlike A.span A.value)))
    (decls src) (decls src') := by
  refine Like.whileAt (fun K s s' hs => ?_) declaration.orEmptyLine
  rw [inProgram, inProgram, hs.isEmpty]

end Productions

end Likeness

end ScripCheck
