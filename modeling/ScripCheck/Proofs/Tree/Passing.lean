import ScripCheck.Proofs.Tree.Grammar

/-!
# Taking tokens

What the steps of a production do at a cursor whose next tokens are known.

* `Starts`: the kind of the next token.
* `Cursor.past`: the cursor after some tokens. Only the rest and the innermost open span change.
* `spanned_run`: a node that is read from some tokens gets the span that covers them.
* `whileAt_run`: a repetition takes the phrases of a row.
* `Skips`: what the skipping of tokens takes. They are reported together (`unexpected_run`).
-/

namespace ScripCheck

open Production

/-- The next token has one of the kinds. -/
def Starts (kinds : List Kind) : List Token → Prop
  | [] => False
  | t :: _ => t.kind ∈ kinds

instance (kinds : List Kind) : (ts : List Token) → Decidable (Starts kinds ts)
  | [] => .isFalse id
  | t :: _ => inferInstanceAs (Decidable (t.kind ∈ kinds))

@[simp] theorem starts_cons {kinds : List Kind} {t : Token} {ts : List Token} :
    Starts kinds (t :: ts) ↔ t.kind ∈ kinds := Iff.rfl

theorem Starts.exists_cons {kinds : List Kind} {ts : List Token} (h : Starts kinds ts) :
    ∃ t us, ts = t :: us ∧ t.kind ∈ kinds := by
  cases ts with
  | nil => exact h.elim
  | cons t us => exact ⟨t, us, rfl, h⟩

theorem not_starts_append {kinds others : List Kind} {ts : List Token} (h : ¬ Starts kinds ts)
    (h' : ¬ Starts others ts) : ¬ Starts (kinds ++ others) ts := by
  cases ts with
  | nil => exact h
  | cons t ts => exact fun ht => (List.mem_append.mp ht).elim h h'

theorem Starts.mono {kinds others : List Kind} {ts : List Token} (h : Starts kinds ts)
    (hsub : kinds ⊆ others) : Starts others ts := by
  cases ts with
  | nil => exact h
  | cons t ts => exact hsub h

/-- A token of one of some kinds has none of the others. -/
theorem Starts.disjoint {kinds others : List Kind} {ts : List Token} (h : Starts kinds ts)
    (hdis : ∀ k ∈ kinds, k ∉ others) : ¬ Starts others ts := by
  cases ts with
  | nil => exact h.elim
  | cons t ts => exact hdis _ h

/-! ## The cursor after some tokens -/

namespace Cursor

variable {s : Cursor} {t : Token} {us vs ts : List Token} {kinds : List Kind}

/-- The open spans after some tokens. -/
def widenBy (spans : List Span) (us : List Token) : List Span :=
  us.foldl (fun spans t => widen t.span.hi spans) spans

/-- The cursor after the tokens `us`, which the tokens `ts` follow. -/
def past (s : Cursor) (us ts : List Token) : Cursor :=
  { s with rest := ts, spans := widenBy s.spans us }

@[simp] theorem past_rest : (s.past us ts).rest = ts := rfl

theorem past_nil (h : s.rest = ts) : s.past [] ts = s := by
  subst h; rfl

theorem past_past {kept : List Token} : (s.past us vs).past ts kept = s.past (us ++ ts) kept := by
  simp [past, widenBy, List.foldl_append]

theorem widenBy_nil (us : List Token) : widenBy [] us = [] := by
  induction us with
  | nil => rfl
  | cons t us ih => exact ih

theorem widenBy_cons (top : Span) (outer : List Span) (us : List Token) :
    widenBy (top :: outer) us = us.foldl (fun span t => span.reach t.span.hi) top :: outer := by
  induction us generalizing top with
  | nil => rfl
  | cons t us ih => exact ih _

theorem length_widenBy (spans : List Span) (us : List Token) :
    (widenBy spans us).length = spans.length := by
  cases spans with
  | nil => rw [widenBy_nil]
  | cons top outer => rw [widenBy_cons]; rfl

theorem at?_iff : s.at? kinds = true ↔ Starts kinds s.rest := by
  unfold at? Starts
  split <;> simp_all

theorem at?_of_starts (hs : s.rest = ts) (h : Starts kinds ts) : s.at? kinds = true :=
  at?_iff.mpr (hs ▸ h)

theorem at?_of_not_starts (hs : s.rest = ts) (h : ¬ Starts kinds ts) : ¬ s.at? kinds = true :=
  mt at?_iff.mp (hs ▸ h)

/-- The cursor with one more node open. -/
def opened (src : List Char) (s : Cursor) : Cursor := { s with spans := s.here src :: s.spans }

@[simp] theorem opened_rest (src : List Char) : (s.opened src).rest = s.rest := rfl

end Cursor

/-! ## Spans -/

theorem Span.reach_reach (a : Span) (x y : Int) : (a.reach x).reach y = a.reach (max x y) := by
  simp [Span.reach, Int.max_assoc]

/-- Reaching the end of each token is reaching the end of their cover. -/
theorem foldl_reach (a : Span) (t : Token) (us : List Token) :
    (t :: us).foldl (fun span u => span.reach u.span.hi) a = a.reach (cover (t :: us)).hi := by
  have h : ∀ b : Span, us.foldl (fun span u => span.reach u.span.hi) (a.reach b.hi) =
      a.reach (us.foldl (fun span u => span.reach u.span.hi) b).hi := by
    induction us with
    | nil => intro b; rfl
    | cons u us ih => intro b; rw [List.foldl_cons, Span.reach_reach]; exact ih (b.reach u.span.hi)
  exact h t.span

theorem cover_cons (t : Token) (us : List Token) :
    (t :: us).foldl (fun span u => span.reach u.span.hi) t.span = cover (t :: us) := by
  simp [cover, Span.reach]

theorem cover_concat (t : Token) (us : List Token) (r : Token) :
    cover (t :: (us ++ [r])) = (cover (t :: us)).reach r.span.hi := by
  simp [cover, List.foldl_append]

theorem cover_lo (t : Token) (us : List Token) : (cover (t :: us)).lo = t.span.lo := by
  have h : ∀ a : Span, (us.foldl (fun span u => span.reach u.span.hi) a).lo = a.lo := by
    induction us with
    | nil => intro a; rfl
    | cons u us ih => intro a; exact ih _
  exact h t.span

theorem le_cover_hi (t : Token) (us : List Token) : t.span.hi ≤ (cover (t :: us)).hi := by
  have h : ∀ a : Span, a.hi ≤ (us.foldl (fun span u => span.reach u.span.hi) a).hi := by
    induction us with
    | nil => intro a; exact Int.le_refl _
    | cons u us ih => intro a; exact Int.le_trans (a.le_reach_hi _) (ih _)
  exact h t.span

/-! ## Steps -/

theorem Outcome.andThen_pure {α : Type} (o : Outcome α) : o.andThen pure = o := by
  cases o <;> rfl

theorem Outcome.andThen_andThen {α β γ : Type} (o : Outcome α) (f : α → Production β)
    (g : β → Production γ) : (o.andThen f).andThen g = o.andThen fun a => f a >>= g := by
  cases o <;> rfl

instance : LawfulMonad Production := .mk' _ (fun p => funext fun s => (p s).andThen_pure)
  (fun _ _ => rfl) fun p f g => funext fun s => (p s).andThen_andThen f g

section Steps

variable {α β : Type} {s s' : Cursor} {t : Token} {us ts : List Token} {kinds : List Kind}
  (src : List Char)

theorem bind_run {p : Production α} {f : α → Production β} {a : α} (hp : p s = .found a s') :
    (p >>= f) s = f a s' := by
  rw [bind_apply, hp]; rfl

/-- What is found in two steps is found in each of them. -/
theorem bind_found {p : Production α} {f : α → Production β} {c : β}
    (h : (p >>= f) s = .found c s') : ∃ a s₁, p s = .found a s₁ ∧ f a s₁ = .found c s' := by
  rw [bind_apply] at h
  cases hp : p s with
  | found a s₁ => rw [hp] at h; exact ⟨a, s₁, rfl, h⟩
  | abandoned s₁ => rw [hp] at h; cases h
  | faulted e => rw [hp] at h; cases h

theorem advance_run (hs : s.rest = t :: ts) : advance s = .found t (s.past [t] ts) := by
  unfold advance
  rw [hs]; rfl

theorem require_run (h : Starts kinds s.rest) : require src kinds s = .found () s := by
  simp [require, Cursor.at?_iff.mpr h]

theorem expect_run (hs : s.rest = t :: ts) (hk : t.kind ∈ kinds) :
    expect src kinds s = .found t (s.past [t] ts) :=
  (bind_run (require_run src (by rw [hs]; exact hk))).trans (advance_run hs)

/-- A node gets the span that is on top when it ends. -/
theorem spanned_of_run {p : Production α} {a : α} {top : Span} {outer : List Span}
    (hp : p (s.opened src) = .found a s') (hspans : s'.spans = top :: outer) :
    spanned src p s = .found (a, top) { s' with spans := Cursor.widen top.hi outer } := by
  have hclose : closeSpan s' = .found top { s' with spans := Cursor.widen top.hi outer } := by
    rw [closeSpan, hspans]
  exact (bind_run hp).trans (bind_run hclose)

theorem closeSpan_run (hs : s.rest = us ++ ts) (hus : us ≠ []) :
    closeSpan ((s.opened src).past us ts) = .found (cover us) (s.past us ts) := by
  obtain ⟨t, us, rfl⟩ := List.exists_cons_of_ne_nil hus
  have hhere : s.here src = t.span := by simp [Cursor.here, hs]
  simp only [closeSpan, Cursor.past, Cursor.opened, Cursor.widenBy_cons, hhere, cover_cons]
  cases s.spans with
  | nil => rw [Cursor.widenBy_nil]; rfl
  | cons top outer => rw [Cursor.widenBy_cons, foldl_reach]; rfl

/-- The span of what is read from at least one token covers these tokens. -/
theorem spanned_run {p : Production α} {a : α} (hs : s.rest = us ++ ts) (hus : us ≠ [])
    (hp : p (s.opened src) = .found a ((s.opened src).past us ts)) :
    spanned src p s = .found (a, cover us) (s.past us ts) :=
  calc spanned src p s
    _ = (do return (a, ← closeSpan) : Production _) ((s.opened src).past us ts) := bind_run hp
    _ = .found (a, cover us) (s.past us ts) := bind_run (closeSpan_run src hs hus)

section Repetition

variable {go : Cursor → Bool} {p : Production α} {L : List Token → α → Prop} {as : List α}
  {P : List Token → Prop} (progress : Advances go p)

theorem whileAt_stop (h : go s = false) : whileAt go p progress s = .found [] s := by
  rw [whileAt, dif_neg (by simp [h])]

theorem whileAt_go (h : go s = true) :
    whileAt go p progress s = (p s).andThen fun a s' => (whileAt go p progress s').map (a :: ·) := by
  rw [whileAt, dif_pos h]
  split <;> simp [*, Outcome.andThen]

/-- The first round of a repetition, and the rounds after it. -/
theorem whileAt_found (hgo : go s = true) (h : whileAt go p progress s = .found as s') :
    ∃ a s₁ bs, p s = .found a s₁ ∧ whileAt go p progress s₁ = .found bs s' ∧ as = a :: bs := by
  rw [whileAt_go progress hgo] at h
  obtain ⟨a, s₁, hround, hmore⟩ := bind_found (p := p)
    (f := fun a s' => (whileAt go p progress s').map (a :: ·)) h
  cases hrec : whileAt go p progress s₁ with
  | found bs s₂ => rw [hrec] at hmore; cases hmore; exact ⟨a, s₁, bs, hround, hrec, rfl⟩
  | abandoned s₂ => rw [hrec] at hmore; cases hmore
  | faulted e => rw [hrec] at hmore; cases hmore

/-- Induction from round to round of a repetition. -/
theorem whileAt_induction (progress : Advances go p) {I : Cursor → Prop}
    (stop : ∀ s, go s = false → I s)
    (round : ∀ s, go s = true → (∀ a s', p s = .found a s' → I s') → I s) (s : Cursor) : I s := by
  induction hn : s.rest.length using Nat.strongRecOn generalizing s with
  | _ n ih =>
    by_cases hgo : go s = true
    · refine round s hgo fun a s' hrun => ?_
      have hless := progress s hgo
      rw [hrun] at hless
      exact ih _ (hn ▸ hless) s' rfl
    · exact stop s (by simpa using hgo)

/-- A repetition takes the phrases of a row, and goes on after them. `P` is what each of them
needs to know about the tokens after it. -/
theorem whileAt_run (h : Star L us as)
    (hp : ∀ us a, L us a → ∀ (s : Cursor) (ts : List Token), s.rest = us ++ ts → P ts →
      go s = true ∧ p s = .found a (s.past us ts))
    (hL : ∀ us a, L us a → ∀ ts, P (us ++ ts)) (hnext : P ts) (hs : s.rest = us ++ ts) :
    whileAt go p progress s = (whileAt go p progress (s.past us ts)).map (as ++ ·) := by
  induction h generalizing s with
  | nil =>
    rw [Cursor.past_nil (by simpa using hs)]
    cases whileAt go p progress s <;> rfl
  | @cons us vs a as head tail ih =>
    rw [List.append_assoc] at hs
    have hvs : P (vs ++ ts) := by
      cases tail with
      | nil => exact hnext
      | cons head' => rw [List.append_assoc]; exact hL _ _ head' _
    obtain ⟨hgo, hrun⟩ := hp us a head s _ hs hvs
    have ih := ih (s := s.past us (vs ++ ts)) rfl
    rw [whileAt_go progress hgo, hrun]
    simp only [Outcome.andThen]
    rw [ih, Cursor.past_past]
    cases whileAt go p progress (s.past (us ++ vs) ts) <;> rfl

/-- A repetition takes the phrases of a row, if it has to stop after them. -/
theorem whileAt_run_stop (h : Star L us as)
    (hp : ∀ us a, L us a → ∀ (s : Cursor) (ts : List Token), s.rest = us ++ ts → P ts →
      go s = true ∧ p s = .found a (s.past us ts))
    (hL : ∀ us a, L us a → ∀ ts, P (us ++ ts)) (hnext : P ts) (hs : s.rest = us ++ ts)
    (hstop : go (s.past us ts) = false) :
    whileAt go p progress s = .found as (s.past us ts) := by
  rw [whileAt_run progress h hp hL hnext hs, whileAt_stop progress hstop, Outcome.map,
    List.append_nil]

end Repetition

end Steps

/-! ## Skipping -/

section Skipping

variable {s : Cursor} {t : Token} {ts : List Token} {b : Bool} {depth : Int}

/-- Induction from token to token. -/
theorem Cursor.pass_induction {I : Cursor → Prop} (nil : ∀ s, s.rest = [] → I s)
    (cons : ∀ s t ts, s.rest = t :: ts → I (s.pass t ts) → I s) (s : Cursor) : I s := by
  induction hts : s.rest generalizing s with
  | nil => exact nil s hts
  | cons t ts ih => exact cons s t ts hts (ih _ rfl)

theorem resync_nil (h : s.rest = []) : resync b depth s = s := by
  rw [resync]
  split
  · rfl
  · next h' => rw [h] at h'; cases h'

theorem resync_cons (h : s.rest = t :: ts) : resync b depth s =
    if depth = 0 ∧ t.kind = .newline then s.pass t ts
    else if closesGroup b depth t.kind then s
    else if closesGroup b (depthAfter b depth t.kind) t.kind then s.pass t ts
    else resync b (depthAfter b depth t.kind) (s.pass t ts) := by
  rw [resync]
  split
  · next h' => rw [h] at h'; cases h'
  · next h' => rw [h] at h'; cases h'; rfl

theorem skipRun_nil (h : s.rest = []) : skipRun b depth s = .faulted .endPassed := by
  rw [skipRun]
  split
  · rfl
  · next h' => rw [h] at h'; cases h'

theorem skipRun_cons (h : s.rest = t :: ts) : skipRun b depth s =
    if closesGroup b (depthAfter b depth t.kind) t.kind ∨ ts = [] ∨
        Starts [.ident, .newline] ts ∨ b ∧ depthAfter b depth t.kind = 0 ∧ Starts [.rbrace] ts then
      .found (t, depthAfter b depth t.kind) (s.pass t ts)
    else skipRun b (depthAfter b depth t.kind) (s.pass t ts) := by
  have hat (kinds : List Kind) : (s.pass t ts).at? kinds = true ↔ Starts kinds ts := Cursor.at?_iff
  rw [skipRun]
  split
  · next h' => rw [h] at h'; cases h'
  · next h' =>
    rw [h] at h'
    cases h'
    simp only [hat]
    grind

theorem unexpected_nil (src : List Char) (starts : List Kind) (h : s.rest = []) :
    unexpected src starts b s = .faulted .endPassed := by
  have hrun : skipRun b 0 (s.opened src) = .faulted .endPassed := skipRun_nil h
  show ((skipRun b 0 (s.opened src)).andThen _).andThen _ = _
  rw [hrun]; rfl

/-- Behind a token of the kind `k`, with the depth `depth` after it, skipping stops before the
tokens `ts`. -/
def EndsRun (b : Bool) (depth : Int) (k : Kind) (ts : List Token) : Prop :=
  closesGroup b depth k = true ∨ ts = [] ∨ Starts [.ident, .newline] ts ∨
    b = true ∧ depth = 0 ∧ Starts [.rbrace] ts

/-- Skipping from the depth `depth` on takes the tokens `us`. The last of them is `t`, with the
depth `d` after it. -/
structure Skips (b : Bool) (depth : Int) (s : Cursor) (t : Token) (d : Int) (us ts : List Token) :
    Prop where
  nonempty : us ≠ []
  rest : s.rest = us ++ ts
  run : skipRun b depth s = .found (t, d) (s.past us ts)

theorem Skips.last (hs : s.rest = t :: ts) (h : EndsRun b (depthAfter b depth t.kind) t.kind ts) :
    Skips b depth s t (depthAfter b depth t.kind) [t] ts :=
  ⟨List.cons_ne_nil _ _, hs, (skipRun_cons hs).trans (if_pos h)⟩

theorem Skips.cons {u : Token} {d : Int} {us vs : List Token} (hs : s.rest = t :: ts)
    (hmore : ¬ EndsRun b (depthAfter b depth t.kind) t.kind ts)
    (h : Skips b (depthAfter b depth t.kind) (s.pass t ts) u d us vs) :
    Skips b depth s u d (t :: us) vs where
  nonempty := List.cons_ne_nil _ _
  rest := hs.trans (congrArg (t :: ·) h.rest)
  run := (skipRun_cons hs).trans ((if_neg hmore).trans h.run)

/-- A run of tokens that is skipped is reported with the span of these tokens. -/
theorem unexpected_run (src : List Char) (starts : List Kind) {us : List Token}
    (h : Skips b 0 (s.opened src) t depth us ts) :
    unexpected src starts b s = report src starts b t depth (cover us) (s.past us ts) := by
  have hs : s.rest = us ++ ts := h.rest
  exact bind_run (spanned_run src hs h.nonempty h.run)

end Skipping

end ScripCheck
