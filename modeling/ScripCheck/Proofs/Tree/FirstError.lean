import ScripCheck.Proofs.Tree.Diagnosis

/-!
# The first error

Bodies and programs are read on after an error. They take a phrase without any error, or the first
of their errors is about the first token that is not expected.

* `Cursor.After`, `Outcome.GoesOn`: what holds after errors too. Tokens are only taken from the
  front, errors are only added at the end, and no node is lost.
* `Checks`: a production takes a phrase, or goes on with a first error that blames.
* `checks_statement`, ..., `checks_decls`: one lemma for each production.
* `parse_spec`: reading a list of tokens never faults, and has one of the two ends.
-/

namespace ScripCheck

open Production

/-! ## Going on -/

/-- Tokens were taken, and errors were added, `es` first. -/
structure Cursor.After (s : Cursor) (es : List SyntaxError) (s' : Cursor) : Prop where
  rest : s'.rest <:+ s.rest
  errors : s.errors ++ es <+: s'.errors

theorem Cursor.After.refl (s : Cursor) : s.After [] s :=
  ⟨List.suffix_rfl, by simp⟩

theorem Cursor.After.record (s : Cursor) (e : SyntaxError) : s.After [e] (s.record e) :=
  ⟨List.suffix_rfl, List.prefix_rfl⟩

theorem Cursor.After.weaken {s s' : Cursor} {es : List SyntaxError} (h : s.After es s') :
    s.After [] s' :=
  ⟨h.rest, (List.append_nil s.errors).symm ▸ (List.prefix_append _ _).trans h.errors⟩

theorem Cursor.After.trans {s s₁ s₂ : Cursor} {es : List SyntaxError} (h₁ : s.After es s₁)
    (h₂ : s₁.After [] s₂) : s.After es s₂ := by
  have herrors := h₂.errors
  rw [List.append_nil] at herrors
  exact ⟨h₂.rest.trans h₁.rest, h₁.errors.trans herrors⟩

theorem BooleansSpelled.after {s s' : Cursor} {es : List SyntaxError}
    (h : BooleansSpelled s.rest) (hs : s.After es s') : BooleansSpelled s'.rest :=
  fun t ht => h t (hs.rest.subset ht)

/-- There is no fault. The nodes that were open still are. -/
inductive Outcome.GoesOn {α : Type} (s : Cursor) (es : List SyntaxError) : Outcome α → Prop where
  | found {a : α} {s' : Cursor} (after : s.After es s')
    (depth : s'.spans.length = s.spans.length) : GoesOn s es (.found a s')
  | abandoned {s' : Cursor} (after : s.After es s')
    (depth : s.spans.length ≤ s'.spans.length) : GoesOn s es (.abandoned s')

/-- Where a production goes on, if the boolean literals are the two words. -/
def Goes {α : Type} (p : Production α) : Prop :=
  ∀ s : Cursor, BooleansSpelled s.rest → (p s).GoesOn s []

section Going

variable {α β : Type} {s s₁ : Cursor} {es : List SyntaxError} {p : Production α}
  {f : α → Production β}

theorem Outcome.GoesOn.after {o : Outcome α} (h : s.After es s₁)
    (depth : s₁.spans.length = s.spans.length) (ho : o.GoesOn s₁ []) : o.GoesOn s es := by
  cases ho with
  | found after' depth' => exact .found (h.trans after') (depth'.trans depth)
  | abandoned after' depth' => exact .abandoned (h.trans after') (depth ▸ depth')

theorem Outcome.GoesOn.andThen {o : Outcome α} (h : o.GoesOn s es) (hs : BooleansSpelled s.rest)
    (hf : ∀ a, Goes (f a)) : (o.andThen f).GoesOn s es := by
  cases h with
  | found after depth => exact .after after depth (hf _ _ (hs.after after))
  | abandoned after depth => exact .abandoned after depth

theorem Outcome.GoesOn.map {o : Outcome α} {g : α → β} (h : o.GoesOn s es) :
    (o.map g).GoesOn s es := by
  cases h with
  | found after depth => exact .found after depth
  | abandoned after depth => exact .abandoned after depth

theorem goes_pure (a : α) : Goes (pure a : Production α) := fun s _ => .found (.refl s) rfl

theorem Goes.bind (hp : Goes p) (hf : ∀ a, Goes (f a)) : Goes (p >>= f) :=
  fun s hs => (hp s hs).andThen hs hf

end Going

/-! ## Skipping -/

section Skipping

variable {s : Cursor} {us ts : List Token} {b : Bool}

theorem Cursor.after_past (h : s.rest = us ++ ts) : s.After [] (s.past us ts) :=
  ⟨h ▸ List.suffix_append us ts, by rw [List.append_nil]; exact List.prefix_rfl⟩

theorem resync_past (b : Bool) (depth : Int) (s : Cursor) :
    ∃ us ts, s.rest = us ++ ts ∧ resync b depth s = s.past us ts := by
  fun_induction resync b depth s with
  | case1 depth s h => exact ⟨[], [], h, (Cursor.past_nil h).symm⟩
  | case2 depth s t ts h => exact ⟨[t], ts, h, rfl⟩
  | case3 depth s t ts h => exact ⟨[], t :: ts, h, (Cursor.past_nil h).symm⟩
  | case4 depth s t ts h => exact ⟨[t], ts, h, rfl⟩
  | case5 depth s t ts h _ _ _ _ ih =>
    obtain ⟨us, vs, hus, hrun⟩ := ih
    refine ⟨t :: us, vs, ?_, ?_⟩
    · rw [h]; exact congrArg (t :: ·) hus
    · rw [hrun]; rfl

theorem skipRun_past (b : Bool) (depth : Int) (h : s.rest ≠ []) :
    ∃ t d us ts, Skips b depth s t d us ts := by
  induction s using Cursor.pass_induction generalizing depth with
  | nil s hnil => exact absurd hnil h
  | cons s t ts hs ih =>
    by_cases hend : EndsRun b (depthAfter b depth t.kind) t.kind ts
    · exact ⟨_, _, _, _, .last hs hend⟩
    · obtain ⟨u, d, us, vs, hskips⟩ :=
        ih (depthAfter b depth t.kind) fun hnil => hend (.inr (.inl hnil))
      exact ⟨_, _, _, _, hskips.cons hs hend⟩

/-- Reporting takes at least one token, and adds one error about the first of them. -/
theorem unexpected_past (src : List Char) (starts : List Kind) (b : Bool) (h : s.rest ≠ []) :
    ∃ e us ts, us ≠ [] ∧ s.rest = us ++ ts ∧ e.At src us ∧
      unexpected src starts b s = .found () ((s.record e).past us ts) := by
  obtain ⟨last, depth, us, ts, hskips⟩ := skipRun_past b 0 (s := s.opened src) h
  have hs : s.rest = us ++ ts := hskips.rest
  rw [unexpected_run src starts hskips, report]
  obtain ⟨t, us, rfl⟩ := List.exists_cons_of_ne_nil hskips.nonempty
  refine ⟨⟨.expected starts (.text (String.ofList ((cover (t :: us)).slice src))),
    cover (t :: us)⟩, ?_⟩
  split
  · exact ⟨t :: us, ts, by simp, hs, ⟨cover_lo t us, le_cover_hi t us⟩, rfl⟩
  · obtain ⟨vs, ws, hvs, hresync⟩ := resync_past b depth ((s.past (t :: us) ts).record
      ⟨.expected starts (.text (String.ofList ((cover (t :: us)).slice src))), cover (t :: us)⟩)
    have hts : ts = vs ++ ws := hvs
    refine ⟨t :: (us ++ vs), ws, by simp, ?_, ⟨cover_lo t us, le_cover_hi t us⟩, ?_⟩
    · simpa [hts] using hs
    · rw [hresync]
      exact congrArg (Outcome.found ()) (Cursor.past_past (s := s.record _))

end Skipping

/-! ## Phrases or a first error -/

/-- How a production ends: it takes a phrase of `L`, which also says what follows; or it goes on
with a first error, which blames. -/
inductive CheckOutcome {α : Type} (src : List Char) (q : Expectation)
    (L : List Token → α → List Token → Prop) (s : Cursor) : Outcome α → Prop where
  | found {a : α} {us ts : List Token} (rest : s.rest = us ++ ts) (phrase : L us a ts) :
    CheckOutcome src q L s (.found a (s.past us ts))
  | failed {o : Outcome α} {e : SyntaxError} (blames : Blames src q s.rest e)
    (goesOn : o.GoesOn s [e]) : CheckOutcome src q L s o

/-- Where the tokens `ts` are left, the production takes a phrase of `L`, or its first error
blames. -/
def Checks {α : Type} (src : List Char) (q : Expectation) (L : List Token → α → List Token → Prop)
    (p : Production α) (ts : List Token) : Prop :=
  ∀ s : Cursor, s.rest = ts → BooleansSpelled ts → CheckOutcome src q L s (p s)

section Rules

variable {α β : Type} {src : List Char} {q q₁ : Expectation} {s : Cursor} {us ts : List Token}
  {L L' : List Token → α → List Token → Prop} {M : List Token → β → List Token → Prop}
  {p : Production α} {f : α → Production β} {kinds : List Kind}

theorem Reads.checks (hp : Reads src q L p ts) : Checks src q L p ts := by
  intro s hs hspelled
  have h := hp s hs hspelled
  generalize p s = o at h
  cases h with
  | found rest inline phrase => exact .found rest phrase
  | abandoned rest inline errors blames depth =>
    refine .failed blames (.abandoned ⟨⟨_, rest.symm⟩, ?_⟩ depth)
    simp [errors]

theorem LineOutcome.checks {o : Outcome Item} (h : LineOutcome src q s o) :
    CheckOutcome src q (fun us i _ => PartPhrase us (some i)) s o := by
  cases h with
  | found rest inline item newline =>
    exact .found (by rw [rest, List.append_assoc]; rfl) (.item item newline)
  | abandoned rest inline errors blames depth =>
    refine .failed blames (.abandoned ⟨⟨_, rest.symm⟩, ?_⟩ depth)
    simp [errors]

theorem CheckOutcome.goesOn {o : Outcome α} (h : CheckOutcome src q L s o) : o.GoesOn s [] := by
  cases h with
  | found rest phrase =>
    exact .found (Cursor.after_past rest) (Cursor.length_widenBy ..)
  | failed blames goesOn =>
    cases goesOn with
    | found after depth => exact .found after.weaken depth
    | abandoned after depth => exact .abandoned after.weaken depth

theorem CheckOutcome.mono {o : Outcome α} (h : CheckOutcome src q L s o)
    (hL : ∀ us a ts, L us a ts → L' us a ts) : CheckOutcome src q L' s o := by
  cases h with
  | found rest phrase => exact .found rest (hL _ _ _ phrase)
  | failed blames goesOn => exact .failed blames goesOn

theorem CheckOutcome.map {o : Outcome α} {g : α → β} (h : CheckOutcome src q L s o)
    (hg : ∀ us a ts, L us a ts → M us (g a) ts) : CheckOutcome src q M s (o.map g) := by
  cases h with
  | found rest phrase => exact .found rest (hg _ _ _ phrase)
  | failed blames goesOn => exact .failed blames goesOn.map

theorem Checks.mono (hp : Checks src q L p ts) (hL : ∀ us a ts, L us a ts → L' us a ts) :
    Checks src q L' p ts := fun s hs hspelled => (hp s hs hspelled).mono hL

theorem CheckOutcome.after {o : Outcome β} (rest : s.rest = us ++ ts) (run : q.Run us q₁)
    (h : CheckOutcome src q₁ (fun vs b => M (us ++ vs) b) (s.past us ts) o) :
    CheckOutcome src q M s o := by
  cases h with
  | found rest' phrase =>
    rw [Cursor.past_rest] at rest'
    rw [Cursor.past_past]
    exact .found (by rw [rest, rest', List.append_assoc]) phrase
  | failed blames goesOn =>
    refine .failed (rest ▸ blames.after run) ?_
    have hdepth : (s.past us ts).spans.length = s.spans.length := Cursor.length_widenBy ..
    cases goesOn with
    | found after depth =>
      exact .found ⟨after.rest.trans (Cursor.after_past rest).rest, after.errors⟩
        (depth.trans hdepth)
    | abandoned after depth =>
      exact .abandoned ⟨after.rest.trans (Cursor.after_past rest).rest, after.errors⟩
        (hdepth ▸ depth)

theorem Checks.bind (hp : Checks src q L p ts)
    (hf : ∀ us a ts, L us a ts → ∃ q₁, q.Run us q₁ ∧
      Checks src q₁ (fun vs b => M (us ++ vs) b) (f a) ts)
    (hgoes : ∀ a, Goes (f a)) : Checks src q M (p >>= f) ts := by
  intro s hs hspelled
  have h := hp s hs hspelled
  rw [bind_apply]
  generalize p s = o at h
  cases h with
  | @found a us ts' rest phrase =>
    obtain ⟨q₁, hrun, hnext⟩ := hf us a ts' phrase
    rw [← hs, rest] at hspelled
    exact .after rest hrun (hnext (s.past us ts') rfl hspelled.right)
  | failed blames goesOn => exact .failed blames (goesOn.andThen (hs ▸ hspelled) hgoes)

/-- What only gives up is not gone on from. -/
theorem Reads.bind_checks (hp : Reads src q L p ts)
    (hf : ∀ us a ts, L us a ts → ∃ q₁, q.Run us q₁ ∧
      Checks src q₁ (fun vs b => M (us ++ vs) b) (f a) ts) : Checks src q M (p >>= f) ts := by
  intro s hs hspelled
  have h := hp s hs hspelled
  rw [bind_apply]
  generalize p s = o at h
  cases h with
  | @found a us ts' rest inline phrase =>
    obtain ⟨q₁, hrun, hnext⟩ := hf us a ts' phrase
    rw [← hs, rest] at hspelled
    exact .after rest hrun (hnext (s.past us ts') rfl hspelled.right)
  | abandoned rest inline errors blames depth =>
    refine .failed blames (.abandoned ⟨⟨_, rest.symm⟩, ?_⟩ depth)
    simp [errors]

/-- A last step that always succeeds. -/
theorem Checks.map {f : α → β} (hp : Checks src q L p ts)
    (hf : ∀ us a ts, L us a ts → M us (f a) ts) :
    Checks src q M (do return f (← p)) ts := fun s hs hspelled => by
  have hmap : (do return f (← p) : Production β) s = (p s).map f := by
    rw [bind_apply]
    cases p s <;> rfl
  rw [hmap]
  exact (hp s hs hspelled).map hf

theorem checks_advance (h : Starts kinds ts) :
    Checks src q (fun us t _ => us = [t] ∧ t.kind ∈ kinds) advance ts := by
  intro s hs _
  cases ts with
  | nil => exact h.elim
  | cons t ts =>
    rw [advance_run hs]
    exact .found hs ⟨rfl, h⟩

theorem checks_expect (hdue : ¬ Starts kinds ts → q.Refuses ts) :
    Checks src q (fun us t _ => us = [t] ∧ t.kind ∈ kinds) (expect src kinds) ts := by
  intro s hs hspelled
  by_cases h : Starts kinds ts
  · have hexpect : expect src kinds s = advance s := bind_run (require_run src (hs ▸ h))
    rw [hexpect]
    exact checks_advance h s hs hspelled
  · rw [expect_missing src (hs ▸ h)]
    have hat : (s.missing src kinds).At src ts := hs ▸ s.missing_at src kinds
    exact .failed ⟨[], ts, q, hs, rfl, hdue h, hat⟩ (.abandoned (.record s _) (Nat.le_refl _))

theorem goes_expect (src : List Char) (kinds : List Kind) : Goes (expect src kinds) := by
  intro s _
  by_cases h : Starts kinds s.rest
  · obtain ⟨t, ts, hs, h⟩ := h.exists_cons
    rw [expect_run src hs h]
    exact .found (Cursor.after_past hs) (Cursor.length_widenBy ..)
  · rw [expect_missing src h]
    exact .abandoned (Cursor.After.record s _).weaken (Nat.le_refl _)

/-- The node that was opened can be closed. -/
theorem Outcome.GoesOn.spanned {es : List SyntaxError}
    (h : (p (s.opened src)).GoesOn (s.opened src) es) : (spanned src p s).GoesOn s es := by
  show ((p (s.opened src)).andThen fun a => do return (a, ← closeSpan)).GoesOn s es
  generalize p (s.opened src) = o at h
  cases h with
  | @found a s' after depth =>
    obtain ⟨top, outer, hspans⟩ : ∃ top outer, s'.spans = top :: outer :=
      List.exists_cons_of_length_eq_add_one depth
    have hclose : closeSpan s' = .found top { s' with spans := Cursor.widen top.hi outer } := by
      rw [closeSpan, hspans]
    rw [Outcome.andThen, bind_run hclose]
    refine .found ⟨after.rest, after.errors⟩ ?_
    have houter : outer.length = s.spans.length := by
      rw [hspans] at depth; exact Nat.succ.inj depth
    cases outer <;> exact houter
  | abandoned after depth =>
    exact .abandoned ⟨after.rest, after.errors⟩ (Nat.le_of_succ_le depth)

theorem Checks.spanned (hp : Checks src q L p ts) (hne : ∀ us a ts, L us a ts → us ≠ []) :
    Checks src q (fun us x ts => L us x.1 ts ∧ x.2 = cover us) (spanned src p) ts := by
  intro s hs hspelled
  have h := hp (s.opened src) hs hspelled
  generalize ho : p (s.opened src) = o at h
  cases h with
  | @found a us ts rest phrase =>
    have rest' : s.rest = us ++ ts := rest
    rw [spanned_run src rest' (hne _ _ _ phrase) ho]
    exact .found rest' ⟨phrase, rfl⟩
  | failed blames goesOn =>
    rw [← ho] at goesOn
    exact .failed blames goesOn.spanned

/-- A repetition whose rounds lead back to what was expected before. `J` holds at the end. -/
theorem Checks.whileAt {go : Cursor → Bool} {P : List Token → α → Prop} {J : List Token → Prop}
    (progress : Advances go p)
    (hp : ∀ s : Cursor, go s = true → Checks src q (fun us a _ => P us a) p s.rest)
    (hq : ∀ us a, P us a → q.Run us q) (hstop : ∀ s : Cursor, go s = false → J s.rest) :
    Checks src q (fun us as ts => Star P us as ∧ J ts) (whileAt go p progress) ts := by
  intro s hs hspelled
  induction s using whileAt_induction progress generalizing ts with
  | stop s h =>
    have hfound : CheckOutcome src q (fun us as ts => Star P us as ∧ J ts) s
        (.found [] (s.past [] ts)) := .found hs ⟨.nil, hs ▸ hstop s h⟩
    rwa [Cursor.past_nil hs, ← whileAt_stop progress h] at hfound
  | round s h ih =>
    have hround := hp s h s rfl (hs ▸ hspelled)
    rw [whileAt_go progress h]
    generalize ho : p s = o at hround
    cases hround with
    | @found a us ts' rest phrase =>
      rw [← hs, rest] at hspelled
      have hrec := ih a (s.past us ts') ho rfl hspelled.right
      simp only [Outcome.andThen]
      exact .after rest (hq _ _ phrase) (hrec.map fun vs as _ h => ⟨.cons phrase h.1, h.2⟩)
    | failed blames goesOn =>
      refine .failed blames ?_
      cases goesOn with
      | found after depth =>
        -- what the later rounds read does not matter any more
        have hspelled' := BooleansSpelled.after (hs ▸ hspelled) after
        have hrec := (ih _ _ ho rfl hspelled').goesOn
        exact (hrec.after after depth).map
      | abandoned after depth => exact .abandoned after depth

theorem Checks.orResync (b : Bool) (hp : Checks src q L p ts) :
    Checks src q (fun us o ts => ∃ a, o = some a ∧ L us a ts) (orResync b p) ts := by
  intro s hs hspelled
  have h := hp s hs hspelled
  unfold ScripCheck.orResync
  generalize p s = o at h
  cases h with
  | found rest phrase => exact .found rest ⟨_, rfl, phrase⟩
  | failed blames goesOn =>
    refine .failed blames ?_
    cases goesOn with
    | found after depth => exact .found after depth
    | @abandoned s' after depth =>
      -- the spans of the nodes that were given up are dropped
      obtain ⟨us, vs, hvs, hrun⟩ := resync_past b 0
        { s' with spans := s'.spans.drop (s'.spans.length - s.spans.length) }
      have hvs : s'.rest = us ++ vs := hvs
      dsimp only
      rw [hrun]
      refine .found ⟨(Cursor.after_past hvs).rest.trans after.rest, after.errors⟩ ?_
      simp only [Cursor.past, Cursor.length_widenBy, List.length_drop]
      omega

end Rules

/-! ## Bodies and functions -/

section Productions

variable {src : List Char} {ts : List Token} {b : Bool}

open Expectation

theorem SyntaxError.At.append {e : SyntaxError} {us : List Token} (h : e.At src us) (hus : us ≠ [])
    (vs : List Token) : e.At src (us ++ vs) := by
  obtain ⟨t, us, rfl⟩ := List.exists_cons_of_ne_nil hus
  exact h

theorem checks_reported {α : Type} {L : List Token → Option α → List Token → Prop} {q : Expectation}
    {starts : List Kind} (hts : ts ≠ []) (hrefuses : q.Refuses ts) :
    Checks src q L (reported src starts b) ts := by
  intro s hs _
  obtain ⟨e, us, vs, hus, hrest, hat, hrun⟩ := unexpected_past src starts b (hs ▸ hts)
  have hreported : (reported src starts b : Production (Option α)) s =
      .found none ((s.record e).past us vs) := bind_run hrun
  have hblames : e.At src ts := by rw [← hs, hrest]; exact hat.append hus vs
  rw [hreported]
  refine .failed ⟨[], ts, q, hs, rfl, hrefuses, hblames⟩ (.found ?_ (Cursor.length_widenBy ..))
  exact (Cursor.After.record s e).trans (Cursor.after_past hrest)

theorem checks_item? {other : Production (Option Item)}
    (hother : ¬ Starts [.globalWord, .ident] ts →
      Checks src (start b) (fun us i _ => PartPhrase us i) other ts) :
    Checks src (start b) (fun us i _ => PartPhrase us i) (item? src b other) ts := by
  have hitem {p : Production Item}
      (hp : Reads src (start b) (fun us i ts => ItemPhrase us i ∧ Starts [.newline] ts) p ts) :
      Checks src (start b) (fun us i _ => PartPhrase us i) (orResync b (terminated p)) ts := by
    have hline : Checks src (start b) (fun us i _ => PartPhrase us (some i)) (terminated p) ts :=
      fun s hs hspelled => (Reads.terminated (hs ▸ hp) (hs ▸ hspelled)).checks
    exact (hline.orResync b).mono fun us o _ ⟨i, ho, h⟩ => ho ▸ h
  intro s hs hspelled
  unfold item?
  split
  · next h => exact hitem (reads_varItem (hs ▸ Cursor.at?_iff.mp h)) s hs hspelled
  · next hident =>
    split
    · next h => exact hitem (reads_globalItem (hs ▸ Cursor.at?_iff.mp h)) s hs hspelled
    · next hglobal =>
      rw [Cursor.at?_iff, hs] at hident hglobal
      exact hother (not_starts_append hglobal hident :) s hs hspelled

theorem Checks.orEmptyLine {α : Type} {L : List Token → Option α → Prop} {q : Expectation}
    {p : Production (Option α)} (hblank : ∀ t : Token, t.kind = .newline → L [t] none)
    (hp : ¬ Starts [.newline] ts → Checks src q (fun us a _ => L us a) p ts) :
    Checks src q (fun us a _ => L us a) (orEmptyLine p) ts := by
  intro s hs hspelled
  unfold ScripCheck.orEmptyLine
  split
  · next h =>
    refine (checks_advance (hs ▸ Cursor.at?_iff.mp h)).map ?_ s hs hspelled
    rintro us t _ ⟨rfl, ht⟩
    exact hblank t (by simpa using ht)
  · next h =>
    rw [Cursor.at?_iff, hs] at h
    exact hp h s hs hspelled

/-- One round of the loop of a body. -/
theorem checks_statement (hts : ts ≠ []) (hend : ¬ Starts [.rbrace] ts) :
    Checks src (start true) (fun us i _ => PartPhrase us i)
      (ScripCheck.orEmptyLine (statement src)) ts := by
  refine Checks.orEmptyLine (fun t ht => .blank ht) fun hblank => checks_item? fun hitem => ?_
  exact checks_reported hts
    (refuses_body (not_starts_append hblank (not_starts_append hitem hend)))

theorem checks_parts : Checks src (start true)
    (fun us is ts => Star PartPhrase us is ∧ (¬ Starts [.rbrace] ts → ts = [])) (parts src) ts := by
  refine Checks.whileAt _ (fun s hs => ?_) (fun _ _ h => h.run) fun s hs => ?_
  · obtain ⟨hts, hend⟩ := inBlock_iff.mp hs
    exact checks_statement hts hend
  · rw [← Bool.not_eq_true, inBlock_iff] at hs
    exact fun hend => Classical.not_not.mp fun hts => hs ⟨hts, hend⟩

theorem checks_block : Checks src opening
    (fun us b _ => ∃ (l r : Token) (vs : List Token) (is : List (Option Item)),
      us = l :: (vs ++ [r]) ∧ l.kind = .lbrace ∧ Star PartPhrase vs is ∧ r.kind = .rbrace ∧
      b = ⟨is.filterMap id, cover us⟩) (block src) ts := by
  have hgoes : Goes (parts src) := fun s hs => (checks_parts s rfl hs).goesOn
  have hend (is : List (Option Item)) : Goes (do
      let _ ← expect src [.rbrace]
      return is.filterMap id) := (goes_expect src _).bind fun _ => goes_pure _
  have hinner : Checks src opening (fun us is _ => ∃ (l r : Token) (vs : List Token)
      (os : List (Option Item)), us = l :: (vs ++ [r]) ∧ l.kind = .lbrace ∧ Star PartPhrase vs os ∧
      r.kind = .rbrace ∧ is = os.filterMap id) (do
        let _ ← expect src [.lbrace]
        let items ← parts src
        let _ ← expect src [.rbrace]
        return items.filterMap id) ts := by
    refine (checks_expect refuses_opening).bind ?_ fun _ => hgoes.bind hend
    rintro us l ts ⟨rfl, hl⟩
    have hl : l.kind = .lbrace := by simpa using hl
    refine ⟨_, Step.run (.lbrace hl), checks_parts.bind ?_ hend⟩
    rintro vs is ts ⟨hbody, hstop⟩
    have hdue (h : ¬ Starts [.rbrace] ts) : (start true).Refuses ts := by
      rw [hstop h]; exact nofun
    refine ⟨_, hbody.run fun _ _ h => h.run, (checks_expect hdue).map ?_⟩
    rintro rs r ts ⟨rfl, hr⟩
    exact ⟨l, r, vs, is, rfl, hl, hbody, by simpa using hr, rfl⟩
  refine (hinner.spanned ?_).map ?_
  · rintro us is ts ⟨l, r, vs, os, rfl, -⟩
    exact List.cons_ne_nil _ _
  · rintro us ⟨is, _⟩ ts ⟨⟨l, r, vs, os, rfl, hl, hbody, hr, rfl⟩, rfl⟩
    exact ⟨l, r, vs, os, rfl, hl, hbody, hr, rfl⟩

theorem checks_funcDef (h : Starts [.funcWord] ts) :
    Checks src (start false) (fun us f _ => FuncPhrase us f) (funcDef src) ts := by
  have hinner : Checks src (start false) (fun us (x : Name × List Name × Block) _ =>
      FuncPhrase us ⟨x.1, x.2.1, x.2.2, cover us⟩) (do
        let x ← header src
        return (x.1, x.2, ← block src)) ts := by
    refine (reads_header h).bind_checks ?_
    rintro us ⟨n, ns⟩ ts hheader
    refine ⟨_, hheader.run, checks_block.map ?_⟩
    rintro bs b ts ⟨lb, rb, ps, is, rfl, hlb, hbody, hrb, rfl⟩
    exact FuncPhrase.intro hheader hlb hbody hrb
  rw [funcDef_eq]
  refine (hinner.spanned ?_).map ?_
  · rintro us x ts hf rfl
    have hstarts : Starts [.funcWord] ([] ++ []) := hf.starts
    exact hstarts
  · rintro us ⟨⟨n, ns, b⟩, _⟩ ts ⟨hf, rfl⟩
    exact hf

/-! ## Programs -/

/-- One round of the loop of a program. -/
theorem checks_declaration (hts : ts ≠ []) :
    Checks src (start false) (fun us d _ => DeclPhrase us d)
      (ScripCheck.orEmptyLine (declaration src)) ts := by
  refine Checks.orEmptyLine (fun t ht => .part (.blank ht)) fun hblank => ?_
  intro s hs hspelled
  unfold declaration
  split
  · next h =>
    have hfunc : Checks src (start false) (fun us d _ => DeclPhrase us (some d))
        (do return .func (← funcDef src)) ts :=
      (checks_funcDef (hs ▸ Cursor.at?_iff.mp h)).map fun _ _ _ h => .func h
    refine (hfunc.orResync false).mono ?_ s hs hspelled
    rintro us d ts ⟨f, rfl, h⟩
    exact h
  · next hfunc =>
    rw [Cursor.at?_iff, hs] at hfunc
    refine (checks_item? (b := false) fun hitem => ?_).map (fun _ _ _ h => .part h) s hs hspelled
    refine checks_reported hts (refuses_top hts ?_)
    exact (not_starts_append hblank (not_starts_append hitem hfunc) :)

theorem checks_decls : Checks src (start false)
    (fun us ds ts => Star DeclPhrase us ds ∧ ts = []) (decls src) ts := by
  refine Checks.whileAt _ (fun s hs => checks_declaration ?_) (fun _ _ h => h.run) fun s hs => ?_
  · simpa [inProgram] using hs
  · simpa [inProgram] using hs

end Productions

/-! ## Programs are read to the end -/

section Ends

variable {α β : Type} {p : Production α} {f : α → Production β} {src : List Char}

/-- The production never gives up. -/
def Settles (p : Production α) : Prop := ∀ s s' : Cursor, p s ≠ .abandoned s'

theorem Settles.bind (hp : Settles p) (hf : ∀ a, Settles (f a)) : Settles (p >>= f) := by
  intro s s' h
  rw [bind_apply] at h
  cases ho : p s with
  | found a s₁ => rw [ho] at h; exact hf a s₁ s' h
  | abandoned s₁ => exact hp s s₁ ho
  | faulted e => rw [ho] at h; cases h

theorem settles_pure (a : α) : Settles (pure a : Production α) := fun _ _ => nofun

theorem settles_advance : Settles advance := fun s s' h => by
  unfold advance at h
  split at h <;> cases h

theorem settles_skipRun (b : Bool) (depth : Int) : Settles (skipRun b depth) := fun s s' h => by
  fun_induction skipRun b depth s with
  | case5 depth s t ts hs _ _ _ _ _ ih => exact ih h
  | _ => cases h

theorem settles_unexpected (starts : List Kind) (b : Bool) :
    Settles (unexpected src starts b) := by
  have hclose : Settles closeSpan := fun s s' h => by
    unfold closeSpan at h
    split at h <;> cases h
  have hspanned : Settles (spanned src (skipRun b 0)) :=
    Settles.bind (fun _ _ => nofun) fun _ => (settles_skipRun b 0).bind fun _ =>
      hclose.bind fun _ => settles_pure _
  refine hspanned.bind fun ((last, depth), span) s s' h => ?_
  unfold report at h
  dsimp only at h
  split at h <;> cases h

theorem settles_orResync (b : Bool) (p : Production α) : Settles (orResync b p) := fun s s' h => by
  unfold orResync at h
  split at h <;> cases h

theorem settles_item? {b : Bool} {other : Production (Option Item)} (h : Settles other) :
    Settles (item? src b other) := fun s s' hs => by
  unfold item? at hs
  split at hs
  · exact settles_orResync _ _ s s' hs
  · split at hs
    · exact settles_orResync _ _ s s' hs
    · exact h s s' hs

theorem settles_orEmptyLine {p : Production (Option α)} (h : Settles p) :
    Settles (orEmptyLine p) := fun s s' hs => by
  unfold orEmptyLine at hs
  split at hs
  · exact settles_advance.bind (fun _ => settles_pure _) s s' hs
  · exact h s s' hs

theorem settles_reported (starts : List Kind) (b : Bool) :
    Settles (reported src starts b : Production (Option α)) :=
  (settles_unexpected starts b).bind fun _ => settles_pure _

theorem settles_statement : Settles (orEmptyLine (statement src)) :=
  settles_orEmptyLine (settles_item? (settles_reported _ _))

theorem settles_declaration : Settles (declaration src) := fun s s' hs => by
  unfold declaration at hs
  split at hs
  · exact settles_orResync _ _ s s' hs
  · exact (settles_item? (settles_reported _ _)).bind (fun _ => settles_pure _) s s' hs

/-- A repetition ends where it has to stop, and what each round keeps holds there. -/
theorem whileAt_ends {go : Cursor → Bool} (progress : Advances go p) {I : Cursor → Prop}
    (hp : ∀ s a s', go s = true → I s → p s = .found a s' → I s') {s s' : Cursor} {as : List α}
    (hs : I s) (h : whileAt go p progress s = .found as s') : I s' ∧ go s' = false := by
  induction s using whileAt_induction progress generalizing as with
  | stop s hgo =>
    rw [whileAt_stop progress hgo] at h
    cases h
    exact ⟨hs, hgo⟩
  | round s hgo ih =>
    obtain ⟨a, s₁, bs, hround, hrec, -⟩ := whileAt_found progress hgo h
    exact ih a s₁ hround (hp s a s₁ hgo hs hround) hrec

theorem Settles.whileAt {go : Cursor → Bool} (progress : Advances go p) (hp : Settles p) :
    Settles (whileAt go p progress) := fun s s' h => by
  induction s using whileAt_induction progress with
  | stop s hgo => rw [whileAt_stop progress hgo] at h; cases h
  | round s hgo ih =>
    rw [whileAt_go progress hgo] at h
    cases ho : p s with
    | found a s₁ =>
      rw [ho] at h
      simp only [Outcome.andThen] at h
      cases hrec : Production.whileAt go p progress s₁ with
      | found bs s₂ => rw [hrec] at h; cases h
      | abandoned s₂ => rw [hrec] at h; exact ih a s₁ ho (hrec.trans h)
      | faulted e => rw [hrec] at h; cases h
    | abandoned s₁ => exact hp s s₁ ho
    | faulted e => rw [ho] at h; cases h

/-- The loop of a program takes all tokens. -/
theorem decls_found (src : List Char) {s : Cursor} (hs : BooleansSpelled s.rest) :
    ∃ ds s', decls src s = .found ds s' ∧ s'.rest = [] := by
  have h : (decls src s).GoesOn s [] := (checks_decls s rfl hs).goesOn
  generalize ho : decls src s = o at h
  cases h with
  | found =>
    have hend := (whileAt_ends (I := fun _ => True) _ (fun _ _ _ _ _ _ => trivial) trivial ho).2
    exact ⟨_, _, rfl, by simpa [inProgram] using hend⟩
  | abandoned =>
    exact absurd ho (Settles.whileAt _ (settles_orEmptyLine settles_declaration) _ _)

theorem parse_of_decls {ts : List Token} {ds : List (Option Decl)} {s : Cursor}
    (h : decls src ⟨ts, [], []⟩ = .found ds s) :
    parse src ts = .ok ⟨ds.filterMap id, s.errors⟩ := by
  rw [parse, declarations, bind_run h]; rfl

/-- Tokens are read without a fault. They are a program with the declarations that were read, or
the first error is about the first token that makes them none. -/
theorem parse_spec (src : List Char) {ts : List Token} (hts : BooleansSpelled ts) :
    ∃ p, parse src ts = .ok p ∧ (p.errors = [] ∧ Derives ts p.declarations ∨
      ∃ e es, p.errors = e :: es ∧ Blames src (.start false) ts e) := by
  obtain ⟨ds, s, hrun, -⟩ := decls_found src (s := ⟨ts, [], []⟩) hts
  refine ⟨_, parse_of_decls hrun, ?_⟩
  have h : CheckOutcome src (.start false) _ ⟨ts, [], []⟩ (decls src ⟨ts, [], []⟩) :=
    checks_decls _ rfl hts
  rw [hrun] at h
  cases h with
  | @found _ us ts' rest phrase =>
    obtain ⟨hds, rfl⟩ := phrase
    obtain rfl : ts = us := by simpa using rest
    exact .inl ⟨rfl, .intro hds⟩
  | @failed _ e blames goesOn =>
    cases goesOn with
    | found after =>
      obtain ⟨es, hes⟩ := after.errors
      exact .inr ⟨e, es, hes.symm, blames⟩

end Ends

end ScripCheck
