import ScripCheck.Proofs.Tree.Recovered
import ScripCheck.Proofs.Tree.Reported

/-!
# Recovery token by token

In a body, recovery takes one token after the other. It collects the tokens that it reports, and
then it looks for the next statement; after a declaration that was given up, only the second is
left.

* `Recovery`: where recovery stands. `Recovery.outcome`: what it has still to do.
* `Recovery.Step`, `Recovery.Steps`: it takes tokens. `Recovery.Ends`: it takes no more.
* `Recovery.Sound`: no brace closed a group that was not open. Every step keeps this
  (`Sound.step`), and from there recovery comes to its end (`Sound.ends`).
* `Recovery.Begins`: how recovery of a statement begins. `Begins.accounted`: what holds from then
  on, until it ends.
-/

namespace ScripCheck

open Production

/-- What recovery is doing. -/
inductive Recovery.Stage where
  /-- It collects tokens, which are reported together. -/
  | collecting
  /-- It looks for the next statement. -/
  | resyncing
  | finished

/-- What recovery is doing after a token that may be its last one. -/
def Recovery.Stage.after (last : Bool) : Stage := if last then .finished else .resyncing

/-- Where recovery in a body stands. -/
structure Recovery where
  stage : Recovery.Stage
  /-- How many braces were opened and not closed since the statement started. -/
  depth : Int
  cursor : Cursor

/-- The cursor `s'`, without the spans that were opened since `s`. -/
def Cursor.unwound (s s' : Cursor) : Cursor :=
  { s' with spans := s'.spans.drop (s'.spans.length - s.spans.length) }

namespace Recovery

/-- What recovery has still to do. -/
def outcome (src : List Char) (m : Recovery) : Outcome Unit :=
  match m.stage with
  | .collecting => (do
      let (last, depth) ← skipRun true m.depth
      let span ← closeSpan
      report src statementStarts true last depth span : Production Unit) m.cursor
  | .resyncing => .found () (resync true m.depth m.cursor)
  | .finished => .found () m.cursor

/-- Recovery takes the token `t`. -/
inductive Step (src : List Char) : Recovery → Token → Recovery → Prop where
  /-- The token is collected, and so will be the next one. -/
  | collect {d : Int} {s : Cursor} {t : Token} {ts : List Token} (rest : s.rest = t :: ts)
    (more : ¬ EndsRun true (depthAfter true d t.kind) t.kind ts) :
    Step src ⟨.collecting, d, s⟩ t ⟨.collecting, depthAfter true d t.kind, s.pass t ts⟩
  /-- The token is the last one that is collected, and they are reported. -/
  | report {d : Int} {s s' : Cursor} {t : Token} {ts : List Token} {span : Span}
    (rest : s.rest = t :: ts) (ends : EndsRun true (depthAfter true d t.kind) t.kind ts)
    (close : closeSpan (s.pass t ts) = .found span s') :
    Step src ⟨.collecting, d, s⟩ t
      ⟨.after (closesGroup true (depthAfter true d t.kind) t.kind), depthAfter true d t.kind,
        s'.record ⟨.expected statementStarts (.text (String.ofList (span.slice src))), span⟩⟩
  /-- The token is skipped. A line break is the last one, and so is a brace that closes a group. -/
  | resync {d : Int} {s : Cursor} {t : Token} {ts : List Token} (rest : s.rest = t :: ts)
    (inside : closesGroup true d t.kind = false) :
    Step src ⟨.resyncing, d, s⟩ t
      ⟨.after (d == 0 && t.kind == .newline ||
          closesGroup true (depthAfter true d t.kind) t.kind),
        depthAfter true d t.kind, s.pass t ts⟩

/-- Recovery takes the tokens. -/
inductive Steps (src : List Char) : Recovery → List Token → Recovery → Prop where
  | refl (m : Recovery) : Steps src m [] m
  | step {m m₁ m' : Recovery} {t : Token} {us : List Token} (first : Step src m t m₁)
    (more : Steps src m₁ us m') : Steps src m (t :: us) m'

/-- Recovery takes no more tokens, and nothing is left to do. -/
structure Ends (src : List Char) (m : Recovery) : Prop where
  last : ∀ t m', ¬ Step src m t m'
  done : m.outcome src = .found () m.cursor

/-- While tokens are collected, their span is open, and the next one does not end the body. -/
structure Collects (depth : Int) (s : Cursor) : Prop where
  spans : s.spans ≠ []
  next : s.rest ≠ []
  inside : depth = 0 → ¬ Starts [.rbrace] s.rest

/-- No brace closed a group that was not open. -/
structure Sound (m : Recovery) : Prop where
  depth : 0 ≤ m.depth
  collects : m.stage = .collecting → Collects m.depth m.cursor

section

variable {src : List Char} {m m' : Recovery} {t : Token} {us : List Token}

theorem Stage.after_ne_collecting (last : Bool) : Stage.after last ≠ .collecting := by
  cases last <;> nofun

theorem outcome_after (src : List Char) (last : Bool) (d : Int) (s : Cursor) :
    outcome src ⟨.after last, d, s⟩ =
      if last then .found () s else .found () (ScripCheck.resync true d s) := by
  cases last <;> rfl

/-! ## One token -/

theorem Step.rest (h : Step src m t m') : m.cursor.rest = t :: m'.cursor.rest := by
  cases h with
  | collect rest => exact rest
  | report rest _ close => exact rest.trans (congrArg (t :: ·) (closeSpan_rest close).symm)
  | resync rest => exact rest

theorem Step.depth (h : Step src m t m') : m'.depth = m.depth + t.kind.nesting := by
  cases h <;> rfl

/-- The same is done whether the next token is still to be taken or not. -/
theorem Step.outcome (h : Step src m t m') : m.outcome src = m'.outcome src := by
  cases h with
  | collect rest more =>
    have hrun := (skipRun_cons rest).trans (if_neg more)
    show (skipRun true _ _).andThen _ = (skipRun true _ _).andThen _
    rw [hrun]
  | @report _ s _ _ ts _ rest ends close =>
    have hrun := (skipRun_cons rest).trans (if_pos ends)
    rw [outcome_after]
    show (skipRun true _ s).andThen _ = _
    rw [hrun]
    show (closeSpan (s.pass t ts)).andThen _ = _
    rw [close]; rfl
  | @resync d s _ ts rest inside =>
    rw [outcome_after]
    show Outcome.found () (ScripCheck.resync true d s) = _
    rw [resync_cons rest, inside]
    by_cases hline : d = 0 ∧ t.kind = .newline
    · simp [hline]
    · by_cases hgroup : closesGroup true (depthAfter true d t.kind) t.kind = true <;>
        simp [hline, hgroup]

theorem nesting_nonneg {k : Kind} (hk : k ≠ .rbrace) : 0 ≤ k.nesting := by
  cases k <;> simp_all [Kind.nesting]

/-- A closing brace is taken only if it closes a group that is open. -/
theorem Sound.rbrace (hm : m.Sound) (h : Step src m t m') (ht : t.kind = .rbrace) :
    0 < m.depth := by
  have hdepth := hm.depth
  have hnext : Starts [.rbrace] m.cursor.rest := by
    rw [h.rest]
    exact List.mem_singleton.mpr ht
  have hne : m.depth ≠ 0 := by
    cases h with
    | collect => exact fun hzero => (hm.collects rfl).inside hzero hnext
    | report => exact fun hzero => (hm.collects rfl).inside hzero hnext
    | resync _ inside => simpa [closesGroup, ht] using inside
  omega

theorem Sound.step (hm : m.Sound) (h : Step src m t m') : m'.Sound := by
  have hdepth : 0 ≤ m'.depth := by
    have hbefore := hm.depth
    rw [h.depth]
    by_cases ht : t.kind = .rbrace
    · have hopen := hm.rbrace h ht
      simp only [ht, Kind.nesting]
      omega
    · have hnesting := nesting_nonneg ht
      omega
  refine ⟨hdepth, fun hstage => ?_⟩
  cases h with
  | @collect d s _ ts rest more =>
    have hspans : Cursor.widen t.span.hi s.spans ≠ [] := by
      obtain ⟨top, outer, hs⟩ := List.exists_cons_of_ne_nil (hm.collects rfl).spans
      rw [show s.spans = top :: outer from hs]
      exact List.cons_ne_nil _ _
    -- the run would have ended before the end of the tokens, and before the end of the body
    exact ⟨hspans, fun hnil => more (.inr (.inl hnil)),
      fun hzero hbrace => more (.inr (.inr (.inr ⟨rfl, hzero, hbrace⟩)))⟩
  | report => exact absurd hstage (Stage.after_ne_collecting _)
  | resync => exact absurd hstage (Stage.after_ne_collecting _)

/-- A token that is left is collected. -/
theorem Collects.step {d : Int} {s : Cursor} (h : Collects d s) :
    ∃ t m', Step src ⟨.collecting, d, s⟩ t m' := by
  obtain ⟨t, ts, hs⟩ := List.exists_cons_of_ne_nil h.next
  obtain ⟨top, outer, hopen⟩ := List.exists_cons_of_ne_nil h.spans
  by_cases hend : EndsRun true (depthAfter true d t.kind) t.kind ts
  · have hclose : ∃ span s', closeSpan (s.pass t ts) = .found span s' := by
      have hpass : (s.pass t ts).spans = top.reach t.span.hi :: outer := by
        rw [Cursor.pass, hopen]; rfl
      rw [closeSpan, hpass]
      exact ⟨_, _, rfl⟩
    obtain ⟨span, s', hclose⟩ := hclose
    exact ⟨t, _, .report hs hend hclose⟩
  · exact ⟨t, _, .collect hs hend⟩

/-- Behind the last token and before the end of the body there is nothing to skip. -/
theorem ends_resyncing {d : Int} {s : Cursor}
    (h : ∀ t ts, s.rest = t :: ts → closesGroup true d t.kind = true) :
    Ends src ⟨.resyncing, d, s⟩ := by
  have hdone : ScripCheck.resync true d s = s := by
    cases hs : s.rest with
    | nil => exact resync_nil hs
    | cons t ts =>
      have hclose := h t ts hs
      have hnewline : ¬ (d = 0 ∧ t.kind = .newline) := fun hline => by
        rw [(closesGroup_iff.mp hclose).2] at hline
        cases hline.2
      rw [resync_cons hs, if_neg hnewline, if_pos hclose]
  refine ⟨fun t m' hstep => ?_, congrArg (Outcome.found ()) hdone⟩
  cases hstep with
  | resync rest inside =>
    rw [h t _ rest] at inside
    cases inside

/-- Recovery takes a token, or it is at its end. -/
theorem Sound.step_or_ends (hm : m.Sound) (src : List Char) :
    (∃ t m', Step src m t m') ∨ m.Ends src := by
  obtain ⟨stage, d, s⟩ := m
  cases stage with
  | collecting => exact .inl (hm.collects rfl).step
  | resyncing =>
    by_cases hskip : ∃ t ts, s.rest = t :: ts ∧ closesGroup true d t.kind = false
    · obtain ⟨t, ts, hs, hinside⟩ := hskip
      exact .inl ⟨t, _, .resync hs hinside⟩
    · refine .inr (ends_resyncing fun t ts hs => ?_)
      exact Bool.of_not_eq_false fun hinside => hskip ⟨t, ts, hs, hinside⟩
  | finished =>
    refine .inr ⟨fun t m' h => ?_, rfl⟩
    cases h

/-! ## Many tokens -/

theorem Steps.rest (h : Steps src m us m') : m.cursor.rest = us ++ m'.cursor.rest := by
  induction h with
  | refl => rfl
  | step first _ ih => rw [first.rest, ih]; rfl

theorem Steps.depth (h : Steps src m us m') : m'.depth = m.depth + rise us := by
  induction h with
  | refl m => exact (Int.add_zero m.depth).symm
  | step first _ ih => rw [ih, first.depth, rise, Int.add_assoc]

theorem Steps.outcome (h : Steps src m us m') : m.outcome src = m'.outcome src := by
  induction h with
  | refl => rfl
  | step first _ ih => exact first.outcome.trans ih

theorem Sound.steps (hm : m.Sound) (h : Steps src m us m') : m'.Sound := by
  induction h with
  | refl => exact hm
  | step first _ ih => exact ih (hm.step first)

/-- Recovery comes to its end. -/
theorem Sound.ends (hm : m.Sound) (src : List Char) :
    ∃ us m', Steps src m us m' ∧ m'.Ends src := by
  induction hn : m.cursor.rest.length using Nat.strongRecOn generalizing m with
  | _ n ih =>
    rcases hm.step_or_ends src with ⟨t, m₁, hstep⟩ | hend
    · have hless : m₁.cursor.rest.length < n := by
        rw [← hn, hstep.rest]
        exact Nat.lt_succ_self _
      obtain ⟨us, m', hsteps, hend⟩ := ih _ hless (hm.step hstep) rfl
      exact ⟨t :: us, m', .step hstep hsteps, hend⟩
    · exact ⟨[], m, .refl m, hend⟩

end

/-! ## Statements -/

/-- Recovery of the statement at `s` begins when the tokens `us` of it are taken. -/
inductive Begins (src : List Char) (s : Cursor) : List Token → Recovery → Prop where
  /-- The next token starts no statement. -/
  | unexpected (starts : ¬ Starts [.ident, .globalWord] s.rest) :
    Begins src s [] ⟨.collecting, 0, s.opened src⟩
  /-- A variable is given up. -/
  | var {us : List Token} {s' : Cursor} (starts : Starts [.ident] s.rest)
    (run : terminated (varItem src) s = .abandoned s') (rest : s.rest = us ++ s'.rest) :
    Begins src s us ⟨.resyncing, 0, s.unwound s'⟩
  /-- A global variable is given up. -/
  | global {us : List Token} {s' : Cursor} (starts : Starts [.globalWord] s.rest)
    (run : terminated (globalItem src) s = .abandoned s') (rest : s.rest = us ++ s'.rest) :
    Begins src s us ⟨.resyncing, 0, s.unwound s'⟩

section

variable {src : List Char} {s : Cursor} {m m' : Recovery} {us vs : List Token}

theorem orResync_abandoned {p : Production Item} {s' : Cursor} (h : p s = .abandoned s') :
    orResync true p s = (outcome src ⟨.resyncing, 0, s.unwound s'⟩).map fun _ => none := by
  rw [orResync, h]; rfl

theorem unexpected_eq_outcome (src : List Char) (s : Cursor) :
    unexpected src statementStarts true s = outcome src ⟨.collecting, 0, s.opened src⟩ := by
  show ((skipRun true 0 (s.opened src)).andThen _).andThen _ =
    (skipRun true 0 (s.opened src)).andThen _
  cases skipRun true 0 (s.opened src) with
  | found x s₁ =>
    show ((closeSpan s₁).andThen _).andThen _ = (closeSpan s₁).andThen _
    cases closeSpan s₁ <;> rfl
  | abandoned s₁ => rfl
  | faulted f => rfl

/-- A statement that recovery begins for has no value, and it ends as recovery does. -/
theorem Begins.statement (h : Begins src s us m) :
    statement src s = (m.outcome src).map fun _ => none := by
  cases h with
  | unexpected starts =>
    rw [ScripCheck.statement, item?_other starts, reported, bind_apply, unexpected_eq_outcome]
    cases outcome src ⟨.collecting, 0, s.opened src⟩ <;> rfl
  | var starts run =>
    rw [ScripCheck.statement, item?, if_pos (Cursor.at?_iff.mpr starts)]
    exact orResync_abandoned run
  | global starts run =>
    have hident : ¬ Starts [.ident] s.rest := starts.disjoint (by decide)
    rw [ScripCheck.statement, item?, if_neg (mt Cursor.at?_iff.mp hident),
      if_pos (Cursor.at?_iff.mpr starts)]
    exact orResync_abandoned run

/-- A line that has no value was given up. -/
theorem givenUp_of_none {b : Bool} {q : Expectation} {p : Production Item} {s' : Cursor}
    (hline : LineOutcome src q s (p s)) (hrun : orResync b p s = .found none s') :
    ∃ us s₁, p s = .abandoned s₁ ∧ s.rest = us ++ s₁.rest := by
  obtain ⟨s₁, hgiven⟩ := orResync_none hrun
  rw [hgiven] at hline
  cases hline with
  | abandoned rest => exact ⟨_, s₁, hgiven, rest⟩

/-- Recovery begins for every statement that has no value. -/
theorem exists_begins {s' : Cursor} (hspelled : BooleansSpelled s.rest)
    (hrun : ScripCheck.statement src s = .found none s') : ∃ us m, Begins src s us m := by
  unfold ScripCheck.statement item? at hrun
  split at hrun
  · next hat =>
    have hstarts := Cursor.at?_iff.mp hat
    have hline : LineOutcome src (.start true) s (terminated (varItem src) s) :=
      (reads_varItem hstarts).terminated hspelled
    obtain ⟨us, s₁, hgiven, hrest⟩ := givenUp_of_none hline hrun
    exact ⟨us, _, .var hstarts hgiven hrest⟩
  · next hident =>
    split at hrun
    · next hat =>
      have hstarts := Cursor.at?_iff.mp hat
      have hline : LineOutcome src (.start true) s (terminated (globalItem src) s) :=
        (reads_globalItem hstarts).terminated hspelled
      obtain ⟨us, s₁, hgiven, hrest⟩ := givenUp_of_none hline hrun
      exact ⟨us, _, .global hstarts hgiven hrest⟩
    · next hglobal =>
      have hstarts : ¬ Starts ([.ident] ++ [.globalWord]) s.rest :=
        not_starts_append (mt Cursor.at?_iff.mpr hident) (mt Cursor.at?_iff.mpr hglobal)
      exact ⟨[], _, .unexpected hstarts⟩

/-- A declaration that is given up took no braces. -/
theorem rise_given_up {q : Expectation} {s' : Cursor} (h : LineOutcome src q s (.abandoned s'))
    (hs : s.rest = us ++ s'.rest) : rise us = 0 := by
  cases h with
  | abandoned rest inline =>
    obtain rfl := List.append_cancel_right (hs.symm.trans rest)
    exact rise_flat inline.flat

/-- Where recovery of a statement begins, no brace of it is taken. -/
theorem Begins.start (h : Begins src s us m) (hgo : inBlock s = true)
    (hspelled : BooleansSpelled s.rest) :
    m.Sound ∧ s.rest = us ++ m.cursor.rest ∧ m.depth = 0 ∧ rise us = 0 := by
  cases h with
  | unexpected starts =>
    obtain ⟨hnext, hinside⟩ := inBlock_iff.mp hgo
    have hcollects : Collects 0 (s.opened src) := ⟨List.cons_ne_nil _ _, hnext, fun _ => hinside⟩
    exact ⟨⟨Int.le_refl 0, fun _ => hcollects⟩, rfl, rfl, rfl⟩
  | var starts run rest =>
    have hline : LineOutcome src (.start true) s (terminated (varItem src) s) :=
      (reads_varItem starts).terminated hspelled
    exact ⟨⟨Int.le_refl 0, nofun⟩, rest, rfl, rise_given_up (run ▸ hline) rest⟩
  | global starts run rest =>
    have hline : LineOutcome src (.start true) s (terminated (globalItem src) s) :=
      (reads_globalItem starts).terminated hspelled
    exact ⟨⟨Int.le_refl 0, nofun⟩, rest, rfl, rise_given_up (run ▸ hline) rest⟩

/-- What holds where recovery of the statement at `s` stands, when the tokens `us` are taken since
the statement started. -/
structure Accounted (src : List Char) (s : Cursor) (us : List Token) (m : Recovery) : Prop where
  rest : s.rest = us ++ m.cursor.rest
  /-- The braces that are open are those of the tokens taken since. -/
  depth : m.depth = (us.map (·.kind)).count .lbrace - (us.map (·.kind)).count .rbrace
  nonneg : 0 ≤ m.depth
  /-- A closing brace is taken only where a group is open. -/
  rbrace : ∀ t m', Step src m t m' → t.kind = .rbrace → 0 < m.depth
  /-- The statement ends as recovery does from here on. -/
  statement : ScripCheck.statement src s = (m.outcome src).map fun _ => none
  ends : ∃ vs m', Steps src m vs m' ∧ m'.Ends src

theorem Begins.accounted (h : Begins src s us m) (hgo : inBlock s = true)
    (hspelled : BooleansSpelled s.rest) (hsteps : Steps src m vs m') :
    Accounted src s (us ++ vs) m' := by
  obtain ⟨hsound, hrest, hdepth, hrise⟩ := h.start hgo hspelled
  have hsound' : m'.Sound := hsound.steps hsteps
  have hdepth' : m'.depth = rise (us ++ vs) := by
    rw [hsteps.depth, hdepth, rise_append, hrise]
  exact {
    rest := by rw [hrest, hsteps.rest, List.append_assoc]
    depth := hdepth'.trans (rise_eq_counts _)
    nonneg := hsound'.depth
    rbrace := fun t m'' hstep ht => hsound'.rbrace hstep ht
    statement := hsteps.outcome ▸ h.statement
    ends := hsound'.ends src }

end

end Recovery

end ScripCheck
