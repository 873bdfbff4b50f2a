import ScripCheck.Proofs.Tree.Body

/-!
# How far a statement reaches

A statement that is given up is skipped as a whole: up to the next line break, or up to the brace
that closes a group that was opened in it.

* `Extent`: tokens that reach just past the end of a statement. A line does (`extent_line`), and so
  does a group of braces with what stands before it on its line (`extent_group`).
* `resync_extent`, `unexpected_extent`: wherever in the statement skipping starts, it takes the rest
  of the statement and no more.
* `GivenUp`: a statement is taken with one error. `item?_extent`: that is how every statement ends
  that is no item.
-/

namespace ScripCheck

open Production

/-- From the depth `depth` on, the tokens reach just past the end of a statement, and no further. -/
def Extent (inBody : Bool) (depth : Int) : List Token → Prop
  | [] => False
  | t :: ts =>
    if depth = 0 ∧ t.kind = .newline then ts = []
    else if closesGroup inBody depth t.kind then False
    else if closesGroup inBody (depthAfter inBody depth t.kind) t.kind then ts = []
    else Extent inBody (depthAfter inBody depth t.kind) ts

section Extents

variable {b : Bool} {d : Int} {t r : Token} {us vs ws ts : List Token} {s : Cursor}

theorem Extent.ne_nil (h : Extent b d us) : us ≠ [] := by
  rintro rfl
  exact h

/-- A brace that closes the body is not part of a statement of the body. -/
theorem Extent.not_rbrace (h : Extent true 0 us) : ¬ Starts [.rbrace] us := by
  intro hk
  cases us with
  | nil => exact hk
  | cons t us =>
    have hk : t.kind = .rbrace := List.mem_singleton.mp hk
    simp [Extent, hk, closesGroup] at h

theorem depthAfter_inline (b : Bool) (d : Int) {k : Kind} (hk : k ∉ enders) :
    depthAfter b d k = d := by
  have hnesting : k.nesting = 0 := by
    cases k <;> simp_all [enders, Kind.nesting]
  simp [depthAfter, hnesting]

/-- What goes past a token within a line goes on from there. -/
theorem extent_cons_inline (ht : t.kind ∉ enders) : Extent b d (t :: us) ↔ Extent b d us := by
  have hbrace : t.kind ≠ .rbrace := fun h => ht (by simp [enders, h])
  have hnewline : t.kind ≠ .newline := fun h => ht (by simp [enders, h])
  simp [Extent, depthAfter_inline b d ht, closesGroup, hbrace, hnewline]

theorem extent_inline_append (hvs : Inline vs) : Extent b d (vs ++ us) ↔ Extent b d us := by
  induction vs with
  | nil => exact Iff.rfl
  | cons v vs ih =>
    obtain ⟨hv, hvs⟩ := List.forall_mem_cons.mp hvs
    rw [List.cons_append, extent_cons_inline hv, ih hvs]

/-- Tokens within a line that are taken from the front of a statement are part of it. -/
theorem Extent.drop_inline (h : Extent b d us) (hus : us ++ ts = vs ++ ws) (hvs : Inline vs) :
    ∃ us', us = vs ++ us' ∧ Extent b d us' ∧ ws = us' ++ ts := by
  rcases List.append_eq_append_iff.mp hus with ⟨vs', rfl, -⟩ | ⟨us', rfl, hws⟩
  · -- a statement does not end within a line
    have hinline : Inline us := fun t ht => hvs t (List.mem_append_left vs' ht)
    rw [← List.append_nil us, extent_inline_append hinline] at h
    exact h.elim
  · exact ⟨us', rfl, (extent_inline_append hvs).mp h, hws⟩

/-! ## Lines and groups -/

/-- Outside of bodies a line is a statement, whatever is on it. -/
theorem extent_topLine (hline : ∀ t ∈ us, t.kind ≠ .newline) (ht : t.kind = .newline) :
    Extent false 0 (us ++ [t]) := by
  induction us with
  | nil => simp [Extent, ht]
  | cons u us ih =>
    obtain ⟨hu, hus⟩ := List.forall_mem_cons.mp hline
    simpa [Extent, hu, closesGroup, depthAfter] using ih hus

theorem extent_line (hus : Inline us) (ht : t.kind = .newline) : Extent b 0 (us ++ [t]) := by
  rw [extent_inline_append hus]
  simp [Extent, ht]

/-- Tokens that close all groups but one, and the brace that closes this one. -/
theorem Closes.extent (hus : Closes d us) (hr : r.kind = .rbrace) :
    Extent true (d + 1) (us ++ [r]) := by
  induction us generalizing d with
  | nil =>
    obtain rfl : d = 0 := hus
    simp [Extent, hr, closesGroup, depthAfter, Kind.nesting]
  | cons u us ih =>
    obtain ⟨hd, hclose⟩ := hus
    have hnonneg := hclose.nonneg
    have hdepth : depthAfter true (d + 1) u.kind = d + u.kind.nesting + 1 := by
      simp only [depthAfter, if_true]
      omega
    have hopen (x : Int) (hx : 0 ≤ x) : closesGroup true (x + 1) u.kind = false := by
      simp only [closesGroup, Bool.true_and, Bool.and_eq_false_iff, beq_eq_false_iff_ne]
      exact .inl (by omega)
    rw [List.cons_append, Extent, if_neg (by omega), hopen d hd, hdepth, hopen _ hnonneg]
    exact ih hclose

theorem extent_group {l : Token} (hus : Inline us) (hl : l.kind = .lbrace) (hvs : Balanced vs)
    (hr : r.kind = .rbrace) : Extent true 0 (us ++ l :: (vs ++ [r])) := by
  rw [extent_inline_append hus]
  have hgroup := hvs.closes.extent hr
  simpa [Extent, hl, closesGroup, depthAfter, Kind.nesting] using hgroup

/-! ## Skipping -/

/-- Going on after an error takes the rest of the statement. -/
theorem resync_extent (h : Extent b d us) (hs : s.rest = us ++ ts) :
    resync b d s = s.past us ts := by
  induction us generalizing s d with
  | nil => exact h.elim
  | cons t us ih =>
    rw [resync_cons (show s.rest = t :: (us ++ ts) from hs)]
    unfold Extent at h
    split at h
    · next hend => subst h; rw [if_pos hend]; rfl
    · next hend =>
      split at h
      · exact h.elim
      · next hclose =>
        rw [if_neg hend, if_neg hclose]
        split at h
        · next hgroup => subst h; rw [if_pos hgroup]; rfl
        · next hgroup => rw [if_neg hgroup, ih h rfl]; rfl

/-- A run that is skipped lies in the statement, and goes to its end if it closes a group. -/
theorem skipRun_extent (h : Extent b d us) (hline : d = 0 → ¬ Starts [.newline] us)
    (hs : s.rest = us ++ ts) : ∃ t d' vs ws, us = vs ++ ws ∧ Skips b d s t d' vs (ws ++ ts) ∧
      if closesGroup b d' t.kind then ws = [] else Extent b d' ws := by
  induction us generalizing s d with
  | nil => exact h.elim
  | cons t us ih =>
    unfold Extent at h
    rw [if_neg fun hend => hline hend.1 (List.mem_singleton.mpr hend.2)] at h
    split at h
    · exact h.elim
    · split at h
      · next hgroup =>
        subst h
        exact ⟨t, _, [t], [], rfl, .last hs (.inl hgroup), by rw [if_pos hgroup]⟩
      · next hgroup =>
        by_cases hend : EndsRun b (depthAfter b d t.kind) t.kind (us ++ ts)
        · exact ⟨t, _, [t], us, rfl, .last hs hend, by rwa [if_neg hgroup]⟩
        · -- the run does not stop here, so no line break is next
          have hnext : ¬ Starts [.newline] us := fun hstarts => by
            refine hend (.inr (.inr (.inl ?_)))
            cases us with
            | nil => exact hstarts.elim
            | cons u us =>
              have hmore : Starts [.ident, .newline] (u :: us) := hstarts.mono (by simp)
              exact hmore
          obtain ⟨u, d', vs, ws, rfl, hskips, hrest⟩ :=
            ih (s := s.pass t (us ++ ts)) h (fun _ => hnext) rfl
          exact ⟨u, d', t :: vs, ws, rfl, hskips.cons hs hend, hrest⟩

/-- Tokens that start no declaration are reported once, and the statement is skipped. -/
theorem unexpected_extent (src : List Char) (starts : List Kind) (h : Extent b 0 us)
    (hline : ¬ Starts [.newline] us) (hs : s.rest = us ++ ts) :
    ∃ e, unexpected src starts b s = .found () ((s.record e).past us ts) := by
  obtain ⟨t, d, vs, ws, rfl, hskips, hend⟩ :=
    skipRun_extent (s := s.opened src) h (fun _ => hline) hs
  rw [unexpected_run src starts hskips, report]
  refine ⟨⟨.expected starts (.text (String.ofList ((cover vs).slice src))), cover vs⟩, ?_⟩
  split
  · next hgroup =>
    rw [if_pos hgroup] at hend
    subst hend
    rw [List.append_nil]; rfl
  · next hgroup =>
    rw [if_neg hgroup] at hend
    rw [resync_extent hend (by rfl)]
    exact congrArg (Outcome.found ()) (Cursor.past_past (s := s.record _))

/-! ## Statements -/

/-- A statement is taken, with one error and without a value. The tokens `ts` are left. -/
def GivenUp {α : Type} (s : Cursor) (ts : List Token) (o : Outcome (Option α)) : Prop :=
  ∃ e s', o = .found none s' ∧ s'.rest = ts ∧ s'.errors = s.errors ++ [e] ∧
    s'.spans.length = s.spans.length

/-- A production gives up within a line, with one error. -/
def Quits {α : Type} (s : Cursor) (o : Outcome α) : Prop :=
  ∃ e us s', o = .abandoned s' ∧ s.rest = us ++ s'.rest ∧ Inline us ∧
    s'.errors = s.errors ++ [e] ∧ s.spans.length ≤ s'.spans.length

/-- What gives up within a line leaves the rest of the statement to be skipped. -/
theorem Quits.givenUp {α : Type} {p : Production α} (hp : Quits s (p s)) (h : Extent b 0 us)
    (hs : s.rest = us ++ ts) : GivenUp s ts (orResync b p s) := by
  obtain ⟨e, vs, s', hrun, hrest, hvs, herrors, hdepth⟩ := hp
  obtain ⟨us', rfl, hus', hs'⟩ := h.drop_inline (hs.symm.trans hrest) hvs
  unfold orResync
  rw [hrun]
  refine ⟨e, _, congrArg (Outcome.found none) (resync_extent hus' hs'), rfl, herrors, ?_⟩
  simp only [Cursor.past, Cursor.length_widenBy, List.length_drop]
  omega

variable {src : List Char} {q : Expectation}

/-- A line is an item with its line break, or it is given up. -/
theorem LineOutcome.givenUp {p : Production Item} (hp : LineOutcome src q s (p s))
    (h : Extent b 0 us) (hno : ¬ ∃ i, PartPhrase us (some i)) (hs : s.rest = us ++ ts) :
    GivenUp s ts (orResync b p s) := by
  cases ho : p s with
  | found i s' =>
    rw [ho] at hp
    cases hp with
    | @found _ vs ts' t rest inline item newline =>
      obtain ⟨us', rfl, hus', hts'⟩ := h.drop_inline (hs.symm.trans rest) inline
      -- the line break ends the statement
      cases us' with
      | nil => exact hus'.elim
      | cons u us' =>
        obtain ⟨rfl, -⟩ := List.cons.inj hts'
        obtain rfl : us' = [] := by simpa [Extent, newline] using hus'
        exact absurd ⟨i, .item item newline⟩ hno
  | abandoned s' =>
    rw [ho] at hp
    cases hp with
    | abandoned rest inline errors blames depth =>
      exact Quits.givenUp ⟨_, _, s', ho, rest, inline, errors, depth⟩ h hs
  | faulted f => rw [ho] at hp; cases hp

/-- A statement that is no item is given up. -/
theorem item?_givenUp (src : List Char) (starts : List Kind) (h : Extent b 0 us)
    (hline : ¬ Starts [.newline] us) (hno : ¬ ∃ i, PartPhrase us (some i)) (hs : s.rest = us ++ ts)
    (hspelled : BooleansSpelled s.rest) :
    GivenUp s ts (item? src b (reported src starts b) s) := by
  unfold item?
  split
  · next hat =>
    have hline : LineOutcome src (.start b) s (terminated (varItem src) s) :=
      (reads_varItem (Cursor.at?_iff.mp hat)).terminated hspelled
    exact hline.givenUp h hno hs
  · split
    · next hat =>
      have hline : LineOutcome src (.start b) s (terminated (globalItem src) s) :=
        (reads_globalItem (Cursor.at?_iff.mp hat)).terminated hspelled
      exact hline.givenUp h hno hs
    · obtain ⟨e, hrun⟩ := unexpected_extent src starts h hline hs
      exact ⟨e, _, bind_run hrun, rfl, rfl, Cursor.length_widenBy ..⟩

/-- An item and its line break are one item. -/
theorem partPhrase_line {i : Item} (ht : t.kind = .newline) :
    PartPhrase (us ++ [t]) (some i) ↔ ItemPhrase us i := by
  refine ⟨fun h => ?_, fun h => .item h ht⟩
  generalize hvs : us ++ [t] = vs at h
  cases h with
  | item item newline =>
    obtain ⟨rfl, -⟩ := List.append_inj' hvs rfl
    exact item

/-- A statement that ends in a brace is no item. -/
theorem not_partPhrase_group {i : Item} (hr : r.kind = .rbrace) :
    ¬ PartPhrase (us ++ [r]) (some i) := by
  intro h
  generalize hvs : us ++ [r] = vs at h
  cases h with
  | item item newline =>
    obtain ⟨-, hend⟩ := List.append_inj' hvs rfl
    rw [← (List.cons.inj hend).1, hr] at newline
    cases newline

/-- A statement is an item without errors, or it has no item and one error. -/
def ItemOrError (us : List Token) (i : Option Item) (es : List SyntaxError) : Prop :=
  (PartPhrase us i ∧ i ≠ none ∧ es = []) ∨
    ((¬ ∃ i, PartPhrase us (some i)) ∧ i = none ∧ ∃ e, es = [e])

/-- A statement is read as an item, or it is given up. -/
theorem item?_extent (src : List Char) (starts : List Kind) (h : Extent b 0 us)
    (hline : ¬ Starts [.newline] us) (hs : s.rest = us ++ ts) (hspelled : BooleansSpelled s.rest) :
    ∃ i es s', item? src b (reported src starts b) s = .found i s' ∧ ItemOrError us i es ∧
      s'.rest = ts ∧ s'.errors = s.errors ++ es ∧ s'.spans.length = s.spans.length := by
  by_cases hitem : ∃ i, PartPhrase us (some i)
  · obtain ⟨i, hi⟩ := hitem
    refine ⟨some i, [], s.past us ts, ?_, .inl ⟨hi, Option.some_ne_none i, rfl⟩, rfl,
      (List.append_nil _).symm, Cursor.length_widenBy ..⟩
    cases hi with
    | item item newline => exact item?_run src b item newline (by rw [hs, List.append_assoc]; rfl)
  · obtain ⟨e, s', hrun, hrest, herrors, hdepth⟩ :=
      item?_givenUp src starts h hline hitem hs hspelled
    exact ⟨none, [e], s', hrun, .inr ⟨hitem, rfl, e, rfl⟩, hrest, herrors, hdepth⟩

theorem orEmptyLine_of_not_starts {α : Type} {p : Production (Option α)} (hs : s.rest = us ++ ts)
    (hne : us ≠ []) (hline : ¬ Starts [.newline] us) : orEmptyLine p s = p s := by
  obtain ⟨u, us, rfl⟩ := List.exists_cons_of_ne_nil hne
  exact if_neg (Cursor.at?_of_not_starts hs hline)

end Extents

end ScripCheck
