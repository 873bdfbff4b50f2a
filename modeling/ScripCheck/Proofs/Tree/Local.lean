import ScripCheck.Proofs.Tree.Phrase

/-!
# What is read in front of other tokens

A production that leaves a token never saw the end of the tokens. So it does the same where more
tokens stand behind them.

* `Cursor.append`, `Outcome.append`: more tokens at the end.
* `Local`: a production that does the same in front of more tokens, if it leaves one.
* `local_name`, ..., `local_parts`: one lemma for each production of a body.
-/

namespace ScripCheck

open Production

/-- The cursor with more tokens at the end. -/
def Cursor.append (s : Cursor) (ts : List Token) : Cursor := { s with rest := s.rest ++ ts }

namespace Outcome

variable {α : Type}

/-- The outcome with more tokens at the end. -/
def append (ts : List Token) : Outcome α → Outcome α
  | found a s => found a (s.append ts)
  | abandoned s => abandoned (s.append ts)
  | faulted f => faulted f

/-- There is no fault, and a token is left. -/
def Leaves : Outcome α → Prop
  | found _ s => s.rest ≠ []
  | abandoned s => s.rest ≠ []
  | faulted _ => False

end Outcome

/-- The production does the same in front of more tokens, if it leaves one. -/
structure Local {α : Type} (p : Production α) : Prop where
  shrinks : Shrinks p
  run (s : Cursor) (ts : List Token) : (p s).Leaves → p (s.append ts) = (p s).append ts

section Rules

variable {α β : Type} {p : Production α} {f : α → Production β} {s : Cursor} {src : List Char}
  {kinds : List Kind} {ts : List Token}

/-- What leaves a token starts at one. -/
theorem Shrinks.rest_ne_nil (hp : Shrinks p) (h : (p s).Leaves) : s.rest ≠ [] := by
  intro hs
  have hle := hp s
  rw [hs] at hle
  cases ho : p s with
  | found a s' => rw [ho] at h hle; exact h (List.eq_nil_of_length_eq_zero (Nat.le_zero.mp hle))
  | abandoned s' => rw [ho] at h hle; exact h (List.eq_nil_of_length_eq_zero (Nat.le_zero.mp hle))
  | faulted e => rw [ho] at h; exact h

theorem Local.pure (a : α) : Local (pure a : Production α) := ⟨shrinks_pure a, fun _ _ _ => rfl⟩

theorem Local.bind (hp : Local p) (hf : ∀ a, Local (f a)) : Local (p >>= f) := by
  refine ⟨hp.shrinks.bind fun a => (hf a).shrinks, fun s ts h => ?_⟩
  have hrun := hp.run s ts
  rw [bind_apply] at h ⊢
  rw [bind_apply]
  cases ho : p s with
  | found a s' =>
    rw [ho] at h hrun
    rw [hrun ((hf a).shrinks.rest_ne_nil h)]
    exact (hf a).run s' ts h
  | abandoned s' =>
    rw [ho] at h hrun
    rw [hrun h]; rfl
  | faulted e => rw [ho] at h; exact h.elim

theorem Cursor.at?_append (h : s.rest ≠ []) : (s.append ts).at? kinds = s.at? kinds := by
  obtain ⟨t, us, hs⟩ := List.exists_cons_of_ne_nil h
  simp [Cursor.at?, Cursor.append, hs]

theorem Cursor.here_append (h : s.rest ≠ []) : (s.append ts).here src = s.here src := by
  obtain ⟨t, us, hs⟩ := List.exists_cons_of_ne_nil h
  simp [Cursor.here, Cursor.append, hs]

theorem Cursor.found_append (h : s.rest ≠ []) : (s.append ts).found = s.found := by
  obtain ⟨t, us, hs⟩ := List.exists_cons_of_ne_nil h
  simp [Cursor.found, Cursor.append, hs]

/-- A choice by the next token. -/
theorem Local.ite {q : Production α} (hp : Local p) (hq : Local q) :
    Local (fun s => if s.at? kinds then p s else q s) := by
  have hshrinks : Shrinks fun s => if s.at? kinds then p s else q s := fun s => by
    dsimp only
    split
    · exact hp.shrinks s
    · exact hq.shrinks s
  refine ⟨hshrinks, fun s ts h => ?_⟩
  have hne := hshrinks.rest_ne_nil h
  have h : (if s.at? kinds then p s else q s).Leaves := h
  show (if (s.append ts).at? kinds then p (s.append ts) else q (s.append ts)) =
    (if s.at? kinds then p s else q s).append ts
  rw [Cursor.at?_append hne]
  split
  · next hat => rw [if_pos hat] at h; exact hp.run s ts h
  · next hat => rw [if_neg hat] at h; exact hq.run s ts h

theorem local_advance : Local advance := by
  refine ⟨shrinks_advance, fun s ts h => ?_⟩
  obtain ⟨t, us, hs⟩ := List.exists_cons_of_ne_nil (shrinks_advance.rest_ne_nil h)
  have hs' : (s.append ts).rest = t :: (us ++ ts) := by rw [Cursor.append, hs]; rfl
  rw [advance_run hs, advance_run hs']; rfl

theorem local_require : Local (require src kinds) := by
  refine ⟨shrinks_require src, fun s ts h => ?_⟩
  have hne := (shrinks_require src).rest_ne_nil h
  unfold require
  rw [Cursor.at?_append hne, Cursor.here_append hne, Cursor.found_append hne]
  split <;> rfl

theorem local_expect : Local (expect src kinds) := local_require.bind fun _ => local_advance

theorem Local.spanned (hp : Local p) : Local (spanned src p) := by
  have hopen : Local (openSpan src) :=
    ⟨shrinks_openSpan src, fun s ts h => by
      have hne : s.rest ≠ [] := h
      unfold openSpan
      rw [Cursor.here_append hne]; rfl⟩
  have hclose : Local closeSpan := by
    refine ⟨shrinks_closeSpan, fun s ts _ => ?_⟩
    cases hspans : s.spans <;> simp [closeSpan, Cursor.append, hspans, Outcome.append]
  exact hopen.bind fun _ => hp.bind fun _ => hclose.bind fun _ => .pure _

theorem Local.whileAt {go : Cursor → Bool} {progress : Advances go p} (hp : Local p)
    (hgo : ∀ s ts, s.rest ≠ [] → go (s.append ts) = go s) : Local (whileAt go p progress) := by
  refine ⟨shrinks_whileAt progress, fun s ts h => ?_⟩
  have hgo' := hgo s ts ((shrinks_whileAt progress).rest_ne_nil h)
  induction s using whileAt_induction progress with
  | stop s hg => rw [whileAt_stop progress hg, whileAt_stop progress (hgo'.trans hg)]; rfl
  | round s hg ih =>
    have hrun := hp.run s ts
    rw [whileAt_go progress hg] at h ⊢
    rw [whileAt_go progress (hgo'.trans hg)]
    cases ho : p s with
    | found a s' =>
      rw [ho] at h hrun
      have hleaves : (Production.whileAt go p progress s').Leaves := by
        simp only [Outcome.andThen] at h
        generalize Production.whileAt go p progress s' = o at h
        cases o <;> exact h
      have hne := (shrinks_whileAt progress).rest_ne_nil hleaves
      rw [hrun hne]
      simp only [Outcome.append, Outcome.andThen]
      rw [ih a s' ho hleaves (hgo s' ts hne)]
      cases Production.whileAt go p progress s' <;> rfl
    | abandoned s' => rw [ho] at h hrun; rw [hrun h]; rfl
    | faulted e => rw [ho] at h; exact h.elim

/-! ## Going on after an error -/

theorem resync_append {b : Bool} {depth : Int} (h : (resync b depth s).rest ≠ []) :
    resync b depth (s.append ts) = (resync b depth s).append ts := by
  induction s using Cursor.pass_induction generalizing depth with
  | nil s hs =>
    rw [resync_nil hs] at h
    exact absurd hs h
  | cons s t us hs ih =>
    have hs' : (s.append ts).rest = t :: (us ++ ts) := by rw [Cursor.append, hs]; rfl
    rw [resync_cons hs] at h ⊢
    rw [resync_cons hs']
    split
    · rfl
    · split
      · rfl
      · split
        · rfl
        · next h₁ h₂ h₃ =>
          rw [if_neg h₁, if_neg h₂, if_neg h₃] at h
          exact ih h

theorem shrinks_skipRun (b : Bool) (depth : Int) : Shrinks (skipRun b depth) := fun s =>
  (advances_skipRun b depth s rfl).mono fun _ => Nat.le_of_lt

theorem local_skipRun (b : Bool) (depth : Int) : Local (skipRun b depth) := by
  refine ⟨shrinks_skipRun b depth, fun s ts h => ?_⟩
  induction s using Cursor.pass_induction generalizing depth with
  | nil s hs =>
    rw [skipRun_nil hs] at h
    exact h.elim
  | cons s t us hs ih =>
    have hs' : (s.append ts).rest = t :: (us ++ ts) := by rw [Cursor.append, hs]; rfl
    have hne : us ≠ [] := by
      -- the last token would be the last of the run
      rintro rfl
      rw [skipRun_cons hs, if_pos (.inr (.inl rfl))] at h
      exact h rfl
    have hstarts (kinds : List Kind) : Starts kinds (us ++ ts) ↔ Starts kinds us := by
      obtain ⟨u, us, rfl⟩ := List.exists_cons_of_ne_nil hne
      exact Iff.rfl
    simp only [skipRun_cons hs'] at h ⊢
    simp only [skipRun_cons hs, hstarts, hne, List.append_eq_nil_iff, false_and] at h ⊢
    split
    · rfl
    · next hmore =>
      rw [if_neg hmore] at h
      exact ih _ h

theorem local_unexpected (starts : List Kind) (b : Bool) : Local (unexpected src starts b) := by
  refine (local_skipRun b 0).spanned.bind fun ((t, depth), span) =>
    ⟨shrinks_report src starts b t depth span, fun s ts h => ?_⟩
  unfold report at h ⊢
  dsimp only at h ⊢
  split
  · rfl
  · next hgroup =>
    rw [if_neg hgroup] at h
    exact congrArg (Outcome.found ()) (resync_append (s := s.record _) h)

theorem shrinks_orResync (b : Bool) (hp : Shrinks p) : Shrinks (orResync b p) := fun s => by
  have h := hp s
  unfold orResync
  split
  · next hr => rw [hr] at h; exact h
  · next hr => rw [hr] at h; exact Nat.le_trans (length_resync_le ..) h
  · trivial

theorem Local.orResync (b : Bool) (hp : Local p) : Local (orResync b p) := by
  refine ⟨shrinks_orResync b hp.shrinks, fun s ts h => ?_⟩
  have hrun := hp.run s ts
  unfold ScripCheck.orResync at h ⊢
  cases ho : p s with
  | found a s' =>
    rw [ho] at h hrun
    rw [hrun h]; rfl
  | abandoned s' =>
    rw [ho] at h hrun
    have hne : s'.rest ≠ [] := by
      intro hnil
      refine h ?_
      rw [resync_nil (by exact hnil)]
      exact hnil
    rw [hrun hne]
    exact congrArg (Outcome.found none) (resync_append h)
  | faulted e => rw [ho] at h; exact h.elim

end Rules

/-! ## Productions -/

section Productions

variable {src : List Char} {b : Bool}

theorem local_dottedWord : Local (dottedWord src) := local_advance.bind fun _ => local_expect

theorem local_name : Local (name src) :=
  Local.bind (Local.spanned (local_expect.bind fun _ =>
    Local.bind (local_dottedWord.whileAt fun _ _ h => Cursor.at?_append h) fun _ => .pure _))
    fun _ => .pure _

theorem local_literalValue (t : Token) : Local (literalValue t) := by
  have hnumber (v : Option Value) : Local (numberOr t.span v) := by
    refine ⟨shrinks_numberOr t.span v, fun s ts _ => ?_⟩
    cases v <;> rfl
  have hboolean : Local (boolean t.text) := by
    refine ⟨shrinks_boolean t.text, fun s ts _ => ?_⟩
    unfold boolean
    split
    · rfl
    · split <;> rfl
  unfold literalValue
  split
  · exact .pure _
  · exact hboolean
  · exact hnumber _
  · exact hnumber _

theorem local_literal : Local (literal src) :=
  local_expect.bind fun t => (local_literalValue t).bind fun _ => .pure _

theorem local_varDef : Local (varDef src) :=
  Local.bind (Local.spanned (Local.bind (Local.bind local_expect.spanned fun _ => .pure _)
    fun _ => local_name.bind fun _ => local_expect.bind fun _ => local_literal.bind fun _ =>
      local_require.bind fun _ => .pure _)) fun _ => .pure _

theorem local_varItem : Local (varItem src) := local_varDef.bind fun _ => .pure _

theorem local_globalItem : Local (globalItem src) :=
  Local.bind (Local.spanned (local_advance.bind fun _ => local_varDef)) fun _ => .pure _

theorem Local.terminated {α : Type} {p : Production α} (hp : Local p) : Local (terminated p) :=
  hp.bind fun _ => local_advance.bind fun _ => .pure _

theorem local_item? {other : Production (Option Item)} (h : Local other) :
    Local (item? src b other) :=
  .ite (local_varItem.terminated.orResync b) (.ite (local_globalItem.terminated.orResync b) h)

theorem local_statement : Local (orEmptyLine (statement src)) :=
  .ite (local_advance.bind fun _ => .pure _)
    (local_item? ((local_unexpected _ true).bind fun _ => .pure _))

theorem local_parts : Local (parts src) := by
  refine local_statement.whileAt fun s ts h => ?_
  rw [inBlock, inBlock, Cursor.at?_append h]
  obtain ⟨t, us, hs⟩ := List.exists_cons_of_ne_nil h
  simp [Cursor.append, hs]

end Productions

end ScripCheck
