import ScripCheck.Tree.Cursor

/-!
# Going on after an error

A declaration that is given up, or a token that starts none, costs one error. Reading goes on past
the next line break; inside a function body it stops before the brace that closes the body, and a
group of braces is skipped as a whole.

* `resync`: skips to where the next declaration may start.
* `unexpected`: reports a run of tokens that starts no declaration, and skips it.
* `orResync`: a declaration, or nothing after it was given up.

`depth` counts the braces that were opened and not closed since the declaration started. Outside of
bodies braces do not matter, and it stays 0.
-/

namespace ScripCheck

/-- The depth after a token of the kind. -/
def depthAfter (inBody : Bool) (depth : Int) (kind : Kind) : Int :=
  if inBody then depth + kind.nesting else depth

/-- A brace of this kind closes the last group that was open: the statement ends with it. -/
def closesGroup (inBody : Bool) (depth : Int) (kind : Kind) : Bool :=
  inBody && depth == 0 && kind == .rbrace

/-- Skips to just past the next line break, or up to the brace that closes the body. -/
def resync (inBody : Bool) (depth : Int) (s : Cursor) : Cursor :=
  match _h : s.rest with
  | [] => s
  | t :: ts =>
    if depth = 0 ∧ t.kind = .newline then s.pass t ts
    else if closesGroup inBody depth t.kind then s
    else
      let depth := depthAfter inBody depth t.kind
      if closesGroup inBody depth t.kind then s.pass t ts else resync inBody depth (s.pass t ts)
termination_by s.rest.length
decreasing_by exact Cursor.length_pass_lt _h

/-- Takes the tokens up to the next one that may start a statement or end one. The last token and
the depth after it are kept. -/
def skipRun (inBody : Bool) (depth : Int) (s : Cursor) : Outcome (Token × Int) :=
  match _h : s.rest with
  | [] => .faulted .endPassed
  | t :: ts =>
    let s' := s.pass t ts
    let depth := depthAfter inBody depth t.kind
    if closesGroup inBody depth t.kind then .found (t, depth) s'
    else if ts = [] ∨ s'.at? [.ident, .newline] then .found (t, depth) s'
    else if inBody ∧ depth = 0 ∧ s'.at? [.rbrace] then .found (t, depth) s'
    else skipRun inBody depth s'
termination_by s.rest.length
decreasing_by exact Cursor.length_pass_lt _h

/-- Reports a run of tokens that was skipped, and goes on after it. A group that the last token
closes ends the statement; no line break follows it. -/
def report (src : List Char) (starts : List Kind) (inBody : Bool) (last : Token) (depth : Int)
    (span : Span) : Production Unit := fun s =>
  let s := s.record ⟨.expected starts (.text (String.ofList (span.slice src))), span⟩
  if closesGroup inBody depth last.kind then .found () s else .found () (resync inBody depth s)

/-- Reports the tokens at the cursor, which start no declaration. -/
def unexpected (src : List Char) (starts : List Kind) (inBody : Bool) : Production Unit := do
  let ((last, depth), span) ← spanned src (skipRun inBody 0)
  report src starts inBody last depth span

/-- What the production reads. If it gives up, the spans that it opened are dropped, and reading
goes on at the next statement. -/
def orResync {α : Type} (inBody : Bool) (p : Production α) : Production (Option α) := fun s =>
  match p s with
  | .found a s' => .found (some a) s'
  | .abandoned s' =>
    .found none (resync inBody 0 { s' with
      spans := s'.spans.drop (s'.spans.length - s.spans.length) })
  | .faulted e => .faulted e

/-! ## Progress -/

theorem length_resync_le (inBody : Bool) (depth : Int) (s : Cursor) :
    (resync inBody depth s).rest.length ≤ s.rest.length := by
  fun_induction resync inBody depth s with
  | case1 s h => exact Nat.le_refl _
  | case2 depth s t ts h => exact Nat.le_of_lt (Cursor.length_pass_lt h)
  | case3 => exact Nat.le_refl _
  | case4 depth s t ts h => exact Nat.le_of_lt (Cursor.length_pass_lt h)
  | case5 depth s t ts h _ _ _ _ ih => rw [h]; exact Nat.le_succ_of_le ih

theorem advances_skipRun (inBody : Bool) (depth : Int) :
    Advances (fun _ => true) (skipRun inBody depth) := fun s _ => by
  fun_induction skipRun inBody depth s with
  | case1 => trivial
  | case2 depth s t ts h => exact Cursor.length_pass_lt h
  | case3 depth s t ts h => exact Cursor.length_pass_lt h
  | case4 depth s t ts h => exact Cursor.length_pass_lt h
  | case5 depth s t ts h _ _ _ _ _ ih =>
    exact (ih rfl).mono fun _ h' => Nat.lt_trans h' (Cursor.length_pass_lt h)

theorem shrinks_report (src : List Char) (starts : List Kind) (inBody : Bool) (last : Token)
    (depth : Int) (span : Span) : Shrinks (report src starts inBody last depth span) := fun s => by
  unfold report
  dsimp only
  split
  · exact Nat.le_refl _
  · exact length_resync_le ..

theorem advances_unexpected (src : List Char) (starts : List Kind) (inBody : Bool) :
    Advances (fun _ => true) (unexpected src starts inBody) :=
  ((advances_skipRun inBody 0).spanned src fun _ _ _ => rfl).bind fun ((last, depth), span) =>
    shrinks_report src starts inBody last depth span

section

variable {α : Type} {p : Production α} {go : Cursor → Bool}

theorem Advances.orResync (inBody : Bool) (hp : Advances go p) :
    Advances go (orResync inBody p) := fun s hs => by
  have h := hp s hs
  unfold ScripCheck.orResync
  split
  · next hr => rw [hr] at h; exact h
  · next hr => rw [hr] at h; exact Nat.lt_of_le_of_lt (length_resync_le ..) h
  · trivial

end

end ScripCheck
