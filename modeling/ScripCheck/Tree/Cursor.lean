import ScripCheck.Text.Quoted
import ScripCheck.Tree.Error

/-!
# Reading tokens

The tree is read by productions. A production starts at a cursor: the tokens that are left, the
spans of the nodes that are being read, and the errors so far. It ends with a value, or it gives the
declaration up after recording an error.

* `Cursor`, `Outcome`, `Production`: the state, the ways to end, and their sequencing.
* `advance`, `require`, `expect`: look at the next token, and take it.
* `openSpan`, `closeSpan`, `spanned`: the span of a node runs from its first token to the furthest
  end of any token read inside it.
* `Production.whileAt`: repetition. It takes the proof that each round uses up a token.
* `Shrinks`, `Advances`: a production leaves no more tokens than it found; it uses up at least one.
-/

namespace ScripCheck

/-- Where reading stands. -/
structure Cursor where
  /-- The tokens that are left. -/
  rest : List Token
  /-- The spans of the nodes that are being read, the innermost first. -/
  spans : List Span
  /-- The errors so far, in order. -/
  errors : List SyntaxError

/-- What cannot happen while reading the tokens of a source text. -/
inductive Fault where
  /-- A token was to be taken where none is left. -/
  | endPassed
  /-- A span was to be closed where none is open. -/
  | noSpan
  /-- A boolean literal is neither of the two words. -/
  | boolean (text : String)
deriving DecidableEq

/-- What the fault is about. -/
def Fault.message : Fault → String
  | endPassed => "no token left"
  | noSpan => "no span open"
  | boolean text => "unexpected boolean literal " ++ quoted text

/-- How a production ends. -/
inductive Outcome (α : Type) where
  | found (a : α) (s : Cursor)
  /-- An error is recorded, and the declaration is given up. -/
  | abandoned (s : Cursor)
  | faulted (f : Fault)

namespace Outcome

variable {α β : Type}

/-- The outcome with another value. -/
def map (f : α → β) : Outcome α → Outcome β
  | found a s => found (f a) s
  | abandoned s => abandoned s
  | faulted e => faulted e

/-- The cursor at the end, if there is one, has the property. -/
def Ends (P : Cursor → Prop) : Outcome α → Prop
  | found _ s => P s
  | abandoned s => P s
  | faulted _ => True

theorem Ends.mono {P Q : Cursor → Prop} {o : Outcome α} (h : o.Ends P) (hPQ : ∀ s, P s → Q s) :
    o.Ends Q := by
  cases o with
  | found a s => exact hPQ s h
  | abandoned s => exact hPQ s h
  | faulted f => trivial

end Outcome

/-- A way to read something from a cursor on. -/
def Production (α : Type) : Type := Cursor → Outcome α

/-- The outcome of one production after another. -/
def Outcome.andThen {α β : Type} (o : Outcome α) (f : α → Production β) : Outcome β :=
  match o with
  | found a s => f a s
  | abandoned s => abandoned s
  | faulted e => faulted e

instance : Monad Production where
  pure a := fun s => .found a s
  bind p f := fun s => (p s).andThen f

theorem Production.bind_apply {α β : Type} (p : Production α) (f : α → Production β) (s : Cursor) :
    (p >>= f) s = (p s).andThen f := rfl

theorem Production.pure_apply {α : Type} (a : α) (s : Cursor) :
    (pure a : Production α) s = .found a s := rfl

/-! ## Tokens -/

namespace Cursor

/-- The next token has one of the kinds. -/
def at? (s : Cursor) (kinds : List Kind) : Bool :=
  match s.rest with
  | [] => false
  | t :: _ => kinds.contains t.kind

/-- The span of the next token, or the end of the text. -/
def here (src : List Char) (s : Cursor) : Span :=
  match s.rest with
  | [] => .atEnd src
  | t :: _ => t.span

/-- What stands at the cursor, as messages show it. -/
def found (s : Cursor) : Found :=
  match s.rest with
  | [] => .endOfInput
  | t :: _ => if t.kind = .newline then .lineBreak else .text t.text

/-- The innermost open span reaches to `hi`. -/
def widen (hi : Int) : List Span → List Span
  | [] => []
  | top :: outer => top.reach hi :: outer

/-- The cursor after the token `t`, which the tokens `ts` follow. -/
def pass (s : Cursor) (t : Token) (ts : List Token) : Cursor :=
  { s with rest := ts, spans := widen t.span.hi s.spans }

theorem length_pass_lt {s : Cursor} {t : Token} {ts : List Token} (h : s.rest = t :: ts) :
    (s.pass t ts).rest.length < s.rest.length := by
  rw [h]
  exact Nat.lt_succ_self _

/-- The cursor with one more error. -/
def record (s : Cursor) (e : SyntaxError) : Cursor := { s with errors := s.errors ++ [e] }

end Cursor

/-- Takes the next token. -/
def advance : Production Token := fun s =>
  match s.rest with
  | [] => .faulted .endPassed
  | t :: ts => .found t (s.pass t ts)

/-- Gives the declaration up. -/
def abandon (e : SyntaxError) : Production Unit := fun s => .abandoned (s.record e)

/-- Looks whether the next token has one of the kinds. -/
def require (src : List Char) (kinds : List Kind) : Production Unit := fun s =>
  if s.at? kinds then .found () s else abandon ⟨.expected kinds s.found, s.here src⟩ s

/-- Takes the next token, which must have one of the kinds. -/
def expect (src : List Char) (kinds : List Kind) : Production Token := do
  require src kinds
  advance

/-! ## Spans -/

/-- Starts a node at the next token. -/
def openSpan (src : List Char) : Production Unit := fun s =>
  .found () { s with spans := s.here src :: s.spans }

/-- Ends the innermost node. The node around it reaches as far. -/
def closeSpan : Production Span := fun s =>
  match s.spans with
  | [] => .faulted .noSpan
  | top :: outer => .found top { s with spans := Cursor.widen top.hi outer }

/-- What the production reads, with its span. -/
def spanned {α : Type} (src : List Char) (p : Production α) : Production (α × Span) := do
  openSpan src
  let a ← p
  return (a, ← closeSpan)

/-! ## Progress -/

section Progress

variable {α β : Type} {p : Production α} {f : α → Production β} {go : Cursor → Bool}
  {kinds : List Kind}

/-- The production leaves no more tokens than it found. -/
def Shrinks (p : Production α) : Prop :=
  ∀ s : Cursor, (p s).Ends fun s' => s'.rest.length ≤ s.rest.length

/-- Where `go` holds, the production leaves fewer tokens than it found. -/
def Advances (go : Cursor → Bool) (p : Production α) : Prop :=
  ∀ s : Cursor, go s = true → (p s).Ends fun s' => s'.rest.length < s.rest.length

theorem shrinks_pure (a : α) : Shrinks (pure a : Production α) := fun _ => Nat.le_refl _

theorem Shrinks.bind (hp : Shrinks p) (hf : ∀ a, Shrinks (f a)) : Shrinks (p >>= f) := fun s => by
  have h := hp s
  rw [Production.bind_apply]
  cases hs : p s with
  | found a s' => rw [hs] at h; exact (hf a s').mono fun _ h' => Nat.le_trans h' h
  | abandoned s' => rw [hs] at h; exact h
  | faulted e => trivial

theorem Advances.bind (hp : Advances go p) (hf : ∀ a, Shrinks (f a)) :
    Advances go (p >>= f) := fun s hk => by
  have h := hp s hk
  rw [Production.bind_apply]
  cases hs : p s with
  | found a s' => rw [hs] at h; exact (hf a s').mono fun _ h' => Nat.lt_of_le_of_lt h' h
  | abandoned s' => rw [hs] at h; exact h
  | faulted e => trivial

theorem shrinks_advance : Shrinks advance := fun s => by
  unfold advance
  split
  · trivial
  · next t ts hs => exact Nat.le_of_lt (Cursor.length_pass_lt hs)

theorem advances_advance : Advances (·.at? kinds) advance := fun s hk => by
  unfold advance
  split
  · next hs => simp [Cursor.at?, hs] at hk
  · next t ts hs => exact Cursor.length_pass_lt hs

theorem shrinks_abandon (e : SyntaxError) : Shrinks (abandon e) := fun _ => Nat.le_refl _

theorem shrinks_require (src : List Char) : Shrinks (require src kinds) := fun s => by
  unfold require
  split
  · exact Nat.le_refl _
  · exact shrinks_abandon _ s

theorem shrinks_expect (src : List Char) : Shrinks (expect src kinds) :=
  (shrinks_require src).bind fun _ => shrinks_advance

theorem advances_expect (src : List Char) :
    Advances (·.at? kinds) (expect src kinds) := fun s hk => by
  have h : expect src kinds s = advance s := by
    simp [expect, Production.bind_apply, require, hk, Outcome.andThen]
  rw [h]
  exact advances_advance s hk

theorem shrinks_openSpan (src : List Char) : Shrinks (openSpan src) := fun _ => Nat.le_refl _

theorem shrinks_closeSpan : Shrinks closeSpan := fun s => by
  unfold closeSpan
  split
  · trivial
  · exact Nat.le_refl _

theorem Shrinks.spanned (src : List Char) (hp : Shrinks p) : Shrinks (spanned src p) :=
  (shrinks_openSpan src).bind fun _ => hp.bind fun _ => shrinks_closeSpan.bind fun _ =>
    shrinks_pure _

theorem Advances.spanned (src : List Char) (hp : Advances go p)
    (hgo : ∀ s spans, go s = true → go { s with spans := spans } = true) :
    Advances go (spanned src p) := fun s hs =>
  (hp.bind fun a => shrinks_closeSpan.bind fun sp => shrinks_pure (a, sp))
    { s with spans := s.here src :: s.spans } (hgo s _ hs)

end Progress

/-! ## Repetition -/

section Repetition

variable {α : Type}

/-- Repeats the production while the next token is one that `go` accepts. -/
def Production.whileAt (go : Cursor → Bool) (p : Production α)
    (progress : Advances go p) (s : Cursor) : Outcome (List α) :=
  if h : go s = true then
    match hs : p s with
    | .found a s' =>
      have : s'.rest.length < s.rest.length := by
        have := progress s h
        rw [hs] at this
        exact this
      (whileAt go p progress s').map (a :: ·)
    | .abandoned s' => .abandoned s'
    | .faulted e => .faulted e
  else .found [] s
termination_by s.rest.length

theorem shrinks_whileAt {go : Cursor → Bool} {p : Production α}
    (progress : Advances go p) : Shrinks (Production.whileAt go p progress) := fun s => by
  induction hn : s.rest.length using Nat.strongRecOn generalizing s with
  | _ n ih =>
    rw [Production.whileAt]
    split
    · next hg =>
      have h := progress s hg
      split
      · next a s' hs =>
        rw [hs] at h
        have := ih s'.rest.length (by rw [← hn]; exact h) s' rfl
        revert this
        cases Production.whileAt go p progress s' with
        | found as s'' => exact fun h' => by simp [Outcome.Ends, Outcome.map] at h h' ⊢; omega
        | abandoned s'' => exact fun h' => by simp [Outcome.Ends, Outcome.map] at h h' ⊢; omega
        | faulted e => exact fun _ => trivial
      · next s' hs => rw [hs] at h; simp [Outcome.Ends] at h ⊢; omega
      · trivial
    · simp [Outcome.Ends, hn]

end Repetition

end ScripCheck
