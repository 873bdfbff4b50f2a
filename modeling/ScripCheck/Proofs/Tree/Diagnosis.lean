import ScripCheck.Proofs.Tree.Expectation
import ScripCheck.Proofs.Tree.Phrase

/-!
# Giving up

A production that starts where something is expected either takes a phrase, or it gives up with an
error about the first token that is not expected.

* `Blames`: an error is about the first token that leads nowhere, or about the end.
* `Reads`: a production takes a phrase, or gives up with one error that blames. Productions with a
  body are of another sort: they go on after errors, and they take braces.
* `reads_name`, ..., `reads_header`: one lemma for each production.
-/

namespace ScripCheck

open Production

/-- The error is about the next token, or about the end of the text. -/
def SyntaxError.At (src : List Char) (e : SyntaxError) : List Token → Prop
  | [] => e.span = .atEnd src
  | t :: _ => e.span.lo = t.span.lo ∧ t.span.hi ≤ e.span.hi

/-- The error is about the first of the tokens `ts` that leads nowhere, from the expectation `q` on,
or about their end. -/
def Blames (src : List Char) (q : Expectation) (ts : List Token) (e : SyntaxError) : Prop :=
  ∃ us vs q', ts = us ++ vs ∧ q.Run us q' ∧ q'.Refuses vs ∧ e.At src vs

/-- The kinds of tokens that a statement cannot go past. -/
def enders : List Kind := [.newline, .lbrace, .rbrace]

/-- The tokens lie within one line: there are no line breaks and no braces among them. -/
def Inline (ts : List Token) : Prop := ∀ t ∈ ts, t.kind ∉ enders

theorem inline_nil : Inline [] := fun _ h => absurd h List.not_mem_nil

theorem Inline.append {us vs : List Token} (hus : Inline us) (hvs : Inline vs) :
    Inline (us ++ vs) := fun t ht => (List.mem_append.mp ht).elim (hus t) (hvs t)

theorem BooleansSpelled.right {us vs : List Token} (h : BooleansSpelled (us ++ vs)) :
    BooleansSpelled vs := fun t ht => h t (List.mem_append_right us ht)

theorem booleansSpelled_nil : BooleansSpelled [] := fun _ h => absurd h List.not_mem_nil

theorem BooleansSpelled.append {us vs : List Token} (hus : BooleansSpelled us)
    (hvs : BooleansSpelled vs) : BooleansSpelled (us ++ vs) :=
  List.forall_mem_append.mpr ⟨hus, hvs⟩

/-- Tokens of other kinds need not be spelled in a certain way. -/
theorem booleansSpelled_cons {t : Token} {k : Kind} {ts : List Token} (ht : t.kind = k)
    (hk : k ≠ .boolLit) (hts : BooleansSpelled ts) : BooleansSpelled (t :: ts) :=
  List.forall_mem_cons.mpr ⟨fun h => absurd (ht.symm.trans h) hk, hts⟩

theorem Blames.after {src : List Char} {q q₁ : Expectation} {us ts : List Token} {e : SyntaxError}
    (h : Blames src q₁ ts e) (hus : q.Run us q₁) : Blames src q (us ++ ts) e := by
  obtain ⟨vs, ws, q₂, rfl, hrun, hrefuses, hat⟩ := h
  exact ⟨us ++ vs, ws, q₂, (List.append_assoc ..).symm, hus.append hrun, hrefuses, hat⟩

/-! ## Missing tokens -/

/-- The error about a token that is none of the kinds. -/
def Cursor.missing (src : List Char) (kinds : List Kind) (s : Cursor) : SyntaxError :=
  ⟨.expected kinds s.found, s.here src⟩

section Missing

variable {s : Cursor} {kinds : List Kind} (src : List Char)

theorem Cursor.missing_at (kinds : List Kind) (s : Cursor) :
    (s.missing src kinds).At src s.rest := by
  unfold SyntaxError.At Cursor.missing Cursor.here
  split <;> simp_all

theorem require_missing (h : ¬ Starts kinds s.rest) :
    require src kinds s = .abandoned (s.record (s.missing src kinds)) := by
  rw [require, if_neg (Cursor.at?_of_not_starts rfl h)]; rfl

theorem expect_missing (h : ¬ Starts kinds s.rest) :
    expect src kinds s = .abandoned (s.record (s.missing src kinds)) := by
  rw [expect, bind_apply, require_missing src h]; rfl

end Missing

/-! ## What each expectation refuses -/

namespace Expectation

variable {q : Expectation} {ts : List Token} {u : NameUse} {b : Bool}

theorem refuses_of {kinds : List Kind} (hq : q ≠ start false)
    (hstep : ∀ t q', Step q t q' → t.kind ∈ kinds) (h : ¬ Starts kinds ts) : q.Refuses ts := by
  cases ts with
  | nil => exact hq
  | cons t ts => exact fun q' hq' => h (hstep t q' hq')

theorem refuses_type (h : ¬ Starts [.ident] ts) : (type b).Refuses ts :=
  refuses_of nofun (fun t q' hq' => by cases hq'; simp [*]) h

theorem refuses_word (h : ¬ Starts [.ident] ts) : (word u).Refuses ts :=
  refuses_of nofun (fun t q' hq' => by cases hq'; simp [*]) h

theorem refuses_value (h : ¬ Starts literalKinds ts) : (value b).Refuses ts :=
  refuses_of nofun (fun t q' hq' => by cases hq' with | value h => exact h.kind_mem) h

theorem refuses_lineEnd (h : ¬ Starts [.newline] ts) : (lineEnd b).Refuses ts :=
  refuses_of nofun (fun t q' hq' => by cases hq'; simp [*]) h

theorem refuses_opening (h : ¬ Starts [.lbrace] ts) : opening.Refuses ts :=
  refuses_of nofun (fun t q' hq' => by cases hq'; simp [*]) h

theorem refuses_params (h : ¬ Starts [.ident, .rparen] ts) : params.Refuses ts :=
  refuses_of nofun (fun t q' hq' => by cases hq' <;> simp [*]) h

theorem refuses_varEnd (h : ¬ Starts [.dot, .equals] ts) : (wordEnd (.var b)).Refuses ts :=
  refuses_of nofun (fun t q' hq' => by cases hq' <;> simp [*]) h

theorem refuses_funcEnd (h : ¬ Starts [.dot, .lparen] ts) : (wordEnd .func).Refuses ts :=
  refuses_of nofun (fun t q' hq' => by cases hq' <;> simp [*]) h

theorem refuses_paramEnd (h : ¬ Starts [.dot, .comma, .rparen] ts) : (wordEnd .param).Refuses ts :=
  refuses_of nofun (fun t q' hq' => by cases hq' <;> simp [*]) h

theorem refuses_body (h : ¬ Starts [.newline, .globalWord, .ident, .rbrace] ts) :
    (start true).Refuses ts :=
  refuses_of nofun (fun t q' hq' => by cases hq' <;> simp [*]) h

theorem refuses_top (hts : ts ≠ []) (h : ¬ Starts [.newline, .globalWord, .ident, .funcWord] ts) :
    (start false).Refuses ts := by
  cases ts with
  | nil => exact absurd rfl hts
  | cons t ts =>
    intro q' hq'
    cases hq' <;> simp_all

end Expectation

/-! ## Productions without a body -/

/-- How a production ends: it takes a phrase of `L`, which also says what follows; or it gives up
with one error, which blames. -/
inductive ReadOutcome {α : Type} (src : List Char) (q : Expectation)
    (L : List Token → α → List Token → Prop) (s : Cursor) : Outcome α → Prop where
  | found {a : α} {us ts : List Token} (rest : s.rest = us ++ ts) (inline : Inline us)
    (phrase : L us a ts) : ReadOutcome src q L s (.found a (s.past us ts))
  | abandoned {us : List Token} {e : SyntaxError} {s' : Cursor} (rest : s.rest = us ++ s'.rest)
    (inline : Inline us) (errors : s'.errors = s.errors ++ [e]) (blames : Blames src q s.rest e)
    (depth : s.spans.length ≤ s'.spans.length) : ReadOutcome src q L s (.abandoned s')

/-- Where the tokens `ts` are left, the production takes a phrase of `L` or blames. -/
def Reads {α : Type} (src : List Char) (q : Expectation) (L : List Token → α → List Token → Prop)
    (p : Production α) (ts : List Token) : Prop :=
  ∀ s : Cursor, s.rest = ts → BooleansSpelled ts → ReadOutcome src q L s (p s)

section Rules

variable {α β : Type} {src : List Char} {q q₁ : Expectation} {s : Cursor} {us ts : List Token}
  {L L' : List Token → α → List Token → Prop} {M : List Token → β → List Token → Prop}
  {p : Production α} {f : α → Production β} {kinds : List Kind}

theorem ReadOutcome.after {o : Outcome β} (rest : s.rest = us ++ ts) (inline : Inline us)
    (run : q.Run us q₁) (h : ReadOutcome src q₁ (fun vs b => M (us ++ vs) b) (s.past us ts) o) :
    ReadOutcome src q M s o := by
  cases h with
  | found rest' inline' phrase =>
    rw [Cursor.past_rest] at rest'
    rw [Cursor.past_past]
    exact .found (by rw [rest, rest', List.append_assoc]) (inline.append inline') phrase
  | abandoned rest' inline' errors blames depth =>
    rw [Cursor.past_rest] at rest' blames
    rw [Cursor.past, Cursor.length_widenBy] at depth
    refine .abandoned ?_ (inline.append inline') errors ?_ depth
    · rw [rest, rest', List.append_assoc]
    · rw [rest]; exact blames.after run

theorem ReadOutcome.mono {o : Outcome α} (h : ReadOutcome src q L s o)
    (hL : ∀ us a ts, L us a ts → L' us a ts) : ReadOutcome src q L' s o := by
  cases h with
  | found rest inline phrase => exact .found rest inline (hL _ _ _ phrase)
  | abandoned rest inline errors blames depth => exact .abandoned rest inline errors blames depth

theorem ReadOutcome.map {o : Outcome α} {f : α → β} (h : ReadOutcome src q L s o)
    (hf : ∀ us a ts, L us a ts → M us (f a) ts) : ReadOutcome src q M s (o.map f) := by
  cases h with
  | found rest inline phrase => exact .found rest inline (hf _ _ _ phrase)
  | abandoned rest inline errors blames depth => exact .abandoned rest inline errors blames depth

theorem Reads.mono (hp : Reads src q L p ts) (hL : ∀ us a ts, L us a ts → L' us a ts) :
    Reads src q L' p ts := fun s hs hspelled => (hp s hs hspelled).mono hL

theorem Reads.bind (hp : Reads src q L p ts)
    (hf : ∀ us a ts, L us a ts → ∃ q₁, q.Run us q₁ ∧
      Reads src q₁ (fun vs b => M (us ++ vs) b) (f a) ts) :
    Reads src q M (p >>= f) ts := by
  intro s hs hspelled
  have h := hp s hs hspelled
  rw [bind_apply]
  generalize p s = o at h
  cases h with
  | @found a us ts' rest inline phrase =>
    obtain ⟨q₁, hrun, hnext⟩ := hf us a ts' phrase
    rw [← hs, rest] at hspelled
    exact .after rest inline hrun (hnext (s.past us ts') rfl hspelled.right)
  | abandoned rest inline errors blames depth => exact .abandoned rest inline errors blames depth

/-- A last step that always succeeds. -/
theorem Reads.map (hp : Reads src q L p ts)
    (hf : ∀ us a ts, L us a ts → ∃ b, f a = pure b ∧ M us b ts) : Reads src q M (p >>= f) ts := by
  intro s hs hspelled
  have h := hp s hs hspelled
  rw [bind_apply]
  generalize p s = o at h
  cases h with
  | found rest inline phrase =>
    obtain ⟨b, hb, hM⟩ := hf _ _ _ phrase
    rw [Outcome.andThen, hb]
    exact .found rest inline hM
  | abandoned rest inline errors blames depth => exact .abandoned rest inline errors blames depth

theorem reads_advance (h : Starts kinds ts) (hinline : ∀ k ∈ kinds, k ∉ enders) :
    Reads src q (fun us t _ => us = [t] ∧ t.kind ∈ kinds) advance ts := by
  intro s hs _
  cases ts with
  | nil => exact h.elim
  | cons t ts =>
    rw [advance_run hs]
    exact .found hs (by simpa [Inline] using hinline _ h) ⟨rfl, h⟩

/-- Looking for a token, where one of the kinds is all that is expected. -/
theorem reads_require (hdue : ¬ Starts kinds ts → q.Refuses ts) :
    Reads src q (fun us _ ts => us = [] ∧ Starts kinds ts) (require src kinds) ts := by
  intro s hs _
  by_cases h : Starts kinds ts
  · have hfound : ReadOutcome src q (fun us (_ : Unit) ts => us = [] ∧ Starts kinds ts) s
        (.found () (s.past [] ts)) := .found hs inline_nil ⟨rfl, h⟩
    rwa [Cursor.past_nil hs, ← require_run src (hs ▸ h)] at hfound
  · have rest : s.rest = [] ++ s.rest := rfl
    rw [require_missing src (hs ▸ h)]
    refine .abandoned rest inline_nil rfl ⟨[], ts, q, hs, rfl, hdue h, ?_⟩ (Nat.le_refl _)
    rw [← hs]
    exact s.missing_at src kinds

theorem reads_expect (hdue : ¬ Starts kinds ts → q.Refuses ts)
    (hinline : ∀ k ∈ kinds, k ∉ enders) :
    Reads src q (fun us t _ => us = [t] ∧ t.kind ∈ kinds) (expect src kinds) ts := by
  refine (reads_require hdue).bind ?_
  rintro us _ ts ⟨rfl, h⟩
  exact ⟨q, rfl, reads_advance h hinline⟩

/-- The span of a node that is read from at least one token covers its phrase. -/
theorem Reads.spanned (hp : Reads src q L p ts) (hne : ∀ us a ts, L us a ts → us ≠ []) :
    Reads src q (fun us x ts => L us x.1 ts ∧ x.2 = cover us) (spanned src p) ts := by
  intro s hs hspelled
  have h := hp (s.opened src) hs hspelled
  cases ho : p (s.opened src) with
  | found a s' =>
    rw [ho] at h
    cases h with
    | @found _ us ts rest inline phrase =>
      have rest' : s.rest = us ++ ts := rest
      rw [spanned_run src rest' (hne _ _ _ phrase) ho]
      exact .found rest' inline ⟨phrase, rfl⟩
  | abandoned s' =>
    rw [ho] at h
    have habandoned : ScripCheck.spanned src p s = .abandoned s' := by
      show (p (s.opened src)).andThen _ = _
      rw [ho]; rfl
    rw [habandoned]
    cases h with
    | abandoned rest inline errors blames depth =>
      exact .abandoned rest inline errors blames (Nat.le_of_succ_le depth)
  | faulted e => rw [ho] at h; cases h

/-- A repetition whose rounds lead back to what was expected before. `I` holds of the tokens at the
start of each round, and `J` at the end. -/
theorem Reads.whileAt {go : Cursor → Bool} {P : List Token → α → Prop} {I J : List Token → Prop}
    (progress : Advances go p)
    (hp : ∀ s : Cursor, go s = true → I s.rest →
      Reads src q (fun us a ts => P us a ∧ I ts) p s.rest)
    (hq : ∀ us a, P us a → q.Run us q) (hstop : ∀ s : Cursor, go s = false → I s.rest → J s.rest)
    (hts : I ts) :
    Reads src q (fun us as ts => Star P us as ∧ J ts) (whileAt go p progress) ts := by
  intro s hs hspelled
  induction s using whileAt_induction progress generalizing ts with
  | stop s h =>
    have hfound : ReadOutcome src q (fun us as ts => Star P us as ∧ J ts) s
        (.found [] (s.past [] ts)) := .found hs inline_nil ⟨.nil, hs ▸ hstop s h (hs ▸ hts)⟩
    rwa [Cursor.past_nil hs, ← whileAt_stop progress h] at hfound
  | round s h ih =>
    have hround := hp s h (hs ▸ hts) s rfl (hs ▸ hspelled)
    rw [whileAt_go progress h]
    generalize ho : p s = o at hround
    cases hround with
    | @found a us ts' rest inline phrase =>
      rw [← hs, rest] at hspelled
      have hrec := ih a (s.past us ts') ho phrase.2 rfl hspelled.right
      simp only [Outcome.andThen]
      refine .after rest inline (hq _ _ phrase.1) (hrec.map ?_)
      exact fun vs as _ h => ⟨.cons phrase.1 h.1, h.2⟩
    | abandoned rest inline errors blames depth => exact .abandoned rest inline errors blames depth

end Rules

/-! ### Names and literals -/

section Productions

variable {src : List Char} {ts : List Token} {q : Expectation} {b : Bool} {u : NameUse}

open Expectation

theorem reads_dottedWord (h : Starts [.dot] ts) :
    Reads src (wordEnd u) (fun us t _ => DottedPhrase us t) (dottedWord src) ts := by
  refine (reads_advance h (by decide)).bind ?_
  rintro us d ts ⟨rfl, hd⟩
  have hd : d.kind = .dot := by simpa using hd
  refine ⟨word u, Step.run (.dot hd), (reads_expect refuses_word (by decide)).mono ?_⟩
  rintro vs t ts ⟨rfl, ht⟩
  exact .intro hd (by simpa using ht)

theorem reads_name (hq : ∀ t : Token, t.kind = .ident → Step q t (wordEnd u))
    (hdue : ¬ Starts [.ident] ts → q.Refuses ts) :
    Reads src q (fun us n ts => NamePhrase us n ∧ ¬ Starts [.dot] ts) (name src) ts := by
  have hinner : Reads src q (fun us (x : Token × List Token) ts =>
      ∃ vs, us = x.1 :: vs ∧ x.1.kind = .ident ∧ Star DottedPhrase vs x.2 ∧ ¬ Starts [.dot] ts) (do
        let first ← expect src [.ident]
        let more ← whileAt (·.at? [.dot]) (dottedWord src) (advances_dottedWord src)
        return (first, more)) ts := by
    refine (reads_expect hdue (by decide)).bind ?_
    rintro us t ts ⟨rfl, ht⟩
    have ht : t.kind = .ident := by simpa using ht
    refine ⟨wordEnd u, (hq t ht).run, Reads.map (Reads.whileAt (P := DottedPhrase) (I := fun _ => True)
      (J := (¬ Starts [.dot] ·)) _ (fun s h _ => ?_) ?_ (fun s h _ => ?_) trivial) ?_⟩
    · refine (reads_dottedWord (Cursor.at?_iff.mp h)).mono fun us t ts h => ⟨h, trivial⟩
    · intro vs w h
      cases h with
      | intro dot word => exact ⟨_, .dot dot, _, .word word, rfl⟩
    · rwa [← Cursor.at?_iff, Bool.not_eq_true]
    · rintro vs ws ts ⟨h, hdot⟩
      exact ⟨_, rfl, vs, rfl, ht, h, hdot⟩
  refine (hinner.spanned ?_).map ?_
  · rintro us x ts ⟨vs, rfl, -⟩
    exact List.cons_ne_nil _ _
  · rintro us ⟨⟨first, more⟩, span⟩ ts ⟨⟨vs, rfl, hfirst, hmore, hdot⟩, hspan⟩
    obtain rfl : span = cover (first :: vs) := hspan
    exact ⟨_, rfl, .intro hfirst hmore, hdot⟩

theorem reads_typeName (hdue : ¬ Starts [.ident] ts → q.Refuses ts) :
    Reads src q (fun us n _ => ∃ t : Token, us = [t] ∧ t.kind = .ident ∧ n = ⟨t.text, t.span⟩)
      (typeName src) ts := by
  refine ((reads_expect hdue (by decide)).spanned ?_).map ?_
  · rintro us t ts ⟨rfl, -⟩
    exact List.cons_ne_nil _ _
  · rintro us ⟨t, span⟩ ts ⟨⟨rfl, ht⟩, hspan⟩
    obtain rfl : span = t.span := hspan
    exact ⟨_, rfl, t, rfl, by simpa using ht, rfl⟩

/-- The token of a literal has a value, or is a number literal that is given up. -/
theorem literalValue_cases {t : Token} (s : Cursor) (hk : t.kind ∈ literalKinds)
    (hspelled : t.kind = .boolLit → t.text = "True" ∨ t.text = "False") :
    (∃ v, Denotes t v ∧ literalValue t s = .found v s) ∨
      ((∀ v, ¬ Denotes t v) ∧
        literalValue t s = .abandoned (s.record ⟨.numeral, t.span⟩)) := by
  have hkind : t.kind = .intLit ∨ t.kind = .floatLit ∨ t.kind = .boolLit ∨ t.kind = .strLit := by
    simpa [literalKinds] using hk
  rcases hkind with hk | hk | hk | hk
  · cases hr : readInteger? t.text with
    | some n => exact .inl ⟨_, .int hk hr, by simp [literalValue, hk, hr, numberOr]⟩
    | none =>
      refine .inr ⟨fun v hv => ?_, by simp [literalValue, hk, hr, numberOr]⟩
      cases hv <;> simp_all
  · cases hr : Binary64.read? t.text with
    | some x => exact .inl ⟨_, .float hk hr, by simp [literalValue, hk, hr, numberOr]⟩
    | none =>
      refine .inr ⟨fun v hv => ?_, by simp [literalValue, hk, hr, numberOr]⟩
      cases hv <;> simp_all
  · rcases hspelled hk with ht | ht
    · exact .inl ⟨_, .yes hk ht, by simp [literalValue, hk, boolean, ht]⟩
    · exact .inl ⟨_, .no hk ht, by simp [literalValue, hk, boolean, ht]⟩
  · exact .inl ⟨_, .str hk, by simp [literalValue, hk, pure_apply]⟩

theorem reads_literal :
    Reads src (value b) (fun us l _ => ∃ t : Token, us = [t] ∧ Denotes t l.value ∧ l.span = t.span)
      (literal src) ts := by
  have hinline : ∀ k ∈ literalKinds, k ∉ enders := by decide
  intro s hs hspelled
  by_cases h : Starts literalKinds ts
  · obtain ⟨t, ts, rfl, h⟩ := h.exists_cons
    have hinline : Inline [t] := by simpa [Inline] using hinline _ h
    rcases literalValue_cases (s.past [t] ts) h (hspelled t (by simp)) with
      ⟨v, hv, -⟩ | ⟨hv, hrun⟩
    · rw [literal_run src hv hs]
      exact .found hs hinline ⟨t, rfl, hv, rfl⟩
    · -- the literal is taken before it is refused, so this is no case of `Reads.bind`
      have habandoned : literal src s =
          .abandoned ((s.past [t] ts).record ⟨.numeral, t.span⟩) :=
        (bind_run (expect_run src hs h)).trans (by rw [bind_apply, hrun]; rfl)
      rw [habandoned]
      refine .abandoned hs hinline rfl ⟨[], t :: ts, _, hs, rfl, ?_, rfl, Int.le_refl _⟩ ?_
      · intro q' hq'
        cases hq' with | value h => exact hv _ h
      · rw [← Cursor.length_widenBy s.spans [t]]; exact Nat.le_refl _
  · have rest : s.rest = [] ++ s.rest := rfl
    have hmissing : literal src s = .abandoned (s.record (s.missing src literalKinds)) := by
      rw [literal, bind_apply, expect_missing src (hs ▸ h)]; rfl
    rw [hmissing]
    refine .abandoned rest inline_nil rfl ⟨[], ts, _, hs, rfl, refuses_value h, ?_⟩ (Nat.le_refl _)
    rw [← hs]
    exact s.missing_at src literalKinds

/-! ### Variables and parameters -/

theorem reads_varDef (hq : ∀ t : Token, t.kind = .ident → Step q t (word (.var b)))
    (hdue : ¬ Starts [.ident] ts → q.Refuses ts) :
    Reads src q (fun us d ts => VarPhrase us d ∧ Starts [.newline] ts) (varDef src) ts := by
  have hinner : Reads src q (fun us (x : Name × Name × Literal) ts =>
      VarPhrase us ⟨x.1, x.2.1, x.2.2, cover us⟩ ∧ Starts [.newline] ts) (do
        let type ← typeName src
        let name ← name src
        let _ ← expect src [.equals]
        let value ← literal src
        require src [.newline]
        return (type, name, value)) ts := by
    refine (reads_typeName hdue).bind ?_
    rintro us _ ts ⟨t, rfl, ht, rfl⟩
    refine ⟨_, (hq t ht).run, (reads_name (fun _ => .word) refuses_word).bind ?_⟩
    rintro vs n ts ⟨hn, hdot⟩
    have hend (h : ¬ Starts [.equals] ts) : (wordEnd (.var b)).Refuses ts :=
      refuses_varEnd (not_starts_append hdot h :)
    refine ⟨_, hn.run fun _ => .word, (reads_expect hend (by decide)).bind ?_⟩
    rintro es e ts ⟨rfl, he⟩
    have he : e.kind = .equals := by simpa using he
    refine ⟨_, Step.run (.equals he), reads_literal.bind ?_⟩
    rintro ls ⟨x, _⟩ ts ⟨v, rfl, hv, rfl⟩
    refine ⟨_, Step.run (.value hv), (reads_require refuses_lineEnd).map ?_⟩
    rintro ns _ ts ⟨rfl, hnewline⟩
    refine ⟨_, rfl, ?_, hnewline⟩
    simpa using VarPhrase.intro ht hn he hv
  refine (hinner.spanned fun us x ts h => h.1.ne_nil).map ?_
  rintro us ⟨⟨t, n, x⟩, _⟩ ts ⟨⟨hvar, hnewline⟩, rfl⟩
  exact ⟨_, rfl, hvar, hnewline⟩

theorem reads_varItem (h : Starts [.ident] ts) :
    Reads src (start b) (fun us i ts => ItemPhrase us i ∧ Starts [.newline] ts) (varItem src) ts :=
  (reads_varDef (fun _ => .firstType) (absurd h)).map fun _ d _ hd =>
    ⟨.var d, rfl, .var hd.1, hd.2⟩

theorem reads_globalItem (h : Starts [.globalWord] ts) :
    Reads src (start b) (fun us i ts => ItemPhrase us i ∧ Starts [.newline] ts)
      (globalItem src) ts := by
  have hinner : Reads src (start b) (fun us d ts =>
      ItemPhrase us (.global d (cover us)) ∧ Starts [.newline] ts) (do
        let _ ← advance
        varDef src) ts := by
    refine (reads_advance h (by decide)).bind ?_
    rintro us g ts ⟨rfl, hg⟩
    have hg : g.kind = .globalWord := by simpa using hg
    refine ⟨_, Step.run (.global hg), (reads_varDef (fun _ => .type) refuses_type).mono ?_⟩
    rintro vs d ts ⟨hd, hnewline⟩
    exact ⟨.global hg hd, hnewline⟩
  refine (hinner.spanned ?_).map ?_
  · rintro us d ts ⟨hitem, -⟩ rfl
    cases hitem
  · rintro us ⟨d, _⟩ ts ⟨⟨hitem, hnewline⟩, rfl⟩
    exact ⟨_, rfl, hitem, hnewline⟩

/-- How an item with its line break ends: it takes an item and the line break after it, or it gives
up before a line break, with one error, which blames. -/
inductive LineOutcome (src : List Char) (q : Expectation) (s : Cursor) : Outcome Item → Prop where
  | found {i : Item} {us ts : List Token} {t : Token} (rest : s.rest = us ++ t :: ts)
    (inline : Inline us) (item : ItemPhrase us i) (newline : t.kind = .newline) :
    LineOutcome src q s (.found i (s.past (us ++ [t]) ts))
  | abandoned {us : List Token} {e : SyntaxError} {s' : Cursor} (rest : s.rest = us ++ s'.rest)
    (inline : Inline us) (errors : s'.errors = s.errors ++ [e]) (blames : Blames src q s.rest e)
    (depth : s.spans.length ≤ s'.spans.length) : LineOutcome src q s (.abandoned s')

/-- The line break that an item looked for is taken with it. -/
theorem Reads.terminated {p : Production Item} {s : Cursor}
    (hp : Reads src q (fun us i ts => ItemPhrase us i ∧ Starts [.newline] ts) p s.rest)
    (hspelled : BooleansSpelled s.rest) : LineOutcome src q s (terminated p s) := by
  have h := hp s rfl hspelled
  unfold ScripCheck.terminated
  rw [bind_apply]
  generalize p s = o at h
  cases h with
  | @found i us ts rest inline phrase =>
    obtain ⟨item, hnewline⟩ := phrase
    cases ts with
    | nil => exact hnewline.elim
    | cons t ts =>
      have hend : (s.past us (t :: ts)).rest = t :: ts := rfl
      rw [Outcome.andThen, bind_run (advance_run hend), Cursor.past_past]
      exact .found rest inline item (by simpa using hnewline)
  | abandoned rest inline errors blames depth => exact .abandoned rest inline errors blames depth

theorem reads_nextParam (h : Starts [.comma] ts) :
    Reads src (wordEnd .param) (fun us n ts => NextParamPhrase us n ∧ ¬ Starts [.dot] ts)
      (nextParam src) ts := by
  refine (reads_advance h (by decide)).bind ?_
  rintro us c ts ⟨rfl, hc⟩
  have hc : c.kind = .comma := by simpa using hc
  refine ⟨_, Step.run (.comma hc), (reads_name (fun _ => .word) refuses_word).mono ?_⟩
  rintro vs n ts ⟨hn, hdot⟩
  exact ⟨.intro hc hn, hdot⟩

/-- After the parameters only their end is expected. -/
theorem reads_params :
    Reads src .params (fun us ns ts => ParamsPhrase us ns ∧ ∃ q₁, Run .params us q₁ ∧
      (¬ Starts [.rparen] ts → q₁.Refuses ts)) (params src) ts := by
  by_cases h : Starts [.ident] ts
  · have hsome : Reads src .params (fun us ns ts => ParamsPhrase us ns ∧ ∃ q₁,
        Run .params us q₁ ∧ (¬ Starts [.rparen] ts → q₁.Refuses ts)) (do
          let first ← name src
          let more ← whileAt (·.at? [.comma]) (nextParam src) (advances_nextParam src)
          return first :: more) ts := by
      refine (reads_name (fun _ => .firstParam) (absurd h)).bind ?_
      rintro us n ts ⟨hn, hdot⟩
      refine ⟨_, hn.run fun _ => .firstParam, Reads.map (Reads.whileAt (P := NextParamPhrase)
        (I := (¬ Starts [.dot] ·)) (J := (¬ Starts [.dot, .comma] ·)) _
        (fun s h _ => reads_nextParam (Cursor.at?_iff.mp h)) (fun _ _ h => h.run) ?_ hdot) ?_⟩
      · intro s hcomma hdot
        rw [← Bool.not_eq_true, Cursor.at?_iff] at hcomma
        exact (not_starts_append hdot hcomma :)
      · rintro vs ns ts ⟨hmore, hnext⟩
        have hrun : Run .params (us ++ vs) (wordEnd .param) :=
          (hn.run fun _ => .firstParam).append (hmore.run fun _ _ h => h.run)
        exact ⟨n :: ns, rfl, .some hn hmore, _, hrun, fun hparen =>
          refuses_paramEnd (not_starts_append hnext hparen :)⟩
    intro s hs hspelled
    have hgo : params src s = (do
        let first ← name src
        let more ← whileAt (·.at? [.comma]) (nextParam src) (advances_nextParam src)
        return first :: more : Production (List Name)) s := if_pos (Cursor.at?_of_starts hs h)
    rw [hgo]
    exact hsome s hs hspelled
  · intro s hs _
    have hgo : params src s = .found [] s := if_neg (Cursor.at?_of_not_starts hs h)
    have hfound : ReadOutcome src .params (fun us ns ts => ParamsPhrase us ns ∧ ∃ q₁,
        Run .params us q₁ ∧ (¬ Starts [.rparen] ts → q₁.Refuses ts)) s
        (.found [] (s.past [] ts)) := by
      exact .found hs inline_nil ⟨.none, .params, rfl, fun hparen =>
        refuses_params (not_starts_append h hparen :)⟩
    rwa [Cursor.past_nil hs, ← hgo] at hfound

theorem reads_header (h : Starts [.funcWord] ts) :
    Reads src (start false) (fun us x _ => HeaderPhrase us x.1 x.2) (header src) ts := by
  refine (reads_advance h (by decide)).bind ?_
  rintro _ w ts ⟨rfl, hw⟩
  have hw : w.kind = .funcWord := by simpa using hw
  refine ⟨_, Step.run (.func hw), (reads_name (fun _ => .word) refuses_word).bind ?_⟩
  rintro us n ts ⟨hn, hdot⟩
  have hend (h : ¬ Starts [.lparen] ts) : (wordEnd .func).Refuses ts :=
    refuses_funcEnd (not_starts_append hdot h :)
  refine ⟨_, hn.run fun _ => .word, (reads_expect hend (by decide)).bind ?_⟩
  rintro _ l ts ⟨rfl, hl⟩
  have hl : l.kind = .lparen := by simpa using hl
  refine ⟨_, Step.run (.lparen hl), reads_params.bind ?_⟩
  rintro vs ns ts ⟨hns, q₁, hrun, hdue⟩
  refine ⟨q₁, hrun, (reads_expect hdue (by decide)).map ?_⟩
  rintro _ r ts ⟨rfl, hr⟩
  exact ⟨_, rfl, by simpa using HeaderPhrase.intro hw hn hl hns (by simpa using hr)⟩

end Productions

end ScripCheck
