import ScripCheck.Proofs.Token.Seam
import ScripCheck.Proofs.Token.Spelled

/-!
# The tokens of a piece of text

`Cuts last cs P last' next`: before any text that starts with a character of `next`, the text `cs`
is cut into tokens with the property `P`, and nothing in it is stray. The text behind is in the
definition, so pieces can be put together (`Cuts.append`, `cuts_flatMap`).

* `cuts_space`, `cuts_newline`, `cuts_absorbed`: blanks and line breaks.
* `cuts_word`, `cuts_lone`, `cuts_quoted`, `cuts_number`: pieces of one token.
-/

namespace ScripCheck

/-- `last` is the kind of the token before the text `cs`, and `last'` that of the last token before
the text behind it. -/
def Cuts (last : Option Kind) (cs : List Char) (P : List Token → Prop) (last' : Option Kind)
    (next : Char → Bool) : Prop :=
  ∀ v lo, (∀ c ∈ v.head?, next c = true) → ∃ us, P us ∧
    dropLayout last (lexemes lo (cs ++ v)) = us ++ dropLayout last' (lexemes (lo + cs.length) v) ∧
    strays (lexemes lo (cs ++ v)) = strays (lexemes (lo + cs.length) v)

/-- Any text may follow. -/
def anyNext (_c : Char) : Bool := true

/-- Nothing that goes on a word may follow. -/
def endsWord (c : Char) : Bool := !isWordPart c

/-- One token of this kind and text. -/
inductive OneToken (k : Kind) (w : List Char) : List Token → Prop where
  | intro {t : Token} (kind : t.kind = k) (text : t.text = String.ofList w) : OneToken k w [t]

/-- Tokens with the one property, then tokens with the other. -/
inductive Both (P Q : List Token → Prop) : List Token → Prop where
  | intro {us vs : List Token} (left : P us) (right : Q vs) : Both P Q (us ++ vs)

section Rules

variable {last last₁ last₂ : Option Kind} {cs ds w : List Char} {P Q : List Token → Prop}
  {next next' : Char → Bool} {k k' : Kind} {c : Char}

theorem Cuts.mono (h : Cuts last cs P last₁ next) (hPQ : ∀ us, P us → Q us) :
    Cuts last cs Q last₁ next := fun v lo hv =>
  let ⟨us, hus, hcut⟩ := h v lo hv
  ⟨us, hPQ us hus, hcut⟩

theorem Cuts.before (h : Cuts last cs P last₁ next) (hnext : ∀ c, next' c = true → next c = true) :
    Cuts last cs P last₁ next' := fun v lo hv => h v lo fun c hc => hnext c (hv c hc)

theorem cuts_nil (hP : P []) : Cuts last [] P last next := fun _ _ _ => ⟨[], hP, rfl, rfl⟩

theorem Cuts.append (h₁ : Cuts last cs P last₁ next) (h₂ : Cuts last₁ ds Q last₂ next')
    (hstart : ∀ v, (∀ c ∈ v.head?, next' c = true) → ∀ c ∈ (ds ++ v).head?, next c = true) :
    Cuts last (cs ++ ds) (Both P Q) last₂ next' := by
  intro v lo hv
  obtain ⟨us, hus, htokens₁, hstrays₁⟩ := h₁ (ds ++ v) lo (hstart v hv)
  obtain ⟨vs, hvs, htokens₂, hstrays₂⟩ := h₂ v (lo + cs.length) hv
  refine ⟨us ++ vs, .intro hus hvs, ?_, ?_⟩
  · rw [List.append_assoc, htokens₁, htokens₂, List.append_assoc, List.length_append,
      Nat.add_assoc]
  · rw [List.append_assoc, hstrays₁, hstrays₂, List.length_append, Nat.add_assoc]

/-- Where the first piece may have any text behind it, so may it have the second. -/
theorem Cuts.append_any (h₁ : Cuts last cs P last₁ anyNext) (h₂ : Cuts last₁ ds Q last₂ next') :
    Cuts last (cs ++ ds) (Both P Q) last₂ next' :=
  h₁.append h₂ fun _ _ _ _ => rfl

/-- What pieces one after another start with. -/
theorem next_flatMap {α : Type} {chars : α → List Char}
    (hstart : ∀ a v, (∀ c ∈ v.head?, next c = true) → ∀ c ∈ (chars a ++ v).head?, next c = true)
    (as : List α) {v : List Char} (hv : ∀ c ∈ v.head?, next c = true) :
    ∀ c ∈ (as.flatMap chars ++ v).head?, next c = true := by
  induction as with
  | nil => exact hv
  | cons a as ih => simpa [List.append_assoc] using hstart a _ ih

/-- Pieces one after another. -/
theorem cuts_flatMap {α β : Type} {chars : α → List Char} {L : List Token → β → Prop}
    {R : α → β → Prop}
    (h : ∀ a last, ∃ last', Cuts last (chars a) (fun us => ∃ b, L us b ∧ R a b) last' next)
    (hstart : ∀ a v, (∀ c ∈ v.head?, next c = true) → ∀ c ∈ (chars a ++ v).head?, next c = true)
    (as : List α) (last : Option Kind) : ∃ last', Cuts last (as.flatMap chars)
      (fun us => ∃ bs, Star L us bs ∧ List.Forall₂ R as bs) last' next := by
  induction as generalizing last with
  | nil => exact ⟨last, cuts_nil ⟨[], .nil, .nil⟩⟩
  | cons a as ih =>
    obtain ⟨last₁, hfirst⟩ := h a last
    obtain ⟨last₂, hrest⟩ := ih last₁
    refine ⟨last₂, (hfirst.append hrest fun _ => next_flatMap hstart as).mono ?_⟩
    rintro _ ⟨⟨b, hb, hab⟩, bs, hbs, habs⟩
    exact ⟨b :: bs, .cons hb hbs, .cons hab habs⟩

/-! ## Pieces of one token -/

theorem cuts_token (hw : w ≠ []) (hrefine : k.refine (String.ofList w) = k')
    (hk' : k' ∉ [.blank, .stray, .newline])
    (hfront : ∀ v, (∀ c ∈ v.head?, next c = true) → longestLexeme (w ++ v) = (k, w.length)) :
    Cuts last w (OneToken k' w) (some k') next := by
  intro v lo hv
  simp only [List.mem_cons, List.not_mem_nil, or_false, not_or] at hk'
  rw [lexemes_front lo hw (hfront v hv), hrefine]
  refine ⟨[⟨k', String.ofList w, ⟨lo, (lo + w.length : Nat)⟩⟩], .intro rfl rfl, ?_, ?_⟩
  · simp [dropLayout, hk']
  · simp [strays, hk']

theorem cuts_space : Cuts last [' '] (· = []) last anyNext := by
  intro v lo _
  have hspace : ∀ c ∈ [' '], isSpace c = true := by simp [isSpace]
  have hsolid := solid_blanks lo hspace v
  exact ⟨[], rfl, by rw [← dropLayout_solid, hsolid, dropLayout_solid]; rfl,
    by rw [← strays_solid, hsolid, strays_solid]⟩

/-- A line break ends a statement. -/
theorem cuts_newline (hlast : last.all Kind.absorbsNewline = false) :
    Cuts last ['\n'] (OneToken .newline ['\n']) (some .newline) anyNext := by
  intro v lo _
  rw [List.singleton_append, lexemes_break lo rfl]
  refine ⟨[⟨.newline, String.ofList ['\n'], ⟨lo, lo + 1⟩⟩], .intro rfl rfl, ?_, ?_⟩
  · simp [dropLayout, hlast]
  · simp [strays]

/-- A line break that ends no statement is dropped. -/
theorem cuts_absorbed (hlast : last.all Kind.absorbsNewline = true) :
    Cuts last ['\n'] (· = []) last anyNext := by
  intro v lo _
  rw [List.singleton_append, lexemes_break lo rfl]
  refine ⟨[], rfl, ?_, ?_⟩
  · simp [dropLayout, hlast]
  · simp [strays]

/-- A word, which may be a keyword. -/
theorem cuts_word (last : Option Kind) (c : Char) (cs : List Char) (hc : isWordStart c = true)
    (hcs : ∀ d ∈ cs, isWordPart d = true) (hk : Kind.ofWord (String.ofList (c :: cs)) = k)
    (hk' : k ∉ [.blank, .stray, .newline]) :
    Cuts last (c :: cs) (OneToken k (c :: cs)) (some k) endsWord :=
  cuts_token (k := .ident) (List.cons_ne_nil c cs) hk hk' fun v hv =>
    longestLexeme_word hc hcs fun d hd => by simpa [endsWord] using hv d hd

/-- A sign that is a lexeme of its own. -/
theorem cuts_lone (hc : isLone c = true) (hbest : longestLexeme [c] = (k, 1))
    (hk : k ∉ [.blank, .stray, .newline, .ident]) :
    Cuts last [c] (OneToken k [c]) (some k) anyNext := by
  simp only [List.mem_cons, List.not_mem_nil, or_false, not_or] at hk
  refine cuts_token (k := k) (List.cons_ne_nil c []) (if_neg hk.2.2.2) (by simp [hk]) fun v _ => ?_
  exact (longestLexeme_lone hc v).trans hbest

theorem cuts_quoted (hcs : '"' ∉ cs) : Cuts last ('"' :: (cs ++ ['"']))
    (OneToken .strLit ('"' :: (cs ++ ['"']))) (some .strLit) anyNext := by
  refine cuts_token (k := .strLit) (List.cons_ne_nil _ _) rfl (by decide) fun v _ => ?_
  rw [List.cons_append, List.append_assoc, List.singleton_append, longestLexeme_literal hcs]
  simp

/-- A number, before a line break. -/
theorem cuts_number (hw : w ≠ []) (hquote : w.head? ≠ some '"')
    (hbest : longestLexeme w = (k, w.length)) (hk : k ∉ [.blank, .stray, .newline, .ident]) :
    Cuts last w (OneToken k w) (some k) isBreak := by
  simp only [List.mem_cons, List.not_mem_nil, or_false, not_or] at hk
  refine cuts_token (k := k) hw (if_neg hk.2.2.2) (by simp [hk]) fun v hv => ?_
  rw [longestLexeme_append_break hw hquote hv, hbest]

end Rules

end ScripCheck
