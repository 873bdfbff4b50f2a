import ScripCheck.Proofs.Token.Munch
import ScripCheck.Token.Lexer

/-!
# Lexemes and tokens

* `lexeme`, `lexemes_eq`: one lexeme, and how the lexemes of a text go on after it.
* `flatMap_lexemes`: the lexemes lose no character.
* `lexemes_pairwise`, `lexeme_span`: they are nonempty and come one after another.
* `lex_sublist`: tokens are some of the lexemes, in order.
* `InOrder`: nonempty tokens that come one after another. `lex_inOrder`: those of a text do.
-/

namespace ScripCheck

/-- The lexeme at the front of the text `cs`, which is at the offset `lo`. -/
def lexeme (lo : Nat) (cs : List Char) : Token :=
  let text := String.ofList (cs.take (longestLexeme cs).2)
  ⟨(longestLexeme cs).1.refine text, text, ⟨lo, (lo + (longestLexeme cs).2 : Nat)⟩⟩

section Lexemes

variable {lo : Nat} {cs : List Char} {t : Token}

@[simp] theorem lexemes_nil (lo : Nat) : lexemes lo [] = [] := by rw [lexemes]

theorem lexemes_eq (lo : Nat) (hcs : cs ≠ []) : lexemes lo cs =
    lexeme lo cs :: lexemes (lo + (longestLexeme cs).2) (cs.drop (longestLexeme cs).2) := by
  have hpos := longestLexeme_pos hcs
  obtain ⟨c, cs, rfl⟩ := List.exists_cons_of_ne_nil hcs
  rw [lexemes, lexeme]
  generalize longestLexeme (c :: cs) = best at hpos ⊢
  obtain ⟨kind, n⟩ := best
  cases n with
  | zero => cases hpos
  | succ n => rfl

/-- Induction from lexeme to lexeme. -/
theorem lexemes_induction {P : Nat → List Char → Prop} (nil : ∀ lo, P lo [])
    (cons : ∀ lo cs, cs ≠ [] →
      P (lo + (longestLexeme cs).2) (cs.drop (longestLexeme cs).2) → P lo cs)
    (lo : Nat) (cs : List Char) : P lo cs := by
  induction hn : cs.length using Nat.strongRecOn generalizing lo cs with
  | _ n ih =>
    by_cases hcs : cs = []
    · exact hcs ▸ nil lo
    · refine cons lo cs hcs (ih _ ?_ _ _ rfl)
      have hpos := longestLexeme_pos hcs
      have hlength := List.length_pos_of_ne_nil hcs
      rw [List.length_drop]
      omega

/-- The lexemes lose no character. -/
theorem flatMap_lexemes (lo : Nat) (cs : List Char) :
    (lexemes lo cs).flatMap (·.text.toList) = cs := by
  induction lo, cs using lexemes_induction with
  | nil lo => simp
  | cons lo cs hcs ih =>
    rw [lexemes_eq lo hcs, List.flatMap_cons, ih, lexeme, String.toList_ofList,
      List.take_append_drop]

theorem lexemes_shift (d lo : Nat) (cs : List Char) :
    lexemes (lo + d) cs = (lexemes lo cs).map (Token.shift d) := by
  induction lo, cs using lexemes_induction with
  | nil lo => simp
  | cons lo cs hcs ih =>
    have hlexeme : lexeme (lo + d) cs = (lexeme lo cs).shift d := by
      simp only [lexeme, Token.shift, Span.shift]
      congr 2
      omega
    rw [lexemes_eq _ hcs, lexemes_eq _ hcs, List.map_cons, ← ih, hlexeme, Nat.add_right_comm]

/-! ## Spans -/

theorem lexeme_span (ht : t ∈ lexemes lo cs) : (lo : Int) ≤ t.span.lo ∧ t.span.lo < t.span.hi := by
  induction lo, cs using lexemes_induction with
  | nil lo => simp at ht
  | cons lo cs hcs ih =>
    have hpos := longestLexeme_pos hcs
    rw [lexemes_eq lo hcs] at ht
    rcases List.mem_cons.mp ht with rfl | ht
    · simp only [lexeme]
      omega
    · have := ih ht
      omega

/-- Lexemes come one after another. -/
theorem lexemes_pairwise (lo : Nat) (cs : List Char) :
    (lexemes lo cs).Pairwise fun t u => t.span.hi ≤ u.span.lo := by
  induction lo, cs using lexemes_induction with
  | nil lo => simp
  | cons lo cs hcs ih =>
    rw [lexemes_eq lo hcs]
    exact .cons (fun u hu => (lexeme_span hu).1) ih

/-! ## Kinds -/

theorem Kind.ofWord_source (word : String) :
    Kind.ofWord word = .ident ∨ (word, Kind.ofWord word) ∈ Kind.words := by
  unfold ofWord
  cases h : words.lookup word with
  | none => exact .inl rfl
  | some k =>
    obtain ⟨before, after, hsplit, -⟩ := List.lookup_eq_some_iff.mp h
    exact .inr (hsplit ▸ List.mem_append_right before List.mem_cons_self)

/-- A word that is no plain identifier is in the table. -/
theorem Kind.refine_source {k k' : Kind} {text : String} (h : k.refine text = k') :
    k = k' ∨ k' = .ident ∨ (text, k') ∈ Kind.words := by
  unfold refine at h
  split at h
  · exact .inr (h ▸ ofWord_source text)
  · exact .inl h

/-- Where a kind is not the kind of a word, it is the kind of the rule. -/
theorem Kind.of_refine {k k' : Kind} {text : String} (h : k.refine text = k') (hk' : k' ∉
    [.globalWord, .funcWord, .whileWord, .ifWord, .returnWord, .boolLit, .ident]) : k = k' := by
  have hwords : ∀ p ∈ Kind.words, p.2 ∈
      [.globalWord, .funcWord, .whileWord, .ifWord, .returnWord, .boolLit, .ident] := by decide
  rcases refine_source h with h | rfl | h
  · exact h
  · exact absurd (by decide) hk'
  · exact absurd (hwords _ h) hk'

theorem lexeme_isStray : (lexeme lo cs).kind = .stray ↔ (longestLexeme cs).1 = .stray :=
  ⟨fun h => Kind.of_refine h (by decide), fun h => by rw [lexeme, h]; rfl⟩

/-- The text of a lexeme belongs to the language of a rule, which gives the lexeme its kind. -/
theorem lexemes_rule (ht : t ∈ lexemes lo cs) :
    ∃ r ∈ rules, r.pattern.Accepts t.text.toList ∧ r.kind.refine t.text = t.kind := by
  induction lo, cs using lexemes_induction with
  | nil lo => simp at ht
  | cons lo cs hcs ih =>
    rw [lexemes_eq lo hcs] at ht
    rcases List.mem_cons.mp ht with rfl | ht
    · obtain ⟨r, hr, hkind, -, haccepts⟩ := longestLexeme_mem hcs
      exact ⟨r, hr, by simpa [lexeme] using haccepts, by rw [hkind]; rfl⟩
    · exact ih ht

/-- A boolean literal is one of the two words. -/
theorem lexemes_booleansSpelled (ht : t ∈ lexemes lo cs) (hk : t.kind = .boolLit) :
    t.text = "True" ∨ t.text = "False" := by
  obtain ⟨r, hr, -, hkind⟩ := lexemes_rule ht
  rw [hk] at hkind
  have hrules : ∀ r ∈ rules, r.kind ≠ .boolLit := by simp [rules]
  rcases Kind.refine_source hkind with h | h | h
  · exact absurd h (hrules r hr)
  · cases h
  · simpa [Kind.words] using h

end Lexemes

/-! ## Tokens -/

section Tokens

variable {src : List Char} {ts : List Token} {last : Option Kind}

theorem dropLayout_sublist (last : Option Kind) (ts : List Token) :
    (dropLayout last ts).Sublist ts := by
  induction ts generalizing last with
  | nil => exact .slnil
  | cons t ts ih =>
    unfold dropLayout
    split
    · exact (ih last).cons t
    · split
      · exact (ih last).cons t
      · exact (ih _).cons_cons t

theorem lex_eq_ok (h : lex src = .ok ts) :
    strays (lexemes 0 src) = [] ∧ ts = dropLayout none (lexemes 0 src) := by
  unfold lex at h
  dsimp only at h
  split at h
  · next hstrays => exact ⟨hstrays, (Except.ok.inj h).symm⟩
  · cases h

theorem lex_of_no_strays (h : strays (lexemes 0 src) = []) :
    lex src = .ok (dropLayout none (lexemes 0 src)) := by
  unfold lex
  simp only [h]

theorem lex_of_strays {e : LexError} {es : List LexError}
    (h : strays (lexemes 0 src) = e :: es) : lex src = .error (e :: es) := by
  unfold lex
  simp only [h]

theorem lex_eq_error {es : List LexError} (h : lex src = .error es) :
    ∃ e es', es = e :: es' ∧ strays (lexemes 0 src) = e :: es' := by
  cases hstrays : strays (lexemes 0 src) with
  | nil => rw [lex_of_no_strays hstrays] at h; cases h
  | cons e es' => rw [lex_of_strays hstrays] at h; cases h; exact ⟨e, es', rfl, rfl⟩

theorem lex_sublist (h : lex src = .ok ts) : ts.Sublist (lexemes 0 src) :=
  (lex_eq_ok h).2 ▸ dropLayout_sublist none _

theorem lex_booleansSpelled (h : lex src = .ok ts) :
    ∀ t ∈ ts, t.kind = .boolLit → t.text = "True" ∨ t.text = "False" :=
  fun _ ht => lexemes_booleansSpelled ((lex_sublist h).subset ht)

end Tokens

/-! ## Order -/

/-- The tokens are not empty, and each ends before the next one starts. -/
structure InOrder (ts : List Token) : Prop where
  nonempty : ∀ t ∈ ts, t.span.lo < t.span.hi
  pairwise : ts.Pairwise fun t u => t.span.hi ≤ u.span.lo

section Order

variable {src : List Char} {ts us vs : List Token} {t r : Token}

theorem lex_inOrder (h : lex src = .ok ts) : InOrder ts where
  nonempty _ ht := (lexeme_span ((lex_sublist h).subset ht)).2
  pairwise := (lexemes_pairwise 0 src).sublist (lex_sublist h)

theorem InOrder.sublist (h : InOrder vs) (hsub : us.Sublist vs) : InOrder us :=
  ⟨fun t ht => h.nonempty t (hsub.subset ht), h.pairwise.sublist hsub⟩

theorem InOrder.left (h : InOrder (us ++ vs)) : InOrder us :=
  h.sublist (List.sublist_append_left us vs)

theorem InOrder.right (h : InOrder (us ++ vs)) : InOrder vs :=
  h.sublist (List.sublist_append_right us vs)

theorem InOrder.le (h : InOrder (us ++ vs)) (ht : t ∈ us) (hr : r ∈ vs) : t.span.hi ≤ r.span.lo :=
  (List.pairwise_append.mp h.pairwise).2.2 t ht r hr

/-- No token ends after the last one. -/
theorem InOrder.le_last (h : InOrder us) (hr : us.getLast? = some r) (ht : t ∈ us) :
    t.span.hi ≤ r.span.hi := by
  obtain ⟨us, rfl⟩ := List.getLast?_eq_some_iff.mp hr
  have hlast := h.nonempty r (by simp)
  rcases List.mem_append.mp ht with ht | ht
  · have := h.le ht (List.mem_singleton_self r)
    omega
  · obtain rfl := List.mem_singleton.mp ht
    exact Int.le_refl _

/-- No token starts before the first one. -/
theorem InOrder.first_le (h : InOrder us) (ht : us.head? = some t) (hr : r ∈ us) :
    t.span.lo ≤ r.span.lo := by
  obtain ⟨us, rfl⟩ := List.head?_eq_some_iff.mp ht
  have hfirst := h.nonempty t List.mem_cons_self
  rcases List.mem_cons.mp hr with rfl | hr
  · exact Int.le_refl _
  · have := (List.pairwise_cons.mp h.pairwise).1 r hr
    omega

end Order

end ScripCheck
