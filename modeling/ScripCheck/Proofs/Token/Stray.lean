import ScripCheck.Proofs.Token.Layout
import ScripCheck.Proofs.Token.Leading

/-!
# Stray characters

Quotes are paired from left to right over the whole text. A stray is a character outside of all
pairs that is not plain, or that is the quote without a partner.

* `quoteOffsets`, `quotePairs`, `loneQuote?`: the quotes of a text and their pairs.
* `StrayAt`: there is a stray at the offset. `strayAt_append`: a text in two parts.
* `strayAt_iff`: these are the offsets of the lexemes that are strays.
-/

namespace ScripCheck

/-- The offsets of the quotes in a text that starts at the offset `lo`. -/
def quoteOffsets (lo : Nat) (cs : List Char) : List Nat :=
  ((cs.zipIdx lo).filter (·.1 = '"')).map (·.2)

/-- The first with the second, the third with the fourth, and so on. -/
def quotePairs : List Nat → List (Nat × Nat)
  | a :: b :: os => (a, b) :: quotePairs os
  | _ => []

/-- The last one, if it has no partner. -/
def loneQuote? : List Nat → Option Nat
  | [] => none
  | [a] => some a
  | _ :: _ :: os => loneQuote? os

example : quotePairs (quoteOffsets 0 "\"a\" \"b".toList) = [(0, 2)] ∧
    loneQuote? (quoteOffsets 0 "\"a\" \"b".toList) = some 4 := by decide

/-- The character at the offset `i` of a text that starts at `lo` is in no pair of quotes, and is
not plain or has no partner. -/
structure StrayAt (lo : Nat) (cs : List Char) (i : Nat) : Prop where
  outside : ∀ p ∈ quotePairs (quoteOffsets lo cs), ¬ (p.1 ≤ i ∧ i ≤ p.2)
  strange : ∃ c, (c, i) ∈ cs.zipIdx lo ∧
    (isPlain c = false ∨ loneQuote? (quoteOffsets lo cs) = some i)

section Quotes

variable {lo i a : Nat} {u v cs : List Char} {c : Char} {os os' : List Nat} {p : Nat × Nat}

theorem quoteOffsets_append (lo : Nat) (u v : List Char) :
    quoteOffsets lo (u ++ v) = quoteOffsets lo u ++ quoteOffsets (lo + u.length) v := by
  simp [quoteOffsets, List.zipIdx_append]

theorem quoteOffsets_quote (lo : Nat) (cs : List Char) :
    quoteOffsets lo ('"' :: cs) = lo :: quoteOffsets (lo + 1) cs := by
  simp [quoteOffsets]

theorem quoteOffsets_of_notMem (lo : Nat) (h : '"' ∉ cs) : quoteOffsets lo cs = [] := by
  simp only [quoteOffsets, List.map_eq_nil_iff, List.filter_eq_nil_iff, decide_eq_true_eq]
  rintro ⟨c, i⟩ hc rfl
  exact h (List.fst_mem_of_mem_zipIdx hc)

/-- A string literal has its two quotes. -/
theorem quoteOffsets_literal (lo : Nat) (hu : '"' ∉ u) :
    quoteOffsets lo ('"' :: (u ++ ['"'])) = [lo, lo + 1 + u.length] := by
  rw [quoteOffsets_quote, quoteOffsets_append, quoteOffsets_of_notMem _ hu, quoteOffsets_quote]
  rfl

theorem quoteOffsets_range (ha : a ∈ quoteOffsets lo cs) : lo ≤ a ∧ a < lo + cs.length := by
  obtain ⟨⟨c, i⟩, hc, rfl⟩ := List.mem_map.mp ha
  have hc := (List.mem_filter.mp hc).1
  exact ⟨List.le_snd_of_mem_zipIdx hc, List.snd_lt_add_of_mem_zipIdx hc⟩

theorem mem_of_quotePairs (hp : p ∈ quotePairs os) : p.1 ∈ os ∧ p.2 ∈ os := by
  fun_induction quotePairs os with
  | case1 a b os ih =>
    rcases List.mem_cons.mp hp with rfl | hp
    · simp
    · simp [ih hp]
  | case2 => simp at hp

theorem mem_of_loneQuote? (ha : loneQuote? os = some a) : a ∈ os := by
  fun_induction loneQuote? os with
  | case1 => cases ha
  | case2 b => simpa using ha.symm
  | case3 b d os ih => simp [ih ha]

/-- Where all quotes have partners, or no quotes follow, no pair reaches over the end. -/
theorem quotePairs_append (h : loneQuote? os = none ∨ os' = []) :
    quotePairs (os ++ os') = quotePairs os ++ quotePairs os' := by
  fun_induction quotePairs os with
  | case1 a b os ih => exact congrArg ((a, b) :: ·) (ih h)
  | case2 os hos =>
    match os, h with
    | [], _ => rfl
    | [a], .inr h => rw [h]; rfl
    | a :: b :: os, _ => exact absurd rfl (hos a b os)

theorem loneQuote?_append (h : loneQuote? os = none ∨ os' = []) :
    loneQuote? (os ++ os') = some a ↔ loneQuote? os = some a ∨ loneQuote? os' = some a := by
  fun_induction loneQuote? os with
  | case1 => simp
  | case2 b => rcases h with h | rfl <;> simp_all [loneQuote?]
  | case3 b d os ih => exact ih h

/-! ## Strays of a text in two parts -/

theorem StrayAt.range (h : StrayAt lo cs i) : lo ≤ i ∧ i < lo + cs.length := by
  obtain ⟨c, hc, -⟩ := h.strange
  exact ⟨List.le_snd_of_mem_zipIdx hc, List.snd_lt_add_of_mem_zipIdx hc⟩

/-- Where no pair of quotes reaches over the end of the first part, the parts do not matter to each
other. -/
theorem strayAt_append (h : loneQuote? (quoteOffsets lo u) = none ∨ '"' ∉ v) :
    StrayAt lo (u ++ v) i ↔ StrayAt lo u i ∨ StrayAt (lo + u.length) v i := by
  have h' := h.imp_right fun h => quoteOffsets_of_notMem (lo + u.length) h
  have hleft (p : Nat × Nat) (hp : p ∈ quotePairs (quoteOffsets lo u)) : p.2 < lo + u.length :=
    (quoteOffsets_range (mem_of_quotePairs hp).2).2
  have hright (p : Nat × Nat) (hp : p ∈ quotePairs (quoteOffsets (lo + u.length) v)) :
      lo + u.length ≤ p.1 := (quoteOffsets_range (mem_of_quotePairs hp).1).1
  constructor
  · rintro ⟨houtside, c, hc, hstrange⟩
    rw [quoteOffsets_append, quotePairs_append h'] at houtside
    rw [quoteOffsets_append, loneQuote?_append h'] at hstrange
    rw [List.zipIdx_append, List.mem_append] at hc
    rcases hc with hc | hc
    · have hlt := List.snd_lt_add_of_mem_zipIdx hc
      refine .inl ⟨fun p hp => houtside p (List.mem_append_left _ hp), c, hc, ?_⟩
      refine hstrange.imp_right fun h => h.resolve_right fun h => ?_
      have := (quoteOffsets_range (mem_of_loneQuote? h)).1
      omega
    · have hle := List.le_snd_of_mem_zipIdx hc
      refine .inr ⟨fun p hp => houtside p (List.mem_append_right _ hp), c, hc, ?_⟩
      refine hstrange.imp_right fun h => h.resolve_left fun h => ?_
      have := (quoteOffsets_range (mem_of_loneQuote? h)).2
      omega
  · intro hstray
    have houtside : ∀ p ∈ quotePairs (quoteOffsets lo (u ++ v)), ¬ (p.1 ≤ i ∧ i ≤ p.2) := by
      rw [quoteOffsets_append, quotePairs_append h']
      intro p hp
      rcases List.mem_append.mp hp with hp | hp <;> rcases hstray with h | h
      · exact h.outside p hp
      · have := hleft p hp
        have := h.range
        omega
      · have := hright p hp
        have := h.range
        omega
      · exact h.outside p hp
    refine ⟨houtside, ?_⟩
    rw [quoteOffsets_append, loneQuote?_append h', List.zipIdx_append]
    rcases hstray with ⟨-, c, hc, hstrange⟩ | ⟨-, c, hc, hstrange⟩
    · exact ⟨c, List.mem_append_left _ hc, hstrange.imp_right .inl⟩
    · exact ⟨c, List.mem_append_right _ hc, hstrange.imp_right .inr⟩

/-! ## Strays among the lexemes -/

theorem strayAt_literal (hu : '"' ∉ u) : ¬ StrayAt lo ('"' :: (u ++ ['"'])) i := by
  intro h
  have hrange := h.range
  have houtside := h.outside
  rw [quoteOffsets_literal lo hu] at houtside
  refine houtside (lo, lo + 1 + u.length) List.mem_cons_self ⟨hrange.1, ?_⟩
  simp only [List.length_cons, List.length_append, List.length_nil] at hrange
  omega

theorem strayAt_plain (hu : ∀ c ∈ u, isPlain c = true) : ¬ StrayAt lo u i := by
  intro h
  obtain ⟨c, hc, hstrange⟩ := h.strange
  have hplain := hu c (List.fst_mem_of_mem_zipIdx hc)
  have hquote : '"' ∉ u := fun hquote => absurd (hu _ hquote) (by decide)
  rw [quoteOffsets_of_notMem lo hquote, hplain] at hstrange
  simp [loneQuote?] at hstrange

theorem strayAt_strange (hc : isPlain c = false) : StrayAt lo [c] i ↔ i = lo := by
  have hpairs : quotePairs (quoteOffsets lo [c]) = [] := by
    by_cases h : c = '"' <;> simp [quoteOffsets, h, quotePairs]
  refine ⟨fun h => ?_, ?_⟩
  · have := h.range
    simp only [List.length_singleton] at this
    omega
  · rintro rfl
    exact ⟨by simp [hpairs], c, by simp, .inl hc⟩

/-- The lexeme at the front of a text takes the strays there. -/
theorem strayAt_longestLexeme (lo : Nat) (hcs : cs ≠ []) : StrayAt lo cs i ↔
    ((longestLexeme cs).1 = .stray ∧ i = lo) ∨
      StrayAt (lo + (longestLexeme cs).2) (cs.drop (longestLexeme cs).2) i := by
  have hlength := longestLexeme_le hcs
  have hleading := leading hcs
  generalize longestLexeme cs = best at hlength hleading
  cases hleading with
  | @literal u v closed =>
    have hseam : loneQuote? (quoteOffsets lo ('"' :: (u ++ ['"']))) = none := by
      rw [quoteOffsets_literal lo closed]; rfl
    have hsplit := strayAt_append (v := v) (i := i) (.inl hseam)
    rw [or_iff_right (strayAt_literal closed)] at hsplit
    simpa using hsplit
  | @stray c v strange unclosed =>
    have hseam : loneQuote? (quoteOffsets lo [c]) = none ∨ '"' ∉ v := by
      by_cases h : c = '"'
      · exact .inr (unclosed h)
      · exact .inl (by simp [quoteOffsets, h, loneQuote?])
    have hsplit := strayAt_append (i := i) hseam
    rw [strayAt_strange strange] at hsplit
    simpa using hsplit
  | token kind plain =>
    have hquote : '"' ∉ cs.take best.2 := fun hquote => absurd (plain _ hquote) (by decide)
    have hseam : loneQuote? (quoteOffsets lo (cs.take best.2)) = none := by
      rw [quoteOffsets_of_notMem lo hquote]; rfl
    have hsplit := strayAt_append (v := cs.drop best.2) (i := i) (.inl hseam)
    rw [List.take_append_drop, List.length_take_of_le hlength] at hsplit
    have hkind : best.1 ≠ .stray := fun h => kind (by simp [h])
    simpa [strayAt_plain plain, hkind] using hsplit

/-- The lexemes that are strays are at the offsets of strays. -/
theorem strayAt_iff (lo : Nat) (cs : List Char) (i : Nat) :
    StrayAt lo cs i ↔ ∃ t ∈ lexemes lo cs, t.kind = .stray ∧ t.span.lo = i := by
  induction lo, cs using lexemes_induction with
  | nil lo => exact ⟨fun ⟨_, _, hc, _⟩ => by simp at hc, by simp⟩
  | cons lo cs hcs ih =>
    rw [strayAt_longestLexeme lo hcs, ih, lexemes_eq lo hcs, List.exists_mem_cons_iff,
      lexeme_isStray]
    refine or_congr (and_congr_right fun _ => ?_) Iff.rfl
    simp only [lexeme]
    omega

theorem lexemes_stray {t : Token} (ht : t ∈ lexemes lo cs) (hk : t.kind = .stray) :
    t.span.hi = t.span.lo + 1 := by
  induction lo, cs using lexemes_induction with
  | nil lo => simp at ht
  | cons lo cs hcs ih =>
    rw [lexemes_eq lo hcs] at ht
    rcases List.mem_cons.mp ht with rfl | ht
    · rw [lexeme, longestLexeme_stray hcs (lexeme_isStray.mp hk)]; simp
    · exact ih ht

end Quotes

end ScripCheck
