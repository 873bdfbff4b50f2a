import Mathlib.Data.List.Pairwise
import ScripCheck.Proofs.Token.Respaced
import ScripCheck.Proofs.Token.Runs

/-!
# What lies between the tokens

* `isLayout`: a character that may go. Blanks may go everywhere, line breaks only where they end no
  statement.
* `Laced`: a text as tokens with layout between them. `dropLayout_laced`: what is kept of the
  lexemes of a text, if none of them is a stray character.
* `Laced.layout`, `Laced.newline`: what no token covers is layout, and no line break is kept where
  it may go.
* `InOrder.covered_or_between`: a place is in a token or between two of them.
* `lex_layout`: the tokens of a text are all of it but the layout.
-/

namespace ScripCheck

/-- A character that may go behind a token of kind `last`. -/
def isLayout (last : Option Kind) (c : Char) : Bool :=
  isSpace c || (isBreak c && last.all Kind.absorbsNewline)

/-- The text `cs`, at the offset `lo` and behind a token of kind `last`, is the tokens with layout
before, between and behind them. -/
inductive Laced : Option Kind → Nat → List Char → List Token → Prop where
  | done {last : Option Kind} {lo : Nat} {cs : List Char}
      (layout : ∀ c ∈ cs, isLayout last c = true) : Laced last lo cs []
  | token {last : Option Kind} {lo : Nat} {u v : List Char} {t : Token} {ts : List Token}
      (layout : ∀ c ∈ u, isLayout last c = true)
      (newline : t.kind = .newline → last.all Kind.absorbsNewline = false)
      (start : t.span.lo = (lo + u.length : Nat))
      (stop : t.span.hi = (lo + u.length + t.text.toList.length : Nat))
      (rest : Laced (some t.kind) (lo + u.length + t.text.toList.length) v ts) :
      Laced last lo (u ++ (t.text.toList ++ v)) (t :: ts)

section Laced

variable {last : Option Kind} {lo : Nat} {u cs : List Char} {t : Token} {us ts vs : List Token}

/-- More layout in front. -/
theorem Laced.skip (hu : ∀ c ∈ u, isLayout last c = true) (h : Laced last (lo + u.length) cs ts) :
    Laced last lo (u ++ cs) ts := by
  cases h with
  | done layout => exact .done (List.forall_mem_append.mpr ⟨hu, layout⟩)
  | token layout newline start stop rest =>
    rw [← List.append_assoc]
    rw [Nat.add_assoc lo, ← List.length_append] at start stop rest
    exact .token (List.forall_mem_append.mpr ⟨hu, layout⟩) newline start stop rest

/-- The lexeme at the front is layout, or it is kept. -/
theorem lexeme_isLayout (hcs : cs ≠ []) (last : Option Kind) (hk : (lexeme lo cs).kind = .blank ∨
    (lexeme lo cs).kind = .newline ∧ last.all Kind.absorbsNewline = true) :
    ∀ c ∈ cs.take (longestLexeme cs).2, isLayout last c = true := by
  obtain ⟨r, hr, hkind, -, haccepts⟩ := longestLexeme_mem hcs
  have hrule {k : Kind} (h : (lexeme lo cs).kind = k)
      (hk : k ∉ [.globalWord, .funcWord, .whileWord, .ifWord, .returnWord, .boolLit, .ident]) :
      r.kind = k := hkind.trans (Kind.of_refine h hk)
  intro c hc
  rcases hk with hk | ⟨hk, habsorbs⟩
  · have hspace := ((accepts_blank hr (hrule hk (by decide))).mp haccepts).2 c hc
    simp [isLayout, hspace]
  · obtain ⟨d, hd, hbreak⟩ := (accepts_newline hr (hrule hk (by decide))).mp haccepts
    obtain rfl : c = d := by simpa [hd] using hc
    simp [isLayout, hbreak, habsorbs]

/-- What is kept of the lexemes of a text is the text but for layout. -/
theorem dropLayout_laced (last : Option Kind) (lo : Nat) (cs : List Char)
    (hstray : ∀ t ∈ lexemes lo cs, t.kind ≠ .stray) :
    Laced last lo cs (dropLayout last (lexemes lo cs)) := by
  induction lo, cs using lexemes_induction generalizing last with
  | nil lo => exact lexemes_nil lo ▸ .done nofun
  | cons lo cs hcs ih =>
    rw [lexemes_eq lo hcs] at hstray ⊢
    obtain ⟨hfirst, hrest⟩ := List.forall_mem_cons.mp hstray
    have hlength := List.length_take_of_le (longestLexeme_le hcs)
    have hskip (hlayout : ∀ c ∈ cs.take (longestLexeme cs).2, isLayout last c = true) :
        Laced last lo cs (dropLayout last
          (lexemes (lo + (longestLexeme cs).2) (cs.drop (longestLexeme cs).2))) := by
      have hlaced := ih last hrest
      rw [← hlength] at hlaced
      simpa only [hlength, List.take_append_drop] using Laced.skip hlayout hlaced
    rw [dropLayout]
    split
    · next hk => exact hskip (lexeme_isLayout hcs last (.inl (hk.resolve_right hfirst)))
    · split
      · next hk => exact hskip (lexeme_isLayout hcs last (.inr hk))
      · next hk =>
        have htext : (lexeme lo cs).text.toList = cs.take (longestLexeme cs).2 := by
          rw [lexeme, String.toList_ofList]
        have hlaced : Laced last lo
            ([] ++ ((lexeme lo cs).text.toList ++ cs.drop (longestLexeme cs).2))
            (lexeme lo cs :: _) :=
          .token nofun
            (fun hnewline => Bool.eq_false_iff.mpr fun habsorbs => hk ⟨hnewline, habsorbs⟩)
            rfl (by rw [htext, hlength]; rfl) (by rw [htext, hlength]; exact ih _ hrest)
        rwa [htext, List.nil_append, List.take_append_drop] at hlaced

/-- What is behind the tokens `us` and before the tokens `vs` is layout. -/
theorem Laced.layout (h : Laced last lo cs (us ++ vs)) {i : Nat} (hi : i < cs.length)
    (hus : ∀ t ∈ us, t.span.hi ≤ (lo + i : Nat)) (hvs : ∀ t ∈ vs, (lo + i : Nat) < t.span.lo) :
    isLayout (lastKind last us) cs[i] = true := by
  generalize hts : us ++ vs = ts at h
  induction h generalizing us i with
  | done layout =>
    obtain rfl := (List.append_eq_nil_iff.mp hts).1
    exact layout _ (List.getElem_mem hi)
  | @token last lo u v t ts layout newline start stop rest ih =>
    cases us with
    | nil =>
      obtain rfl : vs = t :: ts := hts
      have hbefore := hvs t List.mem_cons_self
      have hu : i < u.length := by omega
      rw [List.getElem_append_left hu]
      exact layout _ (List.getElem_mem hu)
    | cons t' us =>
      obtain ⟨rfl, hrest⟩ := List.cons.inj hts
      obtain ⟨ht, hus⟩ := List.forall_mem_cons.mp hus
      obtain ⟨j, rfl⟩ : ∃ j, i = u.length + (t'.text.toList.length + j) :=
        ⟨i - u.length - t'.text.toList.length, by omega⟩
      have hoffset : lo + (u.length + (t'.text.toList.length + j)) =
          lo + u.length + t'.text.toList.length + j := by omega
      rw [hoffset] at hus hvs
      simp only [List.length_append] at hi
      have hlayout := ih (i := j) (by omega) hus hvs hrest
      rw [lastKind_cons]
      simpa [List.getElem_append_right] using hlayout

/-- A line break is kept only behind a token that does not absorb it. -/
theorem Laced.newline (h : Laced last lo cs (us ++ t :: vs)) (hk : t.kind = .newline) :
    (lastKind last us).all Kind.absorbsNewline = false := by
  generalize hts : us ++ t :: vs = ts at h
  induction h generalizing us with
  | done => cases us <;> cases hts
  | token layout newline start stop rest ih =>
    cases us with
    | nil =>
      obtain ⟨rfl, -⟩ := List.cons.inj hts
      exact newline hk
    | cons t' us =>
      obtain ⟨rfl, hrest⟩ := List.cons.inj hts
      rw [lastKind_cons]
      exact ih hrest

/-- No token reaches behind the text. -/
theorem Laced.le_length (h : Laced last lo cs ts) (ht : t ∈ ts) :
    t.span.hi ≤ (lo + cs.length : Nat) := by
  induction h with
  | done => cases ht
  | token layout newline start stop rest ih =>
    simp only [List.length_append]
    rcases List.mem_cons.mp ht with rfl | ht
    · omega
    · have := ih ht
      omega

end Laced

/-! ## Places -/

/-- The place `i` is behind all tokens of `us` and before all of `vs`. -/
def Between (us : List Token) (i : Int) (vs : List Token) : Prop :=
  (∀ t ∈ us, t.span.hi ≤ i) ∧ ∀ t ∈ vs, i < t.span.lo

section Places

variable {ts : List Token} {t u : Token} {i : Int}

/-- A place is in a token, or behind some of the tokens and before the others. -/
theorem InOrder.covered_or_between (h : InOrder ts) (i : Int) :
    (∃ t ∈ ts, t.span.lo ≤ i ∧ i < t.span.hi) ∨ ∃ us vs, ts = us ++ vs ∧ Between us i vs := by
  induction ts with
  | nil => exact .inr ⟨[], [], rfl, nofun, nofun⟩
  | cons t ts ih =>
    by_cases hlo : i < t.span.lo
    · exact .inr ⟨[], t :: ts, rfl, nofun, fun u hu =>
        Int.lt_of_lt_of_le hlo (h.first_le rfl hu)⟩
    by_cases hhi : i < t.span.hi
    · exact .inl ⟨t, List.mem_cons_self, Int.not_lt.mp hlo, hhi⟩
    rcases ih (h.sublist (List.sublist_cons_self t ts)) with ⟨u, hu, hin⟩ | ⟨us, vs, rfl, hus, hvs⟩
    · exact .inl ⟨u, List.mem_cons_of_mem t hu, hin⟩
    · exact .inr ⟨t :: us, vs, rfl, List.forall_mem_cons.mpr ⟨Int.not_lt.mp hhi, hus⟩, hvs⟩

/-- A place is in one token at most. -/
theorem InOrder.eq_of_covers (h : InOrder ts) (ht : t ∈ ts) (hu : u ∈ ts)
    (hti : t.span.lo ≤ i ∧ i < t.span.hi) (hui : u.span.lo ≤ i ∧ i < u.span.hi) : t = u := by
  by_contra hne
  have hapart : ts.Pairwise fun t u => t.span.hi ≤ u.span.lo ∨ u.span.hi ≤ t.span.lo :=
    h.pairwise.imp Or.inl
  have hsymm : Std.Symm fun t u : Token => t.span.hi ≤ u.span.lo ∨ u.span.hi ≤ t.span.lo :=
    ⟨fun _ _ => Or.symm⟩
  have := hapart.forall ht hu hne
  omega

end Places

/-! ## The tokens of a text -/

section Texts

variable {src : List Char} {ts : List Token}

theorem lex_laced (h : lex src = .ok ts) : Laced none 0 src ts := by
  obtain ⟨hstrays, rfl⟩ := lex_eq_ok h
  exact dropLayout_laced none 0 src (strays_eq_nil.mp hstrays)

/-- The tokens of a text are parts of it, one after another. All that is not in one of them is
layout, and no token is a line break that may go. -/
theorem lex_layout (h : lex src = .ok ts) :
    (∀ t ∈ ts, t.text.toList = t.span.slice src ∧ 0 ≤ t.span.lo ∧ t.span.lo < t.span.hi ∧
        t.span.hi ≤ src.length ∧ t.kind ∉ [.blank, .stray]) ∧
      ts.Pairwise (·.span.hi ≤ ·.span.lo) ∧
      (∀ us vs, ts = us ++ vs →
        (∀ (i : Nat) (hi : i < src.length), Between us i vs →
          isLayout (lastKind none us) src[i] = true) ∧
        ∀ t ∈ vs.head?, t.kind = .newline →
          ∃ k, lastKind none us = some k ∧ k.absorbsNewline = false) ∧
      ∀ (i : Nat) (hi : i < src.length), (∃! t, t ∈ ts ∧ t.span.lo ≤ i ∧ i < t.span.hi) ∨
        ∃ us vs, ts = us ++ vs ∧ Between us i vs ∧ isLayout (lastKind none us) src[i] = true := by
  have hlaced := lex_laced h
  have horder := lex_inOrder h
  have hlayout (us vs : List Token) (hts : ts = us ++ vs) (i : Nat) (hi : i < src.length)
      (hbetween : Between us i vs) : isLayout (lastKind none us) src[i] = true := by
    rw [hts] at hlaced
    exact hlaced.layout hi (by simpa using hbetween.1) (by simpa using hbetween.2)
  refine ⟨fun t ht => ?_, horder.pairwise, fun us vs hts => ⟨hlayout us vs hts, ?_⟩, fun i hi => ?_⟩
  · have hmem := (lex_sublist h).subset ht
    have hhi := hlaced.le_length ht
    exact ⟨lexemes_slice rfl hmem, (lexeme_span hmem).1, (lexeme_span hmem).2, by simpa using hhi,
      kind_of_mem_dropLayout ((lex_eq_ok h).2 ▸ ht)⟩
  · intro t ht hk
    obtain ⟨vs, rfl⟩ := List.head?_eq_some_iff.mp ht
    rw [hts] at hlaced
    have habsorbs := hlaced.newline hk
    cases hlast : lastKind none us with
    | none => rw [hlast] at habsorbs; cases habsorbs
    | some k => rw [hlast] at habsorbs; exact ⟨k, rfl, habsorbs⟩
  · rcases horder.covered_or_between i with ⟨t, ht, hin⟩ | ⟨us, vs, hts, hbetween⟩
    · exact .inl ⟨t, ⟨ht, hin⟩, fun u ⟨hu, huin⟩ => horder.eq_of_covers hu ht huin hin⟩
    · exact .inr ⟨us, vs, hts, hbetween, hlayout us vs hts i hi hbetween⟩

/-- In `T x =`, a line break, a tab, `1` and a line break of two characters, the first break goes
and the first character of the other one stays. -/
theorem lex_layout_break :
    let src := "T x =\n\t1\r\n".toList
    let us : List Token := [⟨.ident, "T", ⟨0, 1⟩⟩, ⟨.ident, "x", ⟨2, 3⟩⟩, ⟨.equals, "=", ⟨4, 5⟩⟩]
    let one : Token := ⟨.intLit, "1", ⟨7, 8⟩⟩
    let line : Token := ⟨.newline, "\r", ⟨8, 9⟩⟩
    lex src = .ok (us ++ [one, line]) ∧ Between us 5 [one, line] ∧
      isLayout (lastKind none us) '\n' = true ∧
      ∃ k, lastKind none (us ++ [one]) = some k ∧ k.absorbsNewline = false := by
  intro src us one line
  have hlex : lex src = .ok (us ++ [one, line]) := by decide +kernel
  have hbetween : Between us 5 [one, line] := by simp [Between, us, one, line]
  obtain ⟨-, -, hgaps, -⟩ := lex_layout hlex
  exact ⟨hlex, hbetween, (hgaps us [one, line] rfl).1 5 (by decide) hbetween,
    (hgaps (us ++ [one]) [line] rfl).2 line rfl rfl⟩

end Texts

end ScripCheck
