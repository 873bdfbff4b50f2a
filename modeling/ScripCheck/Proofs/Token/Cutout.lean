import ScripCheck.Proofs.Token.LineSeam
import ScripCheck.Proofs.Token.Respaced

/-!
# Some tokens cut out of a text

* `longestLexeme_of_append`, `lexemes_cut`: a text that is cut between two lexemes has the same
  lexemes in both parts.
* `dropLayout_run`: some tokens are those of a run of lexemes.
* `lex_cutout`: the text from the first to the last of some tokens has these tokens.
* `lex_line`: its tokens with a line break behind it.
-/

namespace ScripCheck

/-! ## Lexemes -/

section Lexemes

variable {cs cs' src : List Char} {us vs : List Token} {t : Token} {lo n : Nat} {k : Kind}

/-- Less text behind a lexeme does not matter to it. -/
theorem longestLexeme_of_append (h : longestLexeme (cs ++ cs') = (k, n)) (hn : n ≤ cs.length) :
    longestLexeme cs = (k, n) := by
  rw [← h]
  refine (longestLexeme_congr fun r hr => Pattern.longest?_append fun v hv haccepts => ?_).symm
  have hle := le_longestLexeme hr hv haccepts
  rw [h] at hle
  exact Nat.le_trans hle hn

/-- The text of some lexemes. -/
def textOf (ts : List Token) : List Char := ts.flatMap (·.text.toList)

theorem textOf_lexemes (lo : Nat) (cs : List Char) : textOf (lexemes lo cs) = cs :=
  flatMap_lexemes lo cs

theorem textOf_append (us vs : List Token) : textOf (us ++ vs) = textOf us ++ textOf vs :=
  List.flatMap_append

/-- A text starts with a lexeme. -/
theorem exists_front (hsrc : src ≠ []) :
    ∃ k w v, src = w ++ v ∧ w ≠ [] ∧ longestLexeme (w ++ v) = (k, w.length) := by
  have hlength := List.length_take_of_le (longestLexeme_le hsrc)
  have hpos := longestLexeme_pos hsrc
  refine ⟨(longestLexeme src).1, src.take (longestLexeme src).2, src.drop (longestLexeme src).2,
    (List.take_append_drop ..).symm, ?_, ?_⟩
  · exact List.ne_nil_of_length_pos (by omega)
  · rw [List.take_append_drop, hlength]

/-- A text that is cut between two lexemes has the same lexemes in its two parts. -/
theorem lexemes_cut (h : lexemes lo src = us ++ vs) :
    lexemes lo (textOf us) = us ∧ lexemes (lo + (textOf us).length) (textOf vs) = vs := by
  have hsrc : src = textOf us ++ textOf vs := by
    rw [← textOf_append, ← h, textOf_lexemes]
  induction us generalizing lo src with
  | nil =>
    obtain rfl : src = textOf vs := hsrc
    exact ⟨lexemes_nil lo, h⟩
  | cons t us ih =>
    have hne : src ≠ [] := by
      rintro rfl
      rw [lexemes_nil] at h
      cases h
    obtain ⟨k, w, v, rfl, hw, hbest⟩ := exists_front hne
    rw [lexemes_front lo hw hbest] at h
    obtain ⟨rfl, hrest⟩ := List.cons.inj h
    have htext : textOf (⟨k.refine (String.ofList w), String.ofList w,
        ⟨lo, (lo + w.length : Nat)⟩⟩ :: us) = w ++ textOf us := by
      rw [textOf, List.flatMap_cons, String.toList_ofList]; rfl
    rw [htext, List.append_assoc] at hsrc
    obtain rfl := List.append_cancel_left hsrc
    obtain ⟨hus, hvs⟩ := ih hrest rfl
    -- the first lexeme does not need the second part
    rw [← List.append_assoc] at hbest
    have hbest' := longestLexeme_of_append hbest (by rw [List.length_append]; omega)
    rw [htext, lexemes_front lo hw hbest', hus, List.length_append, ← Nat.add_assoc]
    exact ⟨rfl, hvs⟩

theorem lexemes_head (h : (lexemes lo cs).head? = some t) : t.span.lo = lo := by
  have hne : cs ≠ [] := by
    rintro rfl
    simp at h
  rw [lexemes_eq lo hne] at h
  obtain rfl := Option.some.inj h
  rfl

theorem lexemes_getLast (h : (lexemes lo cs).getLast? = some t) :
    t.span.hi = (lo + cs.length : Nat) := by
  induction lo, cs using lexemes_induction with
  | nil lo => simp at h
  | cons lo cs hne ih =>
    have hlength := longestLexeme_le hne
    rw [lexemes_eq lo hne, List.getLast?_cons] at h
    cases hrest : (lexemes (lo + (longestLexeme cs).2) (cs.drop (longestLexeme cs).2)).getLast? with
    | none =>
      -- the first lexeme is the whole text
      have hnil := List.getLast?_eq_none_iff.mp hrest
      have htext := textOf_lexemes (lo + (longestLexeme cs).2) (cs.drop (longestLexeme cs).2)
      rw [hnil] at htext
      have hwhole : cs.length ≤ (longestLexeme cs).2 := List.drop_eq_nil_iff.mp htext.symm
      rw [hrest] at h
      obtain rfl := Option.some.inj h
      show ((lo + (longestLexeme cs).2 : Nat) : Int) = (lo + cs.length : Nat)
      omega
    | some r =>
      rw [hrest] at h
      obtain rfl := Option.some.inj h
      rw [ih hrest, List.length_drop]
      omega

end Lexemes

/-! ## Tokens among lexemes -/

section Layout

variable {last : Option Kind} {ls us vs pre post : List Token} {t : Token}

/-- A token that is kept whatever is before it. -/
theorem dropLayout_kept (ht : t.kind ∉ [.blank, .stray, .newline]) (last : Option Kind)
    (ts : List Token) : dropLayout last (t :: ts) = t :: dropLayout (some t.kind) ts := by
  simp only [List.mem_cons, List.not_mem_nil, or_false, not_or] at ht
  rw [dropLayout, if_neg (not_or.mpr ⟨ht.1, ht.2.1⟩), if_neg fun h => ht.2.2 h.1]

/-- The tokens behind one of them are those of the lexemes behind it. -/
theorem dropLayout_behind (h : dropLayout last ls = us ++ t :: vs) :
    ∃ as bs, ls = as ++ t :: bs ∧ dropLayout (some t.kind) bs = vs := by
  induction ls generalizing last us with
  | nil => cases us <;> cases h
  | cons l ls ih =>
    have hmore {last : Option Kind} {us : List Token} (h : dropLayout last ls = us ++ t :: vs) :
        ∃ as bs, l :: ls = as ++ t :: bs ∧ dropLayout (some t.kind) bs = vs := by
      obtain ⟨as, bs, rfl, hbs⟩ := ih h
      exact ⟨l :: as, bs, rfl, hbs⟩
    rw [dropLayout] at h
    split at h
    · exact hmore h
    · split at h
      · exact hmore h
      · cases us with
        | nil =>
          obtain ⟨rfl, hls⟩ := List.cons.inj h
          exact ⟨[], ls, rfl, hls⟩
        | cons u us => exact hmore (List.cons.inj h).2

/-- The first tokens are those of some first lexemes, and end with the same one. -/
theorem dropLayout_front (h : dropLayout last ls = us ++ vs) :
    ∃ as bs, ls = as ++ bs ∧ dropLayout last as = us ∧ as.getLast? = us.getLast? := by
  induction ls generalizing last us with
  | nil =>
    obtain ⟨rfl, -⟩ := List.append_eq_nil_iff.mp h.symm
    exact ⟨[], [], rfl, rfl, rfl⟩
  | cons l ls ih =>
    cases us with
    | nil => exact ⟨[], l :: ls, rfl, rfl, rfl⟩
    | cons u us =>
      have hskip (h : dropLayout last ls = u :: us ++ vs)
          (hl : ∀ as, dropLayout last (l :: as) = dropLayout last as) :
          ∃ as bs, l :: ls = as ++ bs ∧ dropLayout last as = u :: us ∧
            as.getLast? = (u :: us).getLast? := by
        obtain ⟨as, bs, rfl, has, hlast⟩ := ih h
        refine ⟨l :: as, bs, rfl, (hl as).trans has, ?_⟩
        rw [List.getLast?_cons, hlast, List.getLast?_cons]; rfl
      rw [dropLayout] at h
      split at h
      · next hk => exact hskip h fun as => by rw [dropLayout, if_pos hk]
      · split at h
        · next hblank hk =>
          exact hskip h fun as => by rw [dropLayout, if_neg hblank, if_pos hk]
        · next hblank hk =>
          obtain ⟨rfl, hls⟩ := List.cons.inj h
          obtain ⟨as, bs, rfl, has, hlast⟩ := ih hls
          refine ⟨l :: as, bs, rfl, by rw [dropLayout, if_neg hblank, if_neg hk, has], ?_⟩
          rw [List.getLast?_cons, hlast, List.getLast?_cons]

/-- Some tokens, of which the first is no line break, are those of a run of lexemes from the first
of them to the last. -/
theorem dropLayout_run (h : dropLayout last ls = pre ++ (t :: us ++ post))
    (hk : t.kind ≠ .newline) : ∃ as bs cs, ls = as ++ ((t :: bs) ++ cs) ∧
      dropLayout none (t :: bs) = t :: us ∧ (t :: bs).getLast? = (t :: us).getLast? := by
  have hmem : t ∈ dropLayout last ls := by simp [h]
  have hkept := kind_of_mem_dropLayout hmem
  obtain ⟨as, ls', rfl, hbehind⟩ := dropLayout_behind h
  obtain ⟨bs, cs, rfl, hbs, hlast⟩ := dropLayout_front hbehind
  refine ⟨as, bs, cs, rfl, ?_, ?_⟩
  · rw [dropLayout_kept (by simp_all), hbs]
  · rw [List.getLast?_cons, hlast, List.getLast?_cons]

end Layout

/-! ## Texts -/

section Texts

variable {src : List Char} {ts us pre post : List Token} {t r : Token} {c : Char}

/-- The text from the first to the last of some tokens of a text has these tokens, if the first one
is no line break. -/
theorem lex_cutout (h : lex src = .ok (pre ++ (t :: us ++ post)))
    (hr : (t :: us).getLast? = some r) (hk : t.kind ≠ .newline) : ∃ a b c ts, src = a ++ (b ++ c) ∧
      t.span.lo = a.length ∧ r.span.hi = (a.length + b.length : Nat) ∧ lex b = .ok ts ∧
      ts.map (Token.shift a.length) = t :: us := by
  obtain ⟨hnone, htokens⟩ := lex_eq_ok h
  obtain ⟨as, bs, cs, hlexemes, hbs, hlast⟩ := dropLayout_run htokens.symm hk
  have hsrc : src = textOf as ++ (textOf (t :: bs) ++ textOf cs) := by
    rw [← textOf_append, ← textOf_append, ← hlexemes, textOf_lexemes]
  have hcut : lexemes (textOf as).length (textOf (t :: bs)) = t :: bs := by
    have hbehind := (lexemes_cut hlexemes).2
    rw [Nat.zero_add] at hbehind
    exact (lexemes_cut hbehind).1
  have hshift : (lexemes 0 (textOf (t :: bs))).map (Token.shift (textOf as).length) = t :: bs := by
    rw [← lexemes_shift, Nat.zero_add, hcut]
  have hstray : ∀ u ∈ lexemes 0 (textOf (t :: bs)), u.kind ≠ .stray := by
    intro u hu
    have hmem : u.shift (textOf as).length ∈ lexemes 0 src := by
      rw [hlexemes]
      exact List.mem_append_right as (List.mem_append_left cs (hshift ▸ List.mem_map_of_mem hu))
    have hkind := strays_eq_nil.mp hnone _ hmem
    exact hkind
  refine ⟨textOf as, textOf (t :: bs), textOf cs, _, hsrc, ?_, ?_,
    lex_of_no_strays (strays_eq_nil.mpr hstray), ?_⟩
  · exact lexemes_head (by rw [hcut]; rfl)
  · exact lexemes_getLast (by rw [hcut, hlast, hr])
  · rw [← dropLayout_shift, hshift, hbs]

/-- The tokens of a text and of a line break behind it, if this is kept. -/
theorem lex_line (h : lex src = .ok ts) : lex (src ++ ['\n']) = .ok (ts ++
    if (lastKind none ts).all Kind.absorbsNewline then []
    else [⟨.newline, "\n", ⟨src.length, src.length + 1⟩⟩]) := by
  obtain ⟨hnone, rfl⟩ := lex_eq_ok h
  have hstray := strays_eq_nil.mp hnone
  have hlexemes := lexemes_append_break hstray (c := '\n') rfl []
  rw [lexemes_nil, List.map_nil] at hlexemes
  have hnone' : strays (lexemes 0 (src ++ ['\n'])) = [] := by
    rw [hlexemes, strays_append hstray]; rfl
  rw [lex_of_no_strays hnone', hlexemes, dropLayout_append, dropLayout_line rfl]
  simp [dropLayout]

end Texts

end ScripCheck
