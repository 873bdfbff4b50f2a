import ScripCheck.Proofs.Token.Seam
import ScripCheck.Proofs.Token.Unified

/-!
# Tokens with other blanks between them

* `longestLexeme_append_space`: a blank ends the lexeme before it.
* `Token.spelling`: a token without its place. Which lexemes are layout depends on no more:
  `dropLayout_spelling`.
* `respaced`: the texts of some tokens with blanks between them. `lex_respaced`: it has these
  tokens.
-/

namespace ScripCheck

/-! ## The lexeme before a blank -/

section Lexemes

variable {k : Kind} {v w : List Char} {t : Token} {lo : Nat}

/-- A blank ends a lexeme that is no blank, no literal and no stray character. -/
theorem longestLexeme_append_space (hw : w ≠ []) (h : longestLexeme w = (k, w.length))
    (hk : k ∉ [.blank, .strLit, .stray]) (hv : ∀ c ∈ v.head?, isSpace c = true) :
    longestLexeme (w ++ v) = (k, w.length) := by
  obtain ⟨c, w, rfl⟩ := List.exists_cons_of_ne_nil hw
  have hblank : isSpace c = false := by
    refine Bool.eq_false_iff.mpr fun hc => hk ?_
    have hkind := kind_of_leading_blank hc w
    simp [← hkind, h]
  have hquote : c ≠ '"' := by
    rintro rfl
    have hleading := leading hw
    rw [h] at hleading
    generalize hcs : '"' :: w = cs, hbest : (k, ('"' :: w).length) = best at hleading
    cases hleading with
    | literal => exact hk (by simp [(Prod.mk.inj hbest).1])
    | stray => exact hk (by simp [(Prod.mk.inj hbest).1])
    | token _ plain =>
      rw [← hcs, ← hbest, List.take_length] at plain
      exact absurd (plain '"' List.mem_cons_self) (by decide)
  rw [← h]
  refine longestLexeme_append_of_ends fun r hr x hx hprefix haccepts => ?_
  obtain ⟨d, x, rfl⟩ := List.exists_cons_of_ne_nil hx
  obtain ⟨v, rfl⟩ := hprefix
  have hseam : isSeam d = true := by simp [isSeam, hv d rfl]
  rw [List.cons_append] at haccepts
  rcases kind_of_seam hr hseam (haccepts.alphabet (by simp)) with hr' | hr' | hr' | hr' | hr'
  · have hc := ((accepts_blank hr hr').mp haccepts).2 c List.mem_cons_self
    rw [hblank] at hc
    cases hc
  · obtain ⟨e, he, -⟩ := (accepts_newline hr hr').mp haccepts
    simp at he
  · exact hquote (head_strLit hr hr' haccepts)
  · simpa using (accepts_rbrace hr hr').mp haccepts
  · obtain ⟨e, he⟩ := (accepts_stray hr hr').mp haccepts
    simp at he

/-- A lexeme is the lexeme of its own text. -/
theorem lexemes_alone {cs : List Char} (ht : t ∈ lexemes lo cs) : ∃ k, t.text.toList ≠ [] ∧
    longestLexeme t.text.toList = (k, t.text.toList.length) ∧ k.refine t.text = t.kind := by
  induction lo, cs using lexemes_induction with
  | nil lo => simp at ht
  | cons lo cs hcs ih =>
    rw [lexemes_eq lo hcs] at ht
    rcases List.mem_cons.mp ht with rfl | ht
    · have hlength := List.length_take_of_le (longestLexeme_le hcs)
      have hpos := longestLexeme_pos hcs
      refine ⟨(longestLexeme cs).1, ?_, ?_, rfl⟩
      · simp only [lexeme, String.toList_ofList]
        exact List.ne_nil_of_length_pos (hlength.symm ▸ hpos)
      · have hfront : longestLexeme
            (cs.take (longestLexeme cs).2 ++ cs.drop (longestLexeme cs).2) =
            ((longestLexeme cs).1, (cs.take (longestLexeme cs).2).length) := by
          rw [List.take_append_drop, hlength]
        simp only [lexeme, String.toList_ofList]
        exact longestLexeme_alone hfront
    · exact ih ht

/-- A blank ends the text of a token. -/
theorem longestLexeme_token {cs : List Char} (ht : t ∈ lexemes lo cs)
    (hk : t.kind ∉ [.blank, .stray]) (hv : ∀ c ∈ v.head?, isSpace c = true) :
    ∃ k, t.text.toList ≠ [] ∧ k.refine t.text = t.kind ∧
      longestLexeme (t.text.toList ++ v) = (k, t.text.toList.length) := by
  obtain ⟨k, hne, hbest, hkind⟩ := lexemes_alone ht
  refine ⟨k, hne, hkind, ?_⟩
  have hsame {k' : Kind} (hk' : k = k') (hident : k' ≠ .ident) : t.kind = k' := by
    rw [← hkind, hk', Kind.refine, if_neg hident]
  by_cases hliteral : k = .strLit
  · obtain ⟨r, hr, hrule, -, haccepts⟩ := longestLexeme_mem hne
    rw [hbest, hliteral] at hrule haccepts
    rw [List.take_length] at haccepts
    obtain ⟨u, hu, hclosed⟩ := (accepts_strLit hr hrule).mp haccepts
    rw [hu, hliteral, List.cons_append, List.append_assoc, List.singleton_append,
      longestLexeme_literal hclosed]
    simp
  · refine longestLexeme_append_space hne hbest ?_ hv
    simp only [List.mem_cons, List.not_mem_nil, or_false, not_or] at hk ⊢
    exact ⟨fun h => hk.1 (hsame h (by decide)), hliteral, fun h => hk.2 (hsame h (by decide))⟩

end Lexemes

/-! ## Tokens without their places -/

/-- The kind and the text of a token. -/
def Token.spelling (t : Token) : Kind × String := (t.kind, t.text)

section Spelling

variable {ts us : List Token} {t : Token} {last : Option Kind}

theorem Token.kind_of_spelling {t u : Token} (h : t.spelling = u.spelling) : t.kind = u.kind :=
  congrArg Prod.fst h

theorem Token.text_of_spelling {t u : Token} (h : t.spelling = u.spelling) : t.text = u.text :=
  congrArg Prod.snd h

/-- Which lexemes are layout does not depend on their places. -/
theorem dropLayout_spelling (last : Option Kind)
    (h : ts.map Token.spelling = us.map Token.spelling) :
    (dropLayout last ts).map Token.spelling = (dropLayout last us).map Token.spelling := by
  induction ts generalizing us last with
  | nil =>
    obtain rfl := List.map_eq_nil_iff.mp h.symm
    rfl
  | cons t ts ih =>
    obtain ⟨u, us, rfl⟩ := List.exists_cons_of_ne_nil (l := us) fun hnil => by
      rw [hnil] at h
      cases h
    obtain ⟨htu, hus⟩ := List.cons.inj h
    have hkind := Token.kind_of_spelling htu
    simp only [dropLayout, hkind]
    split
    · exact ih last hus
    · split
      · exact ih last hus
      · rw [List.map_cons, List.map_cons, htu, ih _ hus]

theorem strays_spelling (h : ts.map Token.spelling = us.map Token.spelling) (hts : strays ts = []) :
    strays us = [] := by
  have hkinds : ts.map (·.kind) = us.map (·.kind) := by
    simpa [Token.spelling, Function.comp_def] using congrArg (List.map Prod.fst) h
  rw [strays_eq_nil] at hts ⊢
  intro u hu hstray
  have hmem : Kind.stray ∈ ts.map (·.kind) := hkinds ▸ hstray ▸ List.mem_map_of_mem hu
  obtain ⟨t, ht, hkind⟩ := List.mem_map.mp hmem
  exact hts t ht hkind

/-- A token that is kept is neither a blank nor a stray character. -/
theorem kind_of_mem_dropLayout (ht : t ∈ dropLayout last ts) : t.kind ∉ [.blank, .stray] := by
  induction ts generalizing last with
  | nil => cases ht
  | cons u ts ih =>
    unfold dropLayout at ht
    split at ht
    · exact ih ht
    · next hu =>
      split at ht
      · exact ih ht
      · rcases List.mem_cons.mp ht with rfl | ht
        · simpa using hu
        · exact ih ht

/-- Layout is dropped once. -/
theorem dropLayout_idem (last : Option Kind) (ts : List Token) :
    dropLayout last (dropLayout last ts) = dropLayout last ts := by
  induction ts generalizing last with
  | nil => rfl
  | cons t ts ih =>
    rw [dropLayout]
    split
    · exact ih last
    · next hlayout =>
      split
      · exact ih last
      · next hline => rw [dropLayout, if_neg hlayout, if_neg hline, ih]

end Spelling

/-! ## Other blanks -/

/-- The texts of the tokens, with the texts `bs` between them. -/
def respaced : List Token → List (List Char) → List Char
  | [], _ => []
  | t :: ts, bs => t.text.toList ++ (List.zipWith (fun b u => b ++ u.text.toList) bs ts).flatten

section Respaced

variable {src : List Char} {ts : List Token} {bs : List (List Char)}

theorem respaced_cons (t u : Token) (ts : List Token) (b : List Char) (bs : List (List Char)) :
    respaced (t :: u :: ts) (b :: bs) = t.text.toList ++ (b ++ respaced (u :: ts) bs) := by
  simp [respaced]

/-- The lexemes of the new text are the tokens, but for blanks. -/
theorem solid_respaced (lo : Nat) (hts : ∀ t ∈ ts, t ∈ lexemes 0 src)
    (hkinds : ∀ t ∈ ts, t.kind ∉ [.blank, .stray]) (hlength : bs.length = ts.length - 1)
    (hbs : ∀ b ∈ bs, b ≠ [] ∧ ∀ c ∈ b, isSpace c = true) :
    (solid (lexemes lo (respaced ts bs))).map Token.spelling = ts.map Token.spelling := by
  induction ts generalizing lo bs with
  | nil => simp [respaced, solid]
  | cons t ts ih =>
    obtain ⟨ht, hts⟩ := List.forall_mem_cons.mp hts
    obtain ⟨hkind, hkinds⟩ := List.forall_mem_cons.mp hkinds
    have hsolid : t.kind ≠ .blank := fun h => hkind (by simp [h])
    -- the first lexeme is the first token, if what follows starts with a blank
    have hfirst {v : List Char} (hv : ∀ c ∈ v.head?, isSpace c = true) (lo : Nat) :
        (solid (lexemes lo (t.text.toList ++ v))).map Token.spelling = t.spelling ::
          (solid (lexemes (lo + t.text.toList.length) v)).map Token.spelling := by
      obtain ⟨k, hne, hrefine, hbest⟩ := longestLexeme_token ht hkind hv
      rw [lexemes_front lo hne hbest, String.ofList_toList, hrefine, solid_cons, if_neg hsolid]
      rfl
    cases ts with
    | nil =>
      obtain rfl : bs = [] := List.eq_nil_of_length_eq_zero hlength
      have halone := hfirst (v := []) (by simp) lo
      simpa [respaced, solid] using halone
    | cons u ts =>
      obtain ⟨b, bs, rfl⟩ := List.exists_cons_of_length_pos (l := bs) (by simp [hlength])
      obtain ⟨⟨hne, hspace⟩, hbs⟩ := List.forall_mem_cons.mp hbs
      have hstart : ∀ c ∈ (b ++ respaced (u :: ts) bs).head?, isSpace c = true := by
        obtain ⟨d, b, rfl⟩ := List.exists_cons_of_ne_nil hne
        simpa using hspace d List.mem_cons_self
      rw [respaced_cons, hfirst hstart, solid_blanks _ hspace,
        ih _ hts hkinds (by simpa using hlength) hbs]
      rfl

/-- With other blanks between them, the tokens of a text are the tokens of the new text. -/
theorem lex_respaced (h : lex src = .ok ts) (hlength : bs.length = ts.length - 1)
    (hbs : ∀ b ∈ bs, b ≠ [] ∧ ∀ c ∈ b, isSpace c = true) :
    ∃ us, lex (respaced ts bs) = .ok us ∧ us.map Token.spelling = ts.map Token.spelling := by
  obtain ⟨hstrays, hts⟩ := lex_eq_ok h
  have hkinds : ∀ t ∈ ts, t.kind ∉ [.blank, .stray] := fun t ht =>
    kind_of_mem_dropLayout (hts ▸ ht)
  have hsolid := solid_respaced 0 (fun t ht => (lex_sublist h).subset ht) hkinds hlength hbs
  have hnone : strays ts = [] := strays_eq_nil.mpr fun t ht hstray => hkinds t ht (by simp [hstray])
  have hnone' : strays (lexemes 0 (respaced ts bs)) = [] := by
    rw [← strays_solid]
    exact strays_spelling hsolid.symm hnone
  refine ⟨_, lex_of_no_strays hnone', ?_⟩
  rw [← dropLayout_solid, dropLayout_spelling none hsolid, hts, dropLayout_idem]

end Respaced

end ScripCheck
