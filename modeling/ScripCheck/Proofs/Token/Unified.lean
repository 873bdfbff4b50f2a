import ScripCheck.Proofs.Source.Offsets
import ScripCheck.Proofs.Token.Layout
import ScripCheck.Proofs.Token.Leading

/-!
# Lexemes with unified line breaks

* `Fronts`: the lexeme at the front of a text, and the one at the front of the text with unified
  line breaks. They differ inside of string literals, and where a line break has two characters.
* `Token.Unified`: the same token of the two texts.
* `LexemesUnified`: the lexemes of the two texts. Two of the first text are one of the second, where
  a line break has two characters.
* `lex_unified`: the tokens of the two texts, or their lexical errors.
-/

namespace ScripCheck

/-! ## The lexeme at the front -/

section Fronts

variable {r : Rule} {c : Char} {u v w m x cs : List Char}

/-- No lexeme but a string literal goes on before or after a character of a line break. -/
theorem accepts_break (hr : r ∈ rules) (hk : r.kind ≠ .strLit) (h : r.pattern.Accepts w)
    (hc : c ∈ w) (hbreak : isBreak c = true) : w = [c] ∧ r.kind ∈ [.newline, .stray] := by
  have hseam : isSeam c = true := by simp [isSeam, hbreak]
  rcases kind_of_seam hr hseam (h.alphabet hc) with hk' | hk' | hk' | hk' | hk'
  · have hspace := ((accepts_blank hr hk').mp h).2 c hc
    simp only [isBreak, isSpace, Bool.or_eq_true, beq_iff_eq] at hbreak hspace
    rcases hbreak with rfl | rfl <;> simp at hspace
  · obtain ⟨d, rfl, -⟩ := (accepts_newline hr hk').mp h
    exact ⟨by rw [List.mem_singleton.mp hc], by simp [hk']⟩
  · exact absurd hk' hk
  · rw [(accepts_rbrace hr hk').mp h] at hc
    rw [List.mem_singleton.mp hc] at hbreak
    exact absurd hbreak (by decide)
  · obtain ⟨d, rfl⟩ := (accepts_stray hr hk').mp h
    exact ⟨by rw [List.mem_singleton.mp hc], by simp [hk']⟩

theorem longestLexeme_literal (hu : '"' ∉ u) (v : List Char) :
    longestLexeme ('"' :: (u ++ '"' :: v)) = (.strLit, u.length + 2) := by
  have hleading := leading (List.cons_ne_nil '"' (u ++ '"' :: v))
  have hpos := longestLexeme_pos (List.cons_ne_nil '"' (u ++ '"' :: v))
  generalize hcs : '"' :: (u ++ '"' :: v) = cs at hleading hpos ⊢
  generalize longestLexeme cs = best at hleading hpos
  cases hleading with
  | @literal u' v' closed =>
    have hfirst {u : List Char} (hu : '"' ∉ u) (v : List Char) :
        (u ++ '"' :: v).idxOf '"' = u.length := by
      rw [List.idxOf_append_of_notMem hu, List.idxOf_cons_self, Nat.add_zero]
    rw [← hfirst hu v, ← hfirst closed v', (List.cons.inj hcs).2]
  | stray strange unclosed =>
    obtain ⟨rfl, rfl⟩ := List.cons.inj hcs
    exact absurd (by simp) (unclosed rfl)
  | token kind plain =>
    obtain ⟨n, hn⟩ := Nat.exists_eq_add_one.mpr hpos
    rw [← hcs, hn, List.take_succ_cons] at plain
    exact absurd (plain _ List.mem_cons_self) (by decide)

theorem longestLexeme_strange (hc : isPlain c = false) (hquote : c = '"' → '"' ∉ v) :
    longestLexeme (c :: v) = (.stray, 1) := by
  have hleading := leading (List.cons_ne_nil c v)
  have hpos := longestLexeme_pos (List.cons_ne_nil c v)
  generalize hcs : c :: v = cs at hleading hpos ⊢
  generalize longestLexeme cs = best at hleading hpos
  cases hleading with
  | literal closed =>
    obtain ⟨rfl, rfl⟩ := List.cons.inj hcs
    exact absurd (by simp) (hquote rfl)
  | stray strange unclosed => rfl
  | token kind plain =>
    obtain ⟨n, hn⟩ := Nat.exists_eq_add_one.mpr hpos
    rw [← hcs, hn, List.take_succ_cons] at plain
    rw [plain c List.mem_cons_self] at hc
    cases hc

theorem longestLexeme_break (hc : isBreak c = true) (v : List Char) :
    longestLexeme (c :: v) = (.newline, 1) := by
  obtain ⟨r, hr, n, hkind, hn, haccepts⟩ := longestLexeme_cons c v
  have hliteral : r.kind ≠ .strLit := by
    intro hk
    rw [head_strLit hr hk haccepts] at hc
    exact absurd hc (by decide)
  obtain ⟨hone, hk⟩ := accepts_break hr hliteral haccepts List.mem_cons_self hc
  have hlength := longestLexeme_le (List.cons_ne_nil c v)
  rw [hn, List.length_cons, Nat.succ_le_succ_iff] at hlength
  have hn' : n = 0 := by rw [← List.length_take_of_le hlength, (List.cons.inj hone).2]; rfl
  have hnewline : (⟨.newline, .one isBreak⟩ : Rule) ∈ rules :=
    List.getElem_mem (show 1 < rules.length by decide)
  have hprefix : [c] <+: c :: v := List.cons_prefix_cons.mpr ⟨rfl, List.nil_prefix⟩
  have hstray := not_stray_of_accepts hnewline (by decide) hprefix (List.cons_ne_nil c []) (.one hc)
  rw [hkind, List.mem_pair] at hk
  exact Prod.ext (hk.resolve_right hstray) (by rw [hn, hn'])

/-- A line break ends the lexeme before it. -/
theorem longestLexeme_append_break (hm : m ≠ []) (hquote : m.head? ≠ some '"')
    (hx : ∀ c ∈ x.head?, isBreak c = true) : longestLexeme (m ++ x) = longestLexeme m := by
  refine longestLexeme_append_of_ends fun r hr w hne hw haccepts => ?_
  obtain ⟨b, w, rfl⟩ := List.exists_cons_of_ne_nil hne
  obtain ⟨x, rfl⟩ := hw
  have hliteral : r.kind ≠ .strLit := by
    intro hk
    obtain ⟨c, m, rfl⟩ := List.exists_cons_of_ne_nil hm
    exact hquote (congrArg some (head_strLit hr hk haccepts))
  obtain ⟨hone, -⟩ := accepts_break hr hliteral haccepts (c := b) (by simp) (hx b rfl)
  have hlength := congrArg List.length hone
  have := List.length_pos_iff.mpr hm
  simp only [List.length_append, List.length_cons, List.length_nil] at hlength
  omega

/-- A character of a line break ends the line, or a second character follows that does. -/
theorem endsLine_or_pair (hc : isBreak c = true) (v : List Char) :
    endsLine c v = true ∨ c = '\r' ∧ ∃ v', v = '\n' :: v' := by
  simp only [isBreak, Bool.or_eq_true, beq_iff_eq] at hc
  by_cases h : v.head? = some '\n'
  · exact hc.imp (fun hc => by simp [endsLine, hc]) fun hc => ⟨hc, List.head?_eq_some_iff.mp h⟩
  · exact .inl (by simpa [endsLine, h] using hc)

theorem unifyBreaks_of_isBreak (hc : isBreak c = true) (v : List Char) :
    ∃ w, unifyBreaks (c :: v) = '\n' :: w := by
  rcases endsLine_or_pair hc v with hend | ⟨rfl, v, rfl⟩
  · exact ⟨_, unifyBreaks_break hend⟩
  · exact ⟨_, unifyBreaks_pair v⟩

/-- The lexemes at the front of a text and of the same text with unified line breaks. -/
inductive Fronts : List Char → Prop where
  | literal {u v : List Char} (closed : '"' ∉ u) : Fronts ('"' :: (u ++ '"' :: v))
  /-- A line break of two characters. -/
  | pair {v : List Char} : Fronts ('\r' :: '\n' :: v)
  | lineBreak {c : Char} {v : List Char} (ends : endsLine c v = true) : Fronts (c :: v)
  | other {k : Kind} {w v : List Char} (kind : k ∉ [.newline, .strLit]) (nonempty : w ≠ [])
    (unbroken : '\r' ∉ w) (front : longestLexeme (w ++ v) = (k, w.length))
    (front' : longestLexeme (w ++ unifyBreaks v) = (k, w.length)) : Fronts (w ++ v)

theorem fronts_of_break (hc : isBreak c = true) (v : List Char) : Fronts (c :: v) := by
  rcases endsLine_or_pair hc v with hend | ⟨rfl, v, rfl⟩
  · exact .lineBreak hend
  · exact .pair

theorem fronts_of_token {k : Kind} {w v : List Char} (hw : w ≠ []) (hquote : w.head? ≠ some '"')
    (hbreak : ∀ c ∈ w, isBreak c = false) (hk : k ∉ [.newline, .strLit])
    (h : longestLexeme (w ++ v) = (k, w.length)) : Fronts (w ++ v) := by
  have hr : '\r' ∉ w := fun h => absurd (hbreak _ h) (by decide)
  refine .other hk hw hr h ?_
  -- up to the next line break the two texts are the same
  obtain ⟨m, x, rfl, hm, hx⟩ : ∃ m x, v = m ++ x ∧ (∀ c ∈ m, isBreak c = false) ∧
      ∀ c ∈ x.head?, isBreak c = true := by
    refine ⟨_, _, (List.takeWhile_append_dropWhile (p := fun c => !isBreak c)).symm,
      fun c hc => ?_, fun c hc => ?_⟩
    · simpa using List.all_eq_true.mp List.all_takeWhile c hc
    · have := List.head?_dropWhile_not (fun c => !isBreak c) v
      rw [hc] at this
      simpa using this
  have hm' : '\r' ∉ m := fun h => absurd (hm _ h) (by decide)
  have hkeeps : KeepsBreaks m x := keepsBreaks_of_last (fun h => hm' (List.mem_of_getLast? h)) x
  have hx' : ∀ c ∈ (unifyBreaks x).head?, isBreak c = true := by
    cases x with
    | nil => exact hx
    | cons b x =>
      obtain ⟨y, hy⟩ := unifyBreaks_of_isBreak (hx b rfl) x
      simp [hy, isBreak]
  have hquote' : (w ++ m).head? ≠ some '"' := by rwa [List.head?_append_of_ne_nil _ hw]
  have hne : w ++ m ≠ [] := List.append_ne_nil_of_left_ne_nil hw m
  rw [unifyBreaks_append hkeeps, unifyBreaks_of_notMem hm', ← List.append_assoc,
    longestLexeme_append_break hne hquote' hx', ← longestLexeme_append_break hne hquote' hx,
    List.append_assoc, h]

theorem fronts_of_plain (hc : isPlain c = true) (hbreak : isBreak c = false) (cs : List Char) :
    Fronts (c :: cs) := by
  obtain ⟨r, hr, n, hkind, hn, haccepts⟩ := longestLexeme_cons c cs
  have hlength := longestLexeme_le (List.cons_ne_nil c cs)
  rw [hn, List.length_cons, Nat.succ_le_succ_iff] at hlength
  have hquote : c ≠ '"' := by
    rintro rfl
    exact absurd hc (by decide)
  have hliteral : r.kind ≠ .strLit := fun hk => hquote (head_strLit hr hk haccepts)
  have hnewline : r.kind ≠ .newline := by
    intro hk
    obtain ⟨d, hd, hd'⟩ := (accepts_newline hr hk).mp haccepts
    rw [(List.cons.inj hd).1, hd'] at hbreak
    cases hbreak
  have hunbroken : ∀ d ∈ c :: cs.take n, isBreak d = false := by
    intro d hd
    by_contra hd'
    rw [Bool.not_eq_false] at hd'
    rw [(List.cons.inj (accepts_break hr hliteral haccepts hd hd').1).1, hd'] at hbreak
    cases hbreak
  have hfront : longestLexeme (c :: cs.take n ++ cs.drop n) =
      (r.kind, (c :: cs.take n).length) := by
    rw [List.cons_append, List.take_append_drop, List.length_cons, List.length_take_of_le hlength,
      ← hn, hkind]
  have hfronts := fronts_of_token (List.cons_ne_nil c _) (by simpa using hquote) hunbroken
    (by simp [hnewline, hliteral]) hfront
  rwa [List.cons_append, List.take_append_drop] at hfronts

theorem fronts (hcs : cs ≠ []) : Fronts cs := by
  have hleading := leading hcs
  have hpos := longestLexeme_pos hcs
  generalize hbest : longestLexeme cs = best at hleading hpos
  cases hleading with
  | literal closed => exact .literal closed
  | @stray c v strange unclosed =>
    have hr : '\r' ∉ [c] := by
      rintro h
      rw [← List.mem_singleton.mp h] at strange
      exact absurd strange (by decide)
    refine .other (k := .stray) (w := [c]) (by decide) (List.cons_ne_nil c []) hr hbest ?_
    refine longestLexeme_strange strange fun hc hquote => unclosed hc ?_
    exact (mem_of_mem_unifyBreaks hquote).resolve_left (by decide)
  | token kind plain =>
    obtain ⟨c, cs, rfl⟩ := List.exists_cons_of_ne_nil hcs
    obtain ⟨n, hn⟩ := Nat.exists_eq_add_one.mpr hpos
    rw [hn, List.take_succ_cons] at plain
    cases hc : isBreak c with
    | true => exact fronts_of_break hc cs
    | false => exact fronts_of_plain (plain c List.mem_cons_self) hc cs

end Fronts

/-! ## The same token of the two texts -/

section Lexemes

variable {src p w v cs : List Char} {t u : Token} {ts us : List Token} {k : Kind} {x y : Span}

/-- The two spans are the first character of the same line break. -/
def Span.LineBreak (src : List Char) (x y : Span) : Prop :=
  ∃ u c v, src = u ++ c :: v ∧ isBreak c = true ∧ KeepsBreaks u (c :: v) ∧
    x = ⟨u.length, u.length + 1⟩ ∧ y = ⟨(unifyBreaks u).length, (unifyBreaks u).length + 1⟩

/-- The token `u` of the text with unified line breaks is the token `t` of the text `src`. -/
structure Token.Unified (src : List Char) (t u : Token) : Prop where
  kind : u.kind = t.kind
  span : t.kind ≠ .newline → t.span.Same src u.span
  lineBreak : t.kind = .newline → t.span.LineBreak src u.span
  text : t.kind ≠ .newline → u.text = unifiedText t.text
  unbroken : t.kind ∉ [.newline, .strLit] → '\r' ∉ t.text.toList
  quoted : t.kind = .strLit → ∃ w, t.text = String.ofList ('"' :: (w ++ ['"']))

/-- The lexemes of a text and of the text with unified line breaks. -/
inductive LexemesUnified (src : List Char) : List Token → List Token → Prop where
  | nil : LexemesUnified src [] []
  | cons {t u : Token} {ts us : List Token} (lexeme : t.Unified src u)
    (rest : LexemesUnified src ts us) : LexemesUnified src (t :: ts) (u :: us)
  /-- A line break of two characters. -/
  | pair {t t' u : Token} {ts us : List Token} (lexeme : t.Unified src u)
    (first : t.kind = .newline) (second : t'.kind = .newline) (rest : LexemesUnified src ts us) :
    LexemesUnified src (t :: t' :: ts) (u :: us)

theorem Token.unified_newline (h : x.LineBreak src y) (s s' : String) :
    Token.Unified src ⟨.newline, s, x⟩ ⟨.newline, s', y⟩ where
  kind := rfl
  span hk := absurd rfl hk
  lineBreak _ := h
  text hk := absurd rfl hk
  unbroken hk := absurd List.mem_cons_self hk
  quoted hk := by cases hk

theorem unifyBreaks_quoted (w : List Char) :
    unifyBreaks ('"' :: (w ++ ['"'])) = '"' :: (unifyBreaks w ++ ['"']) := by
  have hquote : KeepsBreaks w ['"'] := keepsBreaks_of_head w (by decide)
  rw [unifyBreaks_cons_of_ne (by decide), unifyBreaks_append hquote]
  rfl

theorem Token.unified_literal (h : x.Same src y) (w : List Char) :
    Token.Unified src ⟨.strLit, String.ofList ('"' :: (w ++ ['"'])), x⟩
      ⟨.strLit, String.ofList ('"' :: (unifyBreaks w ++ ['"'])), y⟩ where
  kind := rfl
  span _ := h
  lineBreak hk := by cases hk
  text _ := by rw [unifiedText, String.toList_ofList, unifyBreaks_quoted]
  unbroken hk := absurd (by simp) hk
  quoted _ := ⟨w, rfl⟩

theorem Token.unified_other (h : x.Same src y) (hk : k ∉ [.newline, .strLit]) (hw : '\r' ∉ w) :
    Token.Unified src ⟨k, String.ofList w, x⟩ ⟨k, String.ofList w, y⟩ where
  kind := rfl
  span _ := h
  lineBreak hnewline := absurd (by simp [show k = .newline from hnewline]) hk
  text _ := by rw [unifiedText_of_notMem (by rwa [String.toList_ofList])]
  unbroken _ := by rwa [String.toList_ofList]
  quoted hliteral := absurd (by simp [show k = .strLit from hliteral]) hk

/-- The lexemes of a text, if the first one is known. -/
theorem lexemes_front (lo : Nat) (hw : w ≠ []) (h : longestLexeme (w ++ v) = (k, w.length)) :
    lexemes lo (w ++ v) =
      ⟨k.refine (String.ofList w), String.ofList w, ⟨lo, (lo + w.length : Nat)⟩⟩ ::
        lexemes (lo + w.length) v := by
  rw [lexemes_eq lo (List.append_ne_nil_of_left_ne_nil hw v), lexeme, h]
  simp

theorem lexemes_break {c : Char} (lo : Nat) (hc : isBreak c = true) (v : List Char) :
    lexemes lo (c :: v) = ⟨.newline, String.ofList [c], ⟨lo, lo + 1⟩⟩ :: lexemes (lo + 1) v :=
  lexemes_front (w := [c]) lo (List.cons_ne_nil c []) (longestLexeme_break hc v)

/-- One lexeme that is no line break, and the lexemes behind it. -/
theorem LexemesUnified.front (hp : KeepsBreaks p (w ++ v)) (hw : w ≠ []) (hwv : KeepsBreaks w v)
    (hsrc : src = p ++ (w ++ v)) (h : longestLexeme (w ++ v) = (k, w.length))
    (h' : longestLexeme (unifyBreaks w ++ unifyBreaks v) = (k, (unifyBreaks w).length))
    (htoken : ∀ x y, x.Same src y →
      Token.Unified src ⟨k.refine (String.ofList w), String.ofList w, x⟩
        ⟨k.refine (String.ofList (unifyBreaks w)), String.ofList (unifyBreaks w), y⟩)
    (hrest : LexemesUnified src (lexemes (p.length + w.length) v)
      (lexemes ((unifyBreaks p).length + (unifyBreaks w).length) (unifyBreaks v))) :
    LexemesUnified src (lexemes p.length (w ++ v))
      (lexemes (unifyBreaks p).length (unifyBreaks (w ++ v))) := by
  rw [unifyBreaks_append hwv, lexemes_front _ hw h, lexemes_front _ (unifyBreaks_ne_nil hw) h']
  exact .cons (htoken _ _ (hsrc ▸ Span.same_append hp hw hwv)) hrest

theorem lexemes_unified (hsrc : src = p ++ cs) (hp : KeepsBreaks p cs) :
    LexemesUnified src (lexemes p.length cs) (lexemes (unifyBreaks p).length (unifyBreaks cs)) := by
  induction hn : cs.length using Nat.strongRecOn generalizing p cs with
  | _ n ih =>
    by_cases hcs : cs = []
    · subst hcs
      simpa [unifyBreaks] using LexemesUnified.nil
    · have hrest {w v : List Char} (hwv : cs = w ++ v) (hw : w ≠ []) (hkeeps : KeepsBreaks w v) :
          LexemesUnified src (lexemes (p.length + w.length) v)
            (lexemes ((unifyBreaks p).length + (unifyBreaks w).length) (unifyBreaks v)) := by
        subst hwv
        have hlength := List.length_pos_iff.mpr hw
        have hv := ih v.length (by rw [← hn, List.length_append]; omega)
          (p := p ++ w) (by rw [hsrc, List.append_assoc]) (hkeeps.append hw p) rfl
        rwa [List.length_append, unifyBreaks_append hp.left, List.length_append] at hv
      cases fronts hcs with
      | @literal u v closed =>
        have hsplit : '"' :: (u ++ '"' :: v) = '"' :: (u ++ ['"']) ++ v := by simp
        have hw : '"' :: (u ++ ['"']) ≠ [] := List.cons_ne_nil _ _
        have hwv : KeepsBreaks ('"' :: (u ++ ['"'])) v := by
          refine keepsBreaks_of_last ?_ v
          rw [← List.cons_append, List.getLast?_concat]
          decide
        have hclosed : '"' ∉ unifyBreaks u := fun h =>
          closed ((mem_of_mem_unifyBreaks h).resolve_left (by decide))
        rw [hsplit] at hsrc hp hrest ⊢
        refine .front (k := .strLit) hp hw hwv hsrc ?_ ?_ ?_ (hrest rfl hw hwv)
        · simpa using longestLexeme_literal closed v
        · rw [unifyBreaks_quoted]
          simpa using longestLexeme_literal hclosed (unifyBreaks v)
        · intro x y hxy
          rw [unifyBreaks_quoted]
          exact Token.unified_literal hxy u
      | @other k w v kind nonempty unbroken front front' =>
        have hunify := unifyBreaks_of_notMem unbroken
        have hwv : KeepsBreaks w v :=
          keepsBreaks_of_last (fun h => unbroken (List.mem_of_getLast? h)) v
        refine .front hp nonempty hwv hsrc front (by rwa [hunify]) ?_ (hrest rfl nonempty hwv)
        intro x y hxy
        rw [hunify]
        refine Token.unified_other hxy ?_ unbroken
        simp only [List.mem_cons, List.not_mem_nil, or_false, not_or] at kind ⊢
        exact ⟨fun h => kind.1 (Kind.of_refine h (by decide)),
          fun h => kind.2 (Kind.of_refine h (by decide))⟩
      | @lineBreak c v ends =>
        obtain ⟨hc, hunify⟩ : isBreak c = true ∧ unifyBreaks [c] = ['\n'] := by
          rcases endsLine_iff.mp ends with rfl | ⟨rfl, -⟩ <;> decide
        have hwv : KeepsBreaks [c] v := fun h => (endsLine_iff.mp ends).elim
          (fun hc => by simp [hc] at h) And.right
        have hv := hrest (w := [c]) rfl (List.cons_ne_nil c []) hwv
        rw [hunify] at hv
        rw [unifyBreaks_break ends, lexemes_break _ hc, lexemes_break _ (by decide)]
        exact .cons (Token.unified_newline ⟨p, c, v, hsrc, hc, hp, rfl, rfl⟩ _ _) hv
      | @pair v =>
        have hwv : KeepsBreaks ['\r', '\n'] v := keepsBreaks_of_last (by decide) v
        have hv := hrest (w := ['\r', '\n']) rfl (List.cons_ne_nil _ _) hwv
        rw [unifyBreaks_pair, lexemes_break _ (by decide), lexemes_break _ (by decide),
          lexemes_break _ (by decide)]
        exact .pair (Token.unified_newline ⟨p, _, _, hsrc, by decide, hp, rfl, rfl⟩ _ _) rfl rfl hv

end Lexemes

/-! ## Tokens and lexical errors -/

section Tokens

variable {src : List Char} {ts us : List Token}

/-- The same lexical error of the two texts. -/
structure LexError.Unified (src : List Char) (e e' : LexError) : Prop where
  text : e'.text = e.text
  unbroken : '\r' ∉ e.text.toList
  span : e.span.Same src e'.span

theorem LexemesUnified.dropLayout (h : LexemesUnified src ts us) (last : Option Kind) :
    List.Forall₂ (Token.Unified src) (dropLayout last ts) (dropLayout last us) := by
  induction h generalizing last with
  | nil => exact .nil
  | cons lexeme rest ih =>
    rw [ScripCheck.dropLayout, ScripCheck.dropLayout, lexeme.kind]
    split
    · exact ih last
    · split
      · exact ih last
      · exact .cons lexeme (ih _)
  | pair lexeme first second rest ih =>
    -- the second character of the line break is dropped, like the first or because of it
    simp only [ScripCheck.dropLayout, lexeme.kind, first, second]
    by_cases h : last.all Kind.absorbsNewline = true
    · simpa [h] using ih last
    · simpa [h, Kind.absorbsNewline] using ⟨lexeme, ih _⟩

theorem LexError.Unified.merge {e₁ e₁' e₂ e₂' : LexError} (h₁ : e₁.Unified src e₁')
    (h₂ : e₂.Unified src e₂') : (e₁.merge e₂).Unified src (e₁'.merge e₂') where
  text := by rw [LexError.merge, LexError.merge, h₁.text, h₂.text]
  unbroken := by
    rw [LexError.merge, String.toList_append, List.mem_append, not_or]
    exact ⟨h₁.unbroken, h₂.unbroken⟩
  span := ⟨h₁.span.lo, h₂.span.hi⟩

theorem LexemesUnified.strays (h : LexemesUnified src ts us) :
    List.Forall₂ (LexError.Unified src) (strays ts) (strays us) := by
  induction h with
  | nil => exact .nil
  | @cons t u ts us lexeme rest ih =>
    rw [ScripCheck.strays, ScripCheck.strays, lexeme.kind]
    split
    · next hk =>
      have hfirst : LexError.Unified src ⟨t.text, t.span⟩ ⟨u.text, u.span⟩ := by
        have hunbroken := lexeme.unbroken (by simp [hk])
        refine ⟨?_, hunbroken, lexeme.span (by simp [hk])⟩
        exact (lexeme.text (by simp [hk])).trans (unifiedText_of_notMem hunbroken)
      generalize ScripCheck.strays ts = es, ScripCheck.strays us = es' at ih
      cases ih with
      | nil => exact .cons hfirst .nil
      | cons he hes =>
        simp only [hfirst.span.hi.eq_iff he.span.lo]
        split
        · exact .cons (hfirst.merge he) hes
        · exact .cons hfirst (.cons he hes)
    · exact ih
  | pair lexeme first second rest ih =>
    simpa [ScripCheck.strays, lexeme.kind, first, second] using ih

/-- A text has the same tokens or lexical errors with its line breaks unified. -/
theorem lex_unified (src : List Char) :
    (∃ ts us, lex src = .ok ts ∧ lex (unifyBreaks src) = .ok us ∧
      List.Forall₂ (Token.Unified src) ts us) ∨
    ∃ es es', lex src = .error es ∧ lex (unifyBreaks src) = .error es' ∧ es ≠ [] ∧
      List.Forall₂ (LexError.Unified src) es es' := by
  have hlexemes : LexemesUnified src (lexemes 0 src) (lexemes 0 (unifyBreaks src)) :=
    lexemes_unified (p := []) rfl (fun h => by cases h)
  have hstrays := hlexemes.strays
  generalize hes : strays (lexemes 0 src) = es, hes' : strays (lexemes 0 (unifyBreaks src)) = es'
    at hstrays
  cases hstrays with
  | nil =>
    exact .inl ⟨_, _, lex_of_no_strays hes, lex_of_no_strays hes', hlexemes.dropLayout none⟩
  | cons he hes'' =>
    exact .inr ⟨_, _, lex_of_strays hes, lex_of_strays hes', List.cons_ne_nil _ _, .cons he hes''⟩

end Tokens

end ScripCheck
