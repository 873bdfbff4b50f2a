import ScripCheck.Proofs.Token.Language
import ScripCheck.Proofs.Token.Layout

/-!
# Texts one after another

Where a text without stray characters ends in a blank, a line break or a closing brace, no lexeme
reaches from it into the text behind it, but for blanks.

* `not_accepts_over`: no rule accepts a text that reaches over the seam.
* `longestLexeme_blank`: blanks are one lexeme.
* `solid_append`: the lexemes of two texts, one after another.
-/

namespace ScripCheck

section Lexemes

variable {lo : Nat} {cs cs' w : List Char} {r : Rule}

/-! ## Over the seam -/

/-- Some lexemes end in a character after which a text may be cut. -/
theorem lexeme_isSeam {t : Token} (ht : t ∈ lexemes lo cs)
    (hk : t.kind ∈ [.blank, .newline, .rbrace]) :
    ∃ hne : t.text.toList ≠ [], isSeam (t.text.toList.getLast hne) = true := by
  obtain ⟨r, hr, haccepts, hkind⟩ := lexemes_rule ht
  simp only [List.mem_cons, List.not_mem_nil, or_false] at hk
  rcases hk with hk | hk | hk
  · have hrk := Kind.of_refine (hkind.trans hk) (by decide)
    obtain ⟨hne, hall⟩ := (accepts_blank hr hrk).mp haccepts
    exact ⟨hne, by simp [isSeam, hall _ (List.getLast_mem hne)]⟩
  · have hrk := Kind.of_refine (hkind.trans hk) (by decide)
    obtain ⟨c, hc, hbreak⟩ := (accepts_newline hr hrk).mp haccepts
    exact ⟨by simp [hc], by simp [isSeam, hc, hbreak]⟩
  · have hrk := Kind.of_refine (hkind.trans hk) (by decide)
    have hc := (accepts_rbrace hr hrk).mp haccepts
    exact ⟨by simp [hc], by simp [isSeam, hc]⟩

/-- A text that starts with a quote and has no other starts with a stray character. -/
theorem stray_of_unclosed (h : '"' ∉ cs) : (longestLexeme ('"' :: cs)).1 = .stray := by
  obtain ⟨r, hr, n, hkind, -, haccepts⟩ := longestLexeme_cons '"' cs
  have hquote : ∀ r ∈ rules, r.pattern.alphabet '"' = true → r.kind ∈ [.strLit, .stray] := by
    decide
  have hk := hquote r hr (haccepts.alphabet List.mem_cons_self)
  simp only [List.mem_cons, List.not_mem_nil, or_false] at hk
  rcases hk with hk | hk
  · obtain ⟨u, hu, -⟩ := (accepts_strLit hr hk).mp haccepts
    have hmem : '"' ∈ cs.take n := by
      rw [(List.cons.inj hu).2]
      exact List.mem_append_right u List.mem_cons_self
    exact absurd (List.mem_of_mem_take hmem) h
  · rw [← hkind, hk]

/-- A literal that ends behind a text is not closed in it. -/
theorem unclosed_of_append {u v : List Char} (h : cs ++ v = u ++ ['"']) (hne : v ≠ [])
    (hu : '"' ∉ u) : '"' ∉ cs := by
  have hdrop : cs ++ v.dropLast = u := by
    rw [← List.dropLast_append_of_ne_nil hne, h, List.dropLast_concat]
  rw [← hdrop] at hu
  exact fun hc => hu (List.mem_append_left _ hc)

/-- No rule accepts a text that reaches over the seam, unless all before the seam are blanks. -/
theorem not_accepts_over (hcs : cs ≠ []) (hlast : isSeam (cs.getLast hcs) = true)
    (hblank : ¬ ∀ c ∈ cs, isSpace c = true) (hstray : (longestLexeme cs).1 ≠ .stray)
    (hr : r ∈ rules) (hw : w ≠ []) : ¬ r.pattern.Accepts (cs ++ w) := by
  intro h
  have hlength : 2 ≤ (cs ++ w).length := by
    have := List.length_pos_of_ne_nil hcs
    have := List.length_pos_of_ne_nil hw
    rw [List.length_append]
    omega
  have hmem : cs.getLast hcs ∈ cs ++ w := List.mem_append_left w (List.getLast_mem hcs)
  rcases kind_of_seam hr hlast (h.alphabet hmem) with hk | hk | hk | hk | hk
  · exact hblank fun c hc => ((accepts_blank hr hk).mp h).2 c (List.mem_append_left w hc)
  · obtain ⟨c, hc, -⟩ := (accepts_newline hr hk).mp h
    simp [hc] at hlength
  · -- the text before the seam opens a literal and does not close it
    obtain ⟨u, hu, hquote⟩ := (accepts_strLit hr hk).mp h
    obtain ⟨c, cs, rfl⟩ := List.exists_cons_of_ne_nil hcs
    obtain ⟨rfl, htail⟩ := List.cons.inj hu
    exact hstray (stray_of_unclosed (unclosed_of_append htail hw hquote))
  · rw [(accepts_rbrace hr hk).mp h] at hlength
    simp at hlength
  · obtain ⟨c, hc⟩ := (accepts_stray hr hk).mp h
    simp [hc] at hlength

/-! ## Blanks -/

/-- Only the rule of blanks accepts more than one character from a blank on. -/
theorem kind_of_blank {c : Char} (hr : r ∈ rules) (hc : isSpace c = true)
    (h : r.pattern.Accepts (c :: w)) : r.kind = .blank ∨ w = [] := by
  have hseam : isSeam c = true := by simp [isSeam, hc]
  rcases kind_of_seam hr hseam (h.alphabet List.mem_cons_self) with hk | hk | hk | hk | hk
  · exact .inl hk
  · obtain ⟨d, hd, -⟩ := (accepts_newline hr hk).mp h
    exact .inr (List.cons.inj hd).2
  · obtain ⟨u, hu, -⟩ := (accepts_strLit hr hk).mp h
    rw [(List.cons.inj hu).1] at hc
    exact absurd hc (by decide)
  · exact .inr (List.cons.inj ((accepts_rbrace hr hk).mp h)).2
  · obtain ⟨d, hd⟩ := (accepts_stray hr hk).mp h
    exact .inr (List.cons.inj hd).2

/-- The rule of blanks is the first, so it wins where it matches. -/
theorem kind_of_leading_blank {c : Char} (hc : isSpace c = true) (cs : List Char) :
    (longestLexeme (c :: cs)).1 = .blank := by
  obtain ⟨before, r, after, hsplit, hkind, hn, hbefore⟩ :=
    longestLexeme_source (List.cons_ne_nil c cs)
  rw [← hkind]
  cases before with
  | nil => exact congrArg Rule.kind (List.cons.inj hsplit).1.symm
  | cons r₀ before =>
    obtain rfl := (List.cons.inj hsplit).1
    have hr : r ∈ rules := by rw [hsplit]; simp
    have hone : [c] <+: c :: cs := List.cons_prefix_cons.mpr ⟨rfl, List.nil_prefix⟩
    have hblank : Pattern.Accepts (.plus (.one isSpace)) [c] :=
      Pattern.accepts_plus_one.mpr ⟨List.cons_ne_nil _ _, by simpa using hc⟩
    obtain ⟨m, hm, hle⟩ := Pattern.le_longest? hone hblank
    have hlt := hbefore _ List.mem_cons_self m hm
    -- so the match of another rule has two characters at least
    obtain ⟨hlength, haccepts⟩ := Pattern.longest?_accepts hn
    obtain ⟨n, hn'⟩ := Nat.exists_eq_add_one.mpr (Nat.zero_lt_of_lt hlt)
    rw [hn'] at hlt hlength haccepts
    rw [List.take_succ_cons] at haccepts
    refine (kind_of_blank hr hc haccepts).resolve_right fun hnil => ?_
    have hzero := congrArg List.length hnil
    simp only [List.length_take, List.length_cons, List.length_nil] at hzero hlength hle
    omega

/-- Blanks are one lexeme, as far as they go. -/
theorem longestLexeme_blank (hcs : cs ≠ []) (hblank : ∀ c ∈ cs, isSpace c = true)
    (hnext : ∀ c ∈ cs'.head?, isSpace c = false) :
    longestLexeme (cs ++ cs') = (.blank, cs.length) := by
  have hkind : (longestLexeme (cs ++ cs')).1 = .blank := by
    obtain ⟨c, cs, rfl⟩ := List.exists_cons_of_ne_nil hcs
    exact kind_of_leading_blank (hblank c List.mem_cons_self) _
  have hrule : (⟨.blank, .plus (.one isSpace)⟩ : Rule) ∈ rules := List.mem_cons_self
  have hle := le_longestLexeme hrule (List.prefix_append cs cs')
    ((accepts_blank hrule rfl).mpr ⟨hcs, hblank⟩)
  obtain ⟨r, hr, hk, hlength, haccepts⟩ :=
    longestLexeme_mem (List.append_ne_nil_of_left_ne_nil hcs cs')
  have hall := ((accepts_blank hr (hk.trans hkind)).mp haccepts).2
  refine Prod.ext hkind (Nat.le_antisymm ?_ hle)
  -- a longer lexeme would take the character behind the blanks
  by_contra hlong
  obtain ⟨c, cs', rfl⟩ : ∃ c cs'', cs' = c :: cs'' := List.exists_cons_of_ne_nil fun hnil => by
    rw [hnil, List.append_nil] at hlength hlong
    exact hlong hlength
  obtain ⟨k, hk⟩ : ∃ k, (longestLexeme (cs ++ c :: cs')).2 = cs.length + (k + 1) :=
    ⟨(longestLexeme (cs ++ c :: cs')).2 - cs.length - 1, by omega⟩
  rw [hk, List.take_length_add_append, List.take_succ_cons] at hall
  have hc := hall c (List.mem_append_right cs List.mem_cons_self)
  rw [hnext c rfl] at hc
  cases hc

/-- Blanks in front do not matter to the lexemes that are no blanks. -/
theorem solid_blanks_of_next (lo : Nat) (hblank : ∀ c ∈ cs, isSpace c = true)
    (hnext : ∀ c ∈ cs'.head?, isSpace c = false) :
    solid (lexemes lo (cs ++ cs')) = solid (lexemes (lo + cs.length) cs') := by
  by_cases hcs : cs = []
  · rw [hcs]; rfl
  · have hbest := longestLexeme_blank hcs hblank hnext
    have hkind : (lexeme lo (cs ++ cs')).kind = .blank := by
      rw [lexeme, hbest]; rfl
    rw [lexemes_eq lo (List.append_ne_nil_of_left_ne_nil hcs cs'), hbest, List.drop_left, solid,
      List.filter_cons_of_neg (by simp [hkind])]
    rfl

theorem solid_blanks (lo : Nat) (hblank : ∀ c ∈ cs, isSpace c = true) (cs' : List Char) :
    solid (lexemes lo (cs ++ cs')) = solid (lexemes (lo + cs.length) cs') := by
  -- more blanks may follow, and they are of the same lexeme
  have hmore : ∀ c ∈ cs'.takeWhile isSpace, isSpace c = true :=
    List.all_eq_true.mp List.all_takeWhile
  have hnext : ∀ c ∈ (cs'.dropWhile isSpace).head?, isSpace c = false := by
    intro c hc
    have hnot := List.head?_dropWhile_not isSpace cs'
    rwa [Option.mem_def.mp hc] at hnot
  have hall : ∀ c ∈ cs ++ cs'.takeWhile isSpace, isSpace c = true := fun c hc =>
    (List.mem_append.mp hc).elim (hblank c) (hmore c)
  have hleft := solid_blanks_of_next lo hall hnext
  have hright := solid_blanks_of_next (lo + cs.length) hmore hnext
  rw [List.append_assoc, List.takeWhile_append_dropWhile] at hleft
  rw [List.takeWhile_append_dropWhile] at hright
  rw [hleft, hright, List.length_append, Nat.add_assoc]

/-! ## Two texts -/

theorem longestLexeme_append (hcs : cs ≠ []) (hlast : isSeam (cs.getLast hcs) = true)
    (hblank : ¬ ∀ c ∈ cs, isSpace c = true) (hstray : (longestLexeme cs).1 ≠ .stray)
    (cs' : List Char) : longestLexeme (cs ++ cs') = longestLexeme cs :=
  longestLexeme_append_of_ends fun _ hr _ hw _ =>
    not_accepts_over hcs hlast hblank hstray hr hw

/-- Where the lexeme at the front is the same with a text behind, the lexemes go on behind it. -/
theorem lexemes_append_front (lo : Nat) (hcs : cs ≠ [])
    (hbest : longestLexeme (cs ++ cs') = longestLexeme cs) : lexemes lo (cs ++ cs') =
      lexeme lo cs :: lexemes (lo + (longestLexeme cs).2) (cs.drop (longestLexeme cs).2 ++ cs') := by
  have hlength := longestLexeme_le hcs
  have hlexeme : lexeme lo (cs ++ cs') = lexeme lo cs := by
    rw [lexeme, hbest, List.take_append_of_le_length hlength, lexeme]
  rw [lexemes_eq lo (List.append_ne_nil_of_left_ne_nil hcs cs'), hlexeme, hbest,
    List.drop_append_of_le_length hlength]

/-- The place where a text ends, counted from behind its first lexeme. -/
theorem offset_drop (lo : Nat) (hcs : cs ≠ []) :
    lo + (longestLexeme cs).2 + (cs.drop (longestLexeme cs).2).length = lo + cs.length := by
  have hlength := longestLexeme_le hcs
  rw [List.length_drop]
  omega

/-- The lexemes of two texts, one after another, are those of the first and those of the second, but
for blanks. -/
theorem solid_append (lo : Nat) (cs cs' : List Char) (hstray : ∀ t ∈ lexemes lo cs, t.kind ≠ .stray)
    (hlast : ∀ hcs : cs ≠ [], isSeam (cs.getLast hcs) = true) :
    solid (lexemes lo (cs ++ cs')) =
      solid (lexemes lo cs) ++ solid (lexemes (lo + cs.length) cs') := by
  induction lo, cs using lexemes_induction with
  | nil lo => simp [solid]
  | cons lo cs hcs ih =>
    by_cases hblank : ∀ c ∈ cs, isSpace c = true
    · have hnone : solid (lexemes lo cs) = [] := by
        have hrun := solid_blanks lo hblank []
        rwa [List.append_nil, lexemes_nil] at hrun
      rw [hnone, solid_blanks lo hblank cs', List.nil_append]
    · rw [lexemes_eq lo hcs] at hstray
      obtain ⟨hfirst, hrest⟩ := List.forall_mem_cons.mp hstray
      have hkind := mt lexeme_isStray.mpr hfirst
      have hih := ih hrest fun hne => by
        rw [List.getLast_drop]
        exact hlast hcs
      rw [offset_drop lo hcs] at hih
      rw [lexemes_append_front lo hcs (longestLexeme_append hcs (hlast hcs) hblank hkind cs'),
        lexemes_eq lo hcs]
      simp only [solid_cons, hih]
      split <;> rfl

end Lexemes

end ScripCheck
