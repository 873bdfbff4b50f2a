import ScripCheck.Proofs.Token.Stray

/-!
# Lexical errors

A text has tokens if there is no stray in it. Otherwise its errors are the maximal runs of strays.

* `MaximalRun`: neighbouring offsets with a property, as many as there are.
* `Separated`: ranges with gaps between them, which cover some offsets. They are the maximal runs
  of these: `Separated.mem_iff`.
* `strays_separated`: the errors of some lexemes are separated, and cover the strays.
* `lexErrors_separated`, `lexErrors_inside`: so do the errors of a text, which are inside it.
* `lex_errors`: the errors of a text.
-/

namespace ScripCheck

/-- All offsets from `lo` up to `hi` have the property, and no neighbour of them has it. -/
structure MaximalRun (P : Nat → Prop) (lo hi : Nat) : Prop where
  nonempty : lo < hi
  inside : ∀ i, lo ≤ i → i < hi → P i
  left : ∀ i, i + 1 = lo → ¬ P i
  right : ¬ P hi

/-- Nonempty ranges from left to right, with gaps between them, that cover the offsets with the
property. -/
structure Separated (P : Int → Prop) (as : List Span) : Prop where
  nonempty : ∀ a ∈ as, a.lo < a.hi
  gaps : as.Pairwise fun a b => a.hi < b.lo
  cover : ∀ i, P i ↔ ∃ a ∈ as, a.lo ≤ i ∧ i < a.hi

section Ranges

variable {P : Int → Prop} {Q : Nat → Prop} {as : List Span} {a b : Span} {p : Int}

theorem Separated.apart (h : Separated P as) (ha : a ∈ as) (hb : b ∈ as) :
    a = b ∨ a.hi < b.lo ∨ b.hi < a.lo := by
  obtain ⟨i, hi, rfl⟩ := List.getElem_of_mem ha
  obtain ⟨j, hj, rfl⟩ := List.getElem_of_mem hb
  have hgaps := List.pairwise_iff_getElem.mp h.gaps
  rcases Nat.lt_trichotomy i j with hij | rfl | hji
  · exact .inr (.inl (hgaps i j hi hj hij))
  · exact .inl rfl
  · exact .inr (.inr (hgaps j i hj hi hji))

/-- What is right before a range is not covered. -/
theorem Separated.left (h : Separated P as) (ha : a ∈ as) : ¬ P (a.lo - 1) := by
  intro hP
  obtain ⟨b, hb, hlo, hhi⟩ := (h.cover _).mp hP
  have := h.nonempty a ha
  rcases h.apart ha hb with rfl | hab | hba <;> omega

/-- What is right behind a range is not covered. -/
theorem Separated.right (h : Separated P as) (ha : a ∈ as) : ¬ P a.hi := by
  intro hP
  obtain ⟨b, hb, hlo, hhi⟩ := (h.cover _).mp hP
  have := h.nonempty a ha
  rcases h.apart ha hb with rfl | hab | hba <;> omega

/-- Ranges with gaps between them are the maximal runs of what they cover. -/
theorem Separated.mem_iff (h : Separated P as) (hP : ∀ i, P i ↔ ∃ n : Nat, i = n ∧ Q n) :
    a ∈ as ↔ ∃ lo hi : Nat, a = ⟨lo, hi⟩ ∧ MaximalRun Q lo hi := by
  have hQ (n : Nat) : Q n ↔ P n := by
    rw [hP]
    exact ⟨fun h => ⟨n, rfl, h⟩, fun ⟨m, hm, h⟩ => Int.ofNat_inj.mp hm ▸ h⟩
  constructor
  · intro ha
    have hne := h.nonempty a ha
    obtain ⟨lo, hlo, -⟩ := (hP _).mp ((h.cover a.lo).mpr ⟨a, ha, Int.le_refl _, hne⟩)
    obtain ⟨hi, hhi⟩ := Int.eq_ofNat_of_zero_le (show 0 ≤ a.hi by omega)
    have hleft := h.left ha
    have hright := h.right ha
    refine ⟨lo, hi, by rw [← hlo, ← hhi], by omega, fun i hloi hihi => ?_, fun i hi => ?_, ?_⟩
    · exact (hQ i).mpr ((h.cover i).mpr ⟨a, ha, by omega, by omega⟩)
    · rwa [hQ, show (i : Int) = a.lo - 1 by omega]
    · rwa [hQ, ← hhi]
  · rintro ⟨lo, hi, rfl, hrun⟩
    obtain ⟨b, hb, hlo, hhi⟩ :=
      (h.cover lo).mp ((hQ lo).mp (hrun.inside lo (Nat.le_refl _) hrun.nonempty))
    have hne := hrun.nonempty
    have hleft : b.lo = lo := by
      by_contra hlt
      obtain ⟨n, hn, -⟩ := (hP _).mp ((h.cover b.lo).mpr ⟨b, hb, by omega, by omega⟩)
      obtain ⟨i, rfl⟩ := Nat.exists_eq_add_one.mpr (show 0 < lo by omega)
      exact hrun.left i rfl ((hQ i).mpr ((h.cover i).mpr ⟨b, hb, by omega, by omega⟩))
    have hright : b.hi = hi := by
      rcases Int.lt_trichotomy b.hi hi with hlt | heq | hgt
      · obtain ⟨n, hn⟩ := Int.eq_ofNat_of_zero_le (show 0 ≤ b.hi by omega)
        refine absurd ?_ (h.right hb)
        rw [hn, ← hQ]
        exact hrun.inside n (by omega) (by omega)
      · exact heq
      · exact absurd ((hQ hi).mpr ((h.cover hi).mpr ⟨b, hb, by omega, hgt⟩)) hrun.right
    obtain ⟨x, y⟩ := b
    subst hleft hright
    exact hb

/-! ## One more stray in front -/

/-- A stray that does not touch the first range is a range by itself. -/
theorem Separated.cons (h : Separated P as) (hp : ∀ b ∈ as, p + 1 < b.lo) :
    Separated (fun i => i = p ∨ P i) (⟨p, p + 1⟩ :: as) where
  nonempty := List.forall_mem_cons.mpr ⟨Int.lt_succ p, h.nonempty⟩
  gaps := .cons (fun b hb => hp b hb) h.gaps
  cover i := by
    simp only [h.cover, List.exists_mem_cons_iff]
    refine or_congr ?_ Iff.rfl
    omega

/-- A stray that touches the first range makes it longer. -/
theorem Separated.merge (h : Separated P (a :: as)) (hp : p + 1 = a.lo) :
    Separated (fun i => i = p ∨ P i) (⟨p, a.hi⟩ :: as) where
  nonempty := by
    obtain ⟨ha, has⟩ := List.forall_mem_cons.mp h.nonempty
    refine List.forall_mem_cons.mpr ⟨?_, has⟩
    dsimp only
    omega
  gaps := .cons (fun _ hb => List.rel_of_pairwise_cons h.gaps hb) h.gaps.of_cons
  cover i := by
    have := h.nonempty a List.mem_cons_self
    simp only [h.cover, List.exists_mem_cons_iff, ← or_assoc]
    refine or_congr ?_ Iff.rfl
    omega

end Ranges

/-! ## Errors -/

section Errors

variable {ts : List Token}

/-- The errors of lexemes from left to right, whose strays are single characters. -/
theorem strays_separated (hone : ∀ t ∈ ts, t.kind = .stray → t.span.hi = t.span.lo + 1)
    (hsorted : ts.Pairwise fun t u => t.span.hi ≤ u.span.lo) :
    Separated (fun i => ∃ t ∈ ts, t.kind = .stray ∧ t.span.lo = i) ((strays ts).map (·.span)) := by
  induction ts with
  | nil =>
    exact ⟨fun _ h => absurd h List.not_mem_nil, .nil, fun i => by simp [strays]⟩
  | cons t ts ih =>
    obtain ⟨ht, hone⟩ := List.forall_mem_cons.mp hone
    obtain ⟨hlater, hsorted⟩ := List.pairwise_cons.mp hsorted
    have hrec := ih hone hsorted
    simp only [List.exists_mem_cons_iff]
    rw [strays]
    by_cases hk : t.kind = .stray
    · have hP (i : Int) : (t.kind = .stray ∧ t.span.lo = i) ↔ i = t.span.lo := by simp [hk, eq_comm]
      have hspan : t.span = ⟨t.span.lo, t.span.lo + 1⟩ := by rw [← ht hk]
      have hbehind (b : Span) (hb : b ∈ (strays ts).map (·.span)) : t.span.hi ≤ b.lo := by
        obtain ⟨u, hu, -, hlo⟩ :=
          (hrec.cover b.lo).mpr ⟨b, hb, Int.le_refl _, hrec.nonempty b hb⟩
        exact hlo ▸ hlater u hu
      simp only [if_pos hk, hP]
      cases hes : strays ts with
      | nil =>
        rw [hes] at hrec
        simpa only [List.map_cons, ← hspan] using
          hrec.cons (p := t.span.lo) fun _ h => absurd h List.not_mem_nil
      | cons e es =>
        rw [hes, List.map_cons] at hrec hbehind
        dsimp only
        split
        · next htouch => exact hrec.merge (by rw [← ht hk]; exact htouch)
        · next htouch =>
          have hgap : ∀ b ∈ e.span :: es.map (·.span), t.span.lo + 1 < b.lo := by
            intro b hb
            rw [← ht hk]
            refine Int.lt_iff_le_and_ne.mpr ⟨hbehind b hb, fun heq => ?_⟩
            rcases List.mem_cons.mp hb with rfl | hb
            · exact htouch heq
            · have := hbehind e.span List.mem_cons_self
              have := hrec.nonempty e.span List.mem_cons_self
              have := List.rel_of_pairwise_cons hrec.gaps hb
              omega
          simpa only [List.map_cons, ← hspan] using hrec.cons hgap
    · simpa [hk] using hrec

/-! ## Texts of errors -/

theorem slice_join {a b : Span} (ha : a.lo ≤ a.hi) (hb : b.lo ≤ b.hi) (h : a.hi = b.lo)
    (src : List Char) : a.slice src ++ b.slice src = (a.join b).slice src := by
  have htake : (src.take b.hi.toNat).take a.hi.toNat = src.take a.hi.toNat := by
    rw [List.take_take, Nat.min_eq_left (by omega)]
  have hslice : (src.take b.hi.toNat).drop a.hi.toNat = b.slice src := by rw [h]; rfl
  have hsplit : src.take b.hi.toNat = src.take a.hi.toNat ++ b.slice src := by
    rw [← hslice, ← htake, List.take_append_drop]
  have hdrop : (b.slice src).drop (a.lo.toNat - (src.take a.hi.toNat).length) = b.slice src := by
    by_cases hle : a.lo.toNat ≤ (src.take a.hi.toNat).length
    · rw [Nat.sub_eq_zero_of_le hle, List.drop_zero]
    · -- the first range starts behind the text, so nothing is in the second
      have hnil : b.slice src = [] := by
        rw [← hslice, List.drop_eq_nil_iff]
        rw [List.length_take] at hle ⊢
        omega
      rw [hnil, List.drop_nil]
  calc a.slice src ++ b.slice src
      = (src.take a.hi.toNat ++ b.slice src).drop a.lo.toNat := by
        rw [List.drop_append, hdrop]; rfl
    _ = (a.join b).slice src := by rw [← hsplit]; rfl

/-- If the text of each lexeme is the one at its span, so is that of each error. -/
theorem strays_slice {src : List Char}
    (hts : ∀ t ∈ ts, t.span.lo ≤ t.span.hi ∧ t.text.toList = t.span.slice src) :
    ∀ e ∈ strays ts, e.span.lo ≤ e.span.hi ∧ e.text.toList = e.span.slice src := by
  induction ts with
  | nil => exact fun _ h => absurd h List.not_mem_nil
  | cons t ts ih =>
    obtain ⟨ht, hts⟩ := List.forall_mem_cons.mp hts
    have hrec := ih hts
    rw [strays]
    split
    · cases hes : strays ts with
      | nil => exact List.forall_mem_singleton.mpr ht
      | cons e es =>
        rw [hes] at hrec
        obtain ⟨he, hes⟩ := List.forall_mem_cons.mp hrec
        dsimp only
        split
        · next htouch =>
          refine List.forall_mem_cons.mpr ⟨⟨?_, ?_⟩, hes⟩
          · have := ht.1
            have := he.1
            simp only [LexError.merge, Span.join]
            omega
          · rw [LexError.merge, String.toList_append, ht.2, he.2, slice_join ht.1 he.1 htouch]
        · exact List.forall_mem_cons.mpr ⟨ht, hrec⟩
    · exact hrec

theorem lexemes_slice {src cs : List Char} {lo : Nat} {t : Token} (hcs : cs = src.drop lo)
    (ht : t ∈ lexemes lo cs) : t.text.toList = t.span.slice src := by
  induction lo, cs using lexemes_induction with
  | nil lo => simp at ht
  | cons lo cs hne ih =>
    rw [lexemes_eq lo hne] at ht
    rcases List.mem_cons.mp ht with rfl | ht
    · simp only [lexeme, Span.slice, Int.toNat_natCast, String.toList_ofList, List.drop_take,
        Nat.add_sub_cancel_left, ← hcs]
    · exact ih (by rw [hcs, List.drop_drop]) ht

/-! ## The errors of a text -/

theorem lex_ok_iff {src : List Char} : (∃ ts, lex src = .ok ts) ↔ ∀ i, ¬ StrayAt 0 src i := by
  have hstrays : (∀ i, ¬ StrayAt 0 src i) ↔ ∀ t ∈ lexemes 0 src, t.kind ≠ .stray := by
    simp only [strayAt_iff, not_exists, not_and]
    refine ⟨fun h t ht hk => ?_, fun h i t ht hk => absurd hk (h t ht)⟩
    obtain ⟨i, hi⟩ := Int.eq_ofNat_of_zero_le (lexeme_span ht).1
    exact h i t ht hk hi
  rw [hstrays, ← strays_eq_nil]
  refine ⟨fun ⟨ts, h⟩ => (lex_eq_ok h).1, fun h => ⟨_, lex_of_no_strays h⟩⟩

/-- The errors of a text are separated, and cover its strays. -/
theorem lexErrors_separated {src : List Char} {es : List LexError} (h : lex src = .error es) :
    Separated (fun i => ∃ n : Nat, i = n ∧ StrayAt 0 src n) (es.map (·.span)) := by
  obtain ⟨e, es, rfl, hstrays⟩ := lex_eq_error h
  have hseparated : Separated (fun i => ∃ t ∈ lexemes 0 src, t.kind = .stray ∧ t.span.lo = i)
      ((strays (lexemes 0 src)).map (·.span)) :=
    strays_separated (fun _ => lexemes_stray) (lexemes_pairwise 0 src)
  rw [hstrays] at hseparated
  refine ⟨hseparated.nonempty, hseparated.gaps, fun i => Iff.trans ⟨?_, ?_⟩ (hseparated.cover i)⟩
  · rintro ⟨n, rfl, hn⟩
    exact (strayAt_iff 0 src n).mp hn
  · rintro ⟨t, ht, hk, hlo⟩
    obtain ⟨n, hn⟩ := Int.eq_ofNat_of_zero_le (lexeme_span ht).1
    exact ⟨n, hlo.symm.trans hn, (strayAt_iff 0 src n).mpr ⟨t, ht, hk, hn⟩⟩

/-- An error is about a part of the text that is not empty. -/
theorem lexErrors_inside {src : List Char} {es : List LexError} (h : lex src = .error es) :
    ∀ e ∈ es, 0 ≤ e.span.lo ∧ e.span.lo < e.span.hi ∧ e.span.hi ≤ src.length := by
  intro e he
  have hseparated := lexErrors_separated h
  have hspan : e.span ∈ es.map (·.span) := List.mem_map_of_mem he
  have hne := hseparated.nonempty e.span hspan
  -- its first and its last character are strays
  obtain ⟨n, hlo, -⟩ := (hseparated.cover e.span.lo).mpr ⟨e.span, hspan, by omega, by omega⟩
  obtain ⟨m, hhi, hm⟩ := (hseparated.cover (e.span.hi - 1)).mpr ⟨e.span, hspan, by omega, by omega⟩
  have hrange := hm.range.2
  omega

/-- A text has tokens if there is no stray in it. Otherwise its errors are the maximal runs of
strays, from left to right and with gaps between them. -/
theorem lex_errors (src : List Char) :
    ((∃ ts, lex src = .ok ts) ↔ ∀ i, ¬ StrayAt 0 src i) ∧
      ∀ es, lex src = .error es → es.Pairwise (·.span.hi < ·.span.lo) ∧
        ∀ e, e ∈ es ↔ ∃ lo hi : Nat, MaximalRun (StrayAt 0 src) lo hi ∧
          e = ⟨String.ofList ((src.take hi).drop lo), ⟨lo, hi⟩⟩ := by
  refine ⟨lex_ok_iff, fun es hes => ?_⟩
  obtain ⟨e, es, rfl, hstrays⟩ := lex_eq_error hes
  have hseparated : Separated (fun i => ∃ t ∈ lexemes 0 src, t.kind = .stray ∧ t.span.lo = i)
      ((strays (lexemes 0 src)).map (·.span)) :=
    strays_separated (fun _ => lexemes_stray) (lexemes_pairwise 0 src)
  have hslice : ∀ e ∈ strays (lexemes 0 src),
      e.span.lo ≤ e.span.hi ∧ e.text.toList = e.span.slice src :=
    strays_slice fun t ht => ⟨Int.le_of_lt (lexeme_span ht).2, lexemes_slice rfl ht⟩
  rw [hstrays] at hseparated hslice
  have hrun (a : Span) : a ∈ (e :: es).map (·.span) ↔
      ∃ lo hi : Nat, a = ⟨lo, hi⟩ ∧ MaximalRun (StrayAt 0 src) lo hi := by
    refine hseparated.mem_iff fun i => ⟨fun ⟨t, ht, hk, hlo⟩ => ?_, fun ⟨n, hn, h⟩ => ?_⟩
    · obtain ⟨n, hn⟩ := Int.eq_ofNat_of_zero_le (lexeme_span ht).1
      exact ⟨n, hlo.symm.trans hn, (strayAt_iff 0 src n).mpr ⟨t, ht, hk, hn⟩⟩
    · exact hn ▸ (strayAt_iff 0 src n).mp h
  have htext {a : LexError} {lo hi : Nat} (ha : a ∈ e :: es) (hspan : a.span = ⟨lo, hi⟩) :
      a = ⟨String.ofList ((src.take hi).drop lo), ⟨lo, hi⟩⟩ := by
    have hslice := (hslice a ha).2
    rw [hspan, Span.slice, Int.toNat_natCast, Int.toNat_natCast] at hslice
    rw [← hslice, String.ofList_toList, ← hspan]
  refine ⟨List.pairwise_map.mp hseparated.gaps, fun a => ⟨fun ha => ?_, ?_⟩⟩
  · obtain ⟨lo, hi, hspan, h⟩ := (hrun a.span).mp (List.mem_map_of_mem ha)
    exact ⟨lo, hi, h, htext ha hspan⟩
  · rintro ⟨lo, hi, h, rfl⟩
    obtain ⟨a, ha, hspan⟩ := List.mem_map.mp ((hrun ⟨lo, hi⟩).mpr ⟨lo, hi, rfl, h⟩)
    exact htext ha hspan ▸ ha

end Errors

end ScripCheck
