import ScripCheck.Proofs.Source.Breaks
import ScripCheck.Source.Position
import ScripCheck.Source.Span

/-!
# Offsets with unified line breaks

* `SamePlace`: an offset that parts no line break, and the offset of the same place in the text with
  unified line breaks. They are at one position (`SamePlace.ofOffset`), places keep their order
  (`SamePlace.le_iff`), and the text between two of them has its line breaks unified
  (`SamePlace.slice`).
* `ofOffset_append`, `lineText_append`: the position of an offset and the text of its line, from
  the lines before the offset and behind it.
-/

namespace ScripCheck

variable {u v w src : List Char} {ls ms : List (List Char)} {l m : List Char} {a a' b b' : Int}

/-! ## Positions and lines -/

theorem Position.walk_append (p : Position) (h : KeepsBreaks u v) (n : Nat) :
    p.walk (u.length + n) (u ++ v) = (p.walk u.length u).walk n v := by
  induction u generalizing p with
  | nil => rw [List.length_nil, Nat.zero_add]; rfl
  | cons c u ih =>
    simp only [List.length_cons, Nat.add_right_comm, List.cons_append, walk, step, h.endsLine]
    exact ih _ h.of_cons

/-- The position behind a text: past all its lines but the last, and past this one. -/
theorem Position.walk_lines (p : Position) (h : lines u = ls ++ [l]) : p.walk u.length u =
    ⟨p.line + ls.length, (if ls = [] then p.column else 1) + l.length⟩ := by
  induction u generalizing p ls l with
  | nil =>
    cases ls with
    | nil => cases h; rfl
    | cons l' ls => simp [lines] at h
  | cons c u ih =>
    obtain ⟨ls', l', hu⟩ : ∃ ls' l', lines u = ls' ++ [l'] :=
      ⟨_, _, (List.dropLast_concat_getLast (lines_ne_nil u)).symm⟩
    rw [List.length_cons, walk, step, ih _ hu]
    rw [lines, hu] at h
    split at h
    · next hend =>
      obtain ⟨rfl, hl⟩ := List.append_inj' (List.cons_append.trans h) rfl
      obtain rfl := List.singleton_inj.mp hl
      simp only [hend, if_true, ite_self, List.length_cons, List.cons_ne_nil, if_false, mk.injEq,
        and_true]
      omega
    · next hend =>
      split at h
      · next hc =>
        -- the `\n` behind the `\r` starts the next line
        obtain ⟨w, rfl⟩ : ∃ w, u = '\n' :: w := by
          simpa [endsLine_iff, hc, List.head?_eq_some_iff] using hend
        obtain ⟨rfl, hl⟩ := List.append_inj' h rfl
        obtain rfl := List.singleton_inj.mp hl
        have hls : ls' ≠ [] := by
          rintro rfl
          rw [lines, if_pos (by rfl)] at hu
          exact lines_ne_nil w (List.cons.inj hu).2
        simp only [hend, Bool.false_eq_true, if_false, hls]
      · simp only [hend, Bool.false_eq_true, if_false]
        cases ls' with
        | nil =>
          obtain ⟨rfl, rfl⟩ : ls = [] ∧ l = c :: l' := by
            cases ls <;> simp_all
          simp only [if_true, List.length_cons, mk.injEq, true_and]
          omega
        | cons l₁ ls' =>
          have h : ((c :: l₁) :: ls') ++ [l'] = ls ++ [l] := h
          obtain ⟨rfl, hl⟩ := List.append_inj' h rfl
          obtain rfl := List.singleton_inj.mp hl
          simp

theorem ofOffset_append (h : KeepsBreaks u v) (hu : lines u = ls ++ [l]) (n : Nat) :
    Position.ofOffset (u ++ v) (u.length + n : Nat) =
      (Position.mk (ls.length + 1) (l.length + 1)).walk n v := by
  rw [Position.ofOffset, Int.toNat_natCast, Position.walk_append _ h, Position.walk_lines _ hu]
  simp only [Position.start, ite_self, Nat.add_comm 1]

theorem lineText_append (h : KeepsBreaks u v) (hu : lines u = ls ++ [l])
    (hv : lines v = m :: ms) : lineText (u ++ v) ((ls.length + 1 : Nat) : Int) = l ++ m := by
  obtain ⟨ls', l', m', ms', hu', hv', hlines⟩ := lines_append h
  obtain ⟨rfl, hl⟩ := List.append_inj' (hu.symm.trans hu') rfl
  obtain rfl := List.singleton_inj.mp hl
  obtain ⟨rfl, rfl⟩ := List.cons.inj (hv.symm.trans hv')
  rw [lineText, if_neg (by omega), hlines]
  simp

theorem lineText_unifyBreaks (src : List Char) (n : Int) :
    lineText (unifyBreaks src) n = lineText src n := by
  rw [lineText, lineText, lines_unifyBreaks]

/-! ## Places -/

/-- The offset `a` of `src` parts no line break, and `a'` is the same place once line breaks are
unified. -/
def SamePlace (src : List Char) (a a' : Int) : Prop :=
  ∃ u v, src = u ++ v ∧ KeepsBreaks u v ∧ a = u.length ∧ a' = (unifyBreaks u).length

theorem samePlace_end (src : List Char) : SamePlace src src.length (unifyBreaks src).length :=
  ⟨src, [], (List.append_nil src).symm, keepsBreaks_nil src, rfl, rfl⟩

/-- The position of a place. -/
theorem SamePlace.ofOffset (h : SamePlace src a a') :
    Position.ofOffset (unifyBreaks src) a' = Position.ofOffset src a := by
  obtain ⟨u, v, rfl, hkeeps, rfl, rfl⟩ := h
  obtain ⟨ls, l, -, -, hu, -⟩ := lines_append hkeeps
  have hkeeps' : KeepsBreaks (unifyBreaks u) (unifyBreaks v) :=
    keepsBreaks_of_last (fun h => not_mem_unifyBreaks u (List.mem_of_getLast? h)) _
  rw [unifyBreaks_append hkeeps]
  exact (ofOffset_append hkeeps' ((lines_unifyBreaks u).trans hu) 0).trans
    (ofOffset_append hkeeps hu 0).symm

/-- Two places, one not before the other, cut the text in three. -/
theorem SamePlace.between (ha : SamePlace src a a') (hb : SamePlace src b b') (h : a ≤ b) :
    ∃ u w v, src = u ++ (w ++ v) ∧
      unifyBreaks src = unifyBreaks u ++ (unifyBreaks w ++ unifyBreaks v) ∧
      a = u.length ∧ b = u.length + w.length ∧ a' = (unifyBreaks u).length ∧
      b' = (unifyBreaks u).length + (unifyBreaks w).length := by
  obtain ⟨u, v', hsrc, hu, rfl, rfl⟩ := ha
  obtain ⟨x, v, rfl, hx, rfl, rfl⟩ := hb
  obtain ⟨w, rfl⟩ : ∃ w, x = u ++ w := by
    obtain ⟨w, hw⟩ := List.prefix_of_prefix_length_le (List.prefix_append u v')
      (hsrc ▸ List.prefix_append x v) (by omega)
    exact ⟨w, hw.symm⟩
  rw [List.append_assoc] at hsrc ⊢
  obtain rfl := List.append_cancel_left hsrc
  refine ⟨u, w, v, rfl, ?_, rfl, by simp, rfl, ?_⟩
  · rw [unifyBreaks_append hu, unifyBreaks_append hx.right]
  · rw [unifyBreaks_append hu.left, List.length_append, Int.natCast_add]

/-- Places keep their order. -/
theorem SamePlace.le_iff (ha : SamePlace src a a') (hb : SamePlace src b b') :
    a ≤ b ↔ a' ≤ b' := by
  refine ⟨fun h => ?_, fun h => Int.not_lt.mp fun hlt => ?_⟩
  · obtain ⟨u, w, v, -, -, -, -, rfl, rfl⟩ := ha.between hb h
    omega
  · obtain ⟨u, w, v, -, -, rfl, rfl, rfl, rfl⟩ := hb.between ha (Int.le_of_lt hlt)
    have hw : w ≠ [] := by
      rintro rfl
      simp at hlt
    have := List.length_pos_iff.mpr (unifyBreaks_ne_nil hw)
    omega

theorem SamePlace.eq_iff (ha : SamePlace src a a') (hb : SamePlace src b b') :
    a = b ↔ a' = b' := by
  have hle := ha.le_iff hb
  have hge := hb.le_iff ha
  omega

theorem SamePlace.max (ha : SamePlace src a a') (hb : SamePlace src b b') :
    SamePlace src (Max.max a b) (Max.max a' b') := by
  have hle := ha.le_iff hb
  by_cases h : a ≤ b
  · rwa [Int.max_eq_right h, Int.max_eq_right (hle.mp h)]
  · rwa [Int.max_eq_left (by omega), Int.max_eq_left (by omega)]

/-! ## Spans -/

/-- The two spans are the same part of the text. -/
structure Span.Same (src : List Char) (x y : Span) : Prop where
  lo : SamePlace src x.lo y.lo
  hi : SamePlace src x.hi y.hi

theorem Span.same_append (hu : KeepsBreaks u (w ++ v)) (hw : w ≠ []) (hwv : KeepsBreaks w v) :
    (Span.mk u.length (u.length + w.length : Nat)).Same (u ++ (w ++ v))
      ⟨(unifyBreaks u).length, ((unifyBreaks u).length + (unifyBreaks w).length : Nat)⟩ := by
  refine ⟨⟨u, w ++ v, rfl, hu, rfl, rfl⟩, u ++ w, v, (List.append_assoc ..).symm,
    hwv.append hw u, ?_, ?_⟩
  · rw [List.length_append]
  · rw [unifyBreaks_append hu.left, List.length_append]

theorem Span.slice_append (u w v : List Char) :
    (Span.mk u.length (u.length + w.length)).slice (u ++ (w ++ v)) = w := by
  have htoNat : ((u.length : Int) + w.length).toNat = u.length + w.length := by omega
  rw [slice, htoNat, Int.toNat_natCast, List.take_length_add_append, List.drop_left,
    List.take_left]

theorem Span.slice_of_le {x : Span} (h : x.hi ≤ x.lo) (src : List Char) : x.slice src = [] := by
  rw [slice, List.drop_eq_nil_iff, List.length_take]
  omega

/-- The text of a span. -/
theorem Span.Same.slice {x y : Span} (h : x.Same src y) :
    y.slice (unifyBreaks src) = unifyBreaks (x.slice src) := by
  obtain ⟨lo, hi⟩ := x
  obtain ⟨lo', hi'⟩ := y
  obtain ⟨hlo, hhi⟩ := h
  rcases Int.le_total lo hi with hle | hle
  · obtain ⟨u, w, v, rfl, hsrc, rfl, rfl, rfl, rfl⟩ := hlo.between hhi hle
    rw [hsrc, Span.slice_append, Span.slice_append]
  · have hle' : hi' ≤ lo' := (hhi.le_iff hlo).mp hle
    rw [slice_of_le (x := ⟨lo, hi⟩) hle, slice_of_le (x := ⟨lo', hi'⟩) hle']; rfl

theorem Span.Same.reach {x y x' y' : Span} (h : x.Same src y) (h' : x'.Same src y') :
    (x.reach x'.hi).Same src (y.reach y'.hi) := ⟨h.lo, h.hi.max h'.hi⟩

end ScripCheck
