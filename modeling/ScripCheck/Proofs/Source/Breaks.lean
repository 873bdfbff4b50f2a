import ScripCheck.Source.Line

/-!
# Unified line breaks

* `KeepsBreaks`: a text is not cut between the `\r` and the `\n` of one line break.
* `unifyBreaks_append`, `lines_append`: line breaks and lines of a text in two parts.
* `lines_unifyBreaks`: a text has the same lines with its line breaks unified.
-/

namespace ScripCheck

/-- The cut between two texts does not part a line break. -/
def KeepsBreaks (u v : List Char) : Prop := u.getLast? = some '\r' → v.head? ≠ some '\n'

section Breaks

variable {u v w src : List Char} {c : Char}

theorem keepsBreaks_nil (u : List Char) : KeepsBreaks u [] := fun _ => by simp

/-- Behind another character than `\r` a text may be cut. -/
theorem keepsBreaks_of_last (h : u.getLast? ≠ some '\r') (v : List Char) : KeepsBreaks u v :=
  fun hu => absurd hu h

theorem keepsBreaks_of_head (u : List Char) (h : v.head? ≠ some '\n') : KeepsBreaks u v :=
  fun _ => h

theorem KeepsBreaks.left (h : KeepsBreaks u (w ++ v)) : KeepsBreaks u w := by
  cases w with
  | nil => exact keepsBreaks_nil u
  | cons c w => exact h

theorem KeepsBreaks.right (h : KeepsBreaks (u ++ w) v) : KeepsBreaks w v :=
  fun hw => h (by rw [List.getLast?_append, hw]; rfl)

theorem KeepsBreaks.append (h : KeepsBreaks w v) (hw : w ≠ []) (u : List Char) :
    KeepsBreaks (u ++ w) v := by
  intro hlast
  rw [List.getLast?_append, List.getLast?_eq_some_getLast hw] at hlast
  exact h ((List.getLast?_eq_some_getLast hw).trans hlast)

theorem KeepsBreaks.of_cons (h : KeepsBreaks (c :: u) v) : KeepsBreaks u v :=
  KeepsBreaks.right (u := [c]) h

theorem endsLine_iff : endsLine c v = true ↔ c = '\n' ∨ c = '\r' ∧ v.head? ≠ some '\n' := by
  simp [endsLine]

/-- What follows a text that is not cut inside a line break does not matter to its line breaks. -/
theorem KeepsBreaks.endsLine (h : KeepsBreaks (c :: u) v) : endsLine c (u ++ v) = endsLine c u := by
  rw [Bool.eq_iff_iff, endsLine_iff, endsLine_iff]
  refine or_congr_right (and_congr_right fun hc => ?_)
  cases u with
  | cons d u => exact Iff.rfl
  | nil => exact ⟨fun _ => by simp, fun _ => h (by simp [hc])⟩

/-! ## The text with its line breaks unified -/

/-- A text with each line break written as `\n`. -/
def unifiedText (s : String) : String := String.ofList (unifyBreaks s.toList)

theorem unifyBreaks_cons_of_ne (h : c ≠ '\r') (cs : List Char) :
    unifyBreaks (c :: cs) = c :: unifyBreaks cs := by
  by_cases hc : c = '\n'
  · simp [unifyBreaks, endsLine, hc]
  · simp [unifyBreaks, endsLine, hc, h]

/-- A line break of two characters. -/
theorem unifyBreaks_pair (cs : List Char) :
    unifyBreaks ('\r' :: '\n' :: cs) = '\n' :: unifyBreaks cs := by
  simp [unifyBreaks, endsLine]

/-- A line break at the start of a text. -/
theorem unifyBreaks_break (h : endsLine c v = true) :
    unifyBreaks (c :: v) = '\n' :: unifyBreaks v := by
  rw [unifyBreaks, if_pos h]

theorem unifyBreaks_append (h : KeepsBreaks u v) :
    unifyBreaks (u ++ v) = unifyBreaks u ++ unifyBreaks v := by
  induction u with
  | nil => rfl
  | cons c u ih =>
    rw [List.cons_append, unifyBreaks, unifyBreaks, h.endsLine, ih h.of_cons]
    split
    · rfl
    · split <;> rfl

theorem unifyBreaks_of_notMem (h : '\r' ∉ u) : unifyBreaks u = u := by
  induction u with
  | nil => rfl
  | cons c u ih =>
    rw [List.mem_cons, not_or] at h
    rw [unifyBreaks_cons_of_ne (Ne.symm h.1), ih h.2]

theorem unifiedText_of_notMem {s : String} (h : '\r' ∉ s.toList) : unifiedText s = s := by
  rw [unifiedText, unifyBreaks_of_notMem h, String.ofList_toList]

theorem mem_of_mem_unifyBreaks (h : c ∈ unifyBreaks src) : c = '\n' ∨ c ∈ src := by
  induction src with
  | nil => cases h
  | cons d cs ih =>
    unfold unifyBreaks at h
    split at h
    · rcases List.mem_cons.mp h with h | h
      · exact .inl h
      · exact (ih h).imp_right (List.mem_cons_of_mem d)
    · split at h
      · exact (ih h).imp_right (List.mem_cons_of_mem d)
      · rcases List.mem_cons.mp h with rfl | h
        · exact .inr List.mem_cons_self
        · exact (ih h).imp_right (List.mem_cons_of_mem d)

theorem unifyBreaks_ne_nil (h : src ≠ []) : unifyBreaks src ≠ [] := by
  induction src with
  | nil => exact absurd rfl h
  | cons c cs ih =>
    unfold unifyBreaks
    split
    · exact List.cons_ne_nil _ _
    · next hend =>
      split
      · next hc =>
        -- a `\r` that ends no line has its `\n` behind it
        refine ih fun hnil => hend ?_
        simp [endsLine, hc, hnil]
      · exact List.cons_ne_nil _ _

/-! ## Lines -/

/-- A text has the same lines with its line breaks unified. -/
theorem lines_unifyBreaks (src : List Char) : lines (unifyBreaks src) = lines src := by
  induction src with
  | nil => rfl
  | cons c cs ih =>
    unfold unifyBreaks
    split
    · next h => rw [lines, if_pos (by rfl), lines, if_pos h, ih]
    · next h =>
      split
      · next hc => rw [ih, lines, if_neg h, if_pos hc]
      · next hc =>
        have hbreak : ¬ endsLine c (unifyBreaks cs) = true := by
          simp_all [endsLine]
        rw [lines, if_neg hbreak, if_neg hc, lines, if_neg h, if_neg hc, ih]

theorem not_mem_lines {l : List Char} (h : l ∈ lines src) : '\r' ∉ l := by
  induction src generalizing l with
  | nil => simp_all [lines]
  | cons c cs ih =>
    rw [lines] at h
    split at h
    · rcases List.mem_cons.mp h with rfl | h
      · exact List.not_mem_nil
      · exact ih h
    · split at h
      · exact ih h
      · next hc =>
        obtain ⟨m, ms, hcs⟩ := List.exists_cons_of_ne_nil (lines_ne_nil cs)
        simp only [hcs, List.mem_cons] at h ih
        rcases h with rfl | h
        · rw [List.mem_cons, not_or]
          exact ⟨Ne.symm hc, ih (.inl rfl)⟩
        · exact ih (.inr h)

theorem not_mem_lineText (src : List Char) (n : Int) : '\r' ∉ lineText src n := by
  unfold lineText
  split
  · exact List.not_mem_nil
  · cases h : (lines src)[n.toNat - 1]? with
    | none => exact List.not_mem_nil
    | some l => exact not_mem_lines (List.mem_of_getElem? h)

/-- The last line of the first part goes on in the first line of the second part. -/
theorem lines_append (h : KeepsBreaks u v) : ∃ ls l m ms, lines u = ls ++ [l] ∧
    lines v = m :: ms ∧ lines (u ++ v) = ls ++ (l ++ m) :: ms := by
  obtain ⟨m, ms, hv⟩ := List.exists_cons_of_ne_nil (lines_ne_nil v)
  induction u with
  | nil => exact ⟨[], [], m, ms, rfl, hv, hv⟩
  | cons c u ih =>
    obtain ⟨ls, l, _, _, hu, hv', happend⟩ := ih h.of_cons
    obtain ⟨rfl, rfl⟩ := List.cons.inj (hv.symm.trans hv')
    rw [List.cons_append, lines, lines, h.endsLine]
    split
    · exact ⟨[] :: ls, l, m, ms, by rw [hu]; rfl, hv, by rw [happend]; rfl⟩
    · split
      · exact ⟨ls, l, m, ms, hu, hv, happend⟩
      · rw [hu, happend]
        cases ls with
        | nil => exact ⟨[], c :: l, m, ms, rfl, hv, rfl⟩
        | cons l' ls => exact ⟨(c :: l') :: ls, l, m, ms, rfl, hv, rfl⟩

end Breaks

end ScripCheck
