import ScripCheck.Diagnostic.Basic
import ScripCheck.Proofs.Token.Unified

/-!
# Diagnostics with unified line breaks

* `TextUnified`: a text and the same text with unified line breaks, also where more text follows.
* `Diagnostic.Unified`: the same diagnostic of a text and of the text with unified line breaks.
* `Diagnostic.Unified.render`, `Batch.render_unified`: what is shown is the same, up to the line
  breaks inside of messages.
-/

namespace ScripCheck

/-! ## Texts -/

/-- The text `s'` is the text `s` with unified line breaks, whatever follows the two. -/
structure TextUnified (s s' : String) : Prop where
  text : s' = unifiedText s
  last : s.toList.getLast? ≠ some '\r'

section Texts

variable {s s' t t' : String}

theorem textUnified_self (h : '\r' ∉ s.toList) : TextUnified s s :=
  ⟨(unifiedText_of_notMem h).symm, fun hlast => h (List.mem_of_getLast? hlast)⟩

theorem TextUnified.append (h : TextUnified s s') (h' : TextUnified t t') :
    TextUnified (s ++ t) (s' ++ t') where
  text := by
    rw [h.text, h'.text, unifiedText, unifiedText, unifiedText, String.toList_append,
      unifyBreaks_append (keepsBreaks_of_last h.last _), String.ofList_append]
  last := by
    rw [String.toList_append, List.getLast?_append]
    have hlast := h'.last
    cases ht : t.toList.getLast? with
    | none => exact h.last
    | some c => rwa [ht] at hlast

/-- Before a backquote any text may stand. -/
theorem TextUnified.backquoted (h : TextUnified s s') (t : String) :
    TextUnified (s ++ t ++ "`") (s' ++ unifiedText t ++ "`") := by
  rw [String.append_assoc, String.append_assoc]
  refine h.append ⟨?_, by simp⟩
  rw [unifiedText, unifiedText, String.toList_append,
    unifyBreaks_append (keepsBreaks_of_head _ (by decide)), String.ofList_append]
  rfl

theorem TextUnified.intercalate {ss ss' : List String} (h : TextUnified s s')
    (h' : List.Forall₂ TextUnified ss ss') :
    TextUnified (s.intercalate ss) (s'.intercalate ss') := by
  induction h' with
  | nil => simpa only [String.intercalate_nil] using textUnified_self (s := "") (by decide)
  | cons hfirst hrest ih =>
    cases hrest with
    | nil => simpa only [String.intercalate_singleton] using hfirst
    | cons _ _ =>
      rw [String.intercalate_cons_cons, String.intercalate_cons_cons]
      exact (hfirst.append h).append ih

theorem not_mem_repeated {c d : Char} (h : d ≠ c) (n : Nat) : d ∉ (repeated c n).toList := by
  rw [repeated, String.toList_ofList]
  exact fun hd => h (List.eq_of_mem_replicate hd)

theorem not_mem_toDigits (n : Nat) : '\r' ∉ Nat.toDigits 10 n := fun h =>
  absurd (Nat.isDigit_of_mem_toDigits (by decide) (by decide) h) (by decide)

theorem textUnified_kinds (kinds : List Kind) :
    TextUnified (Kind.describe kinds) (Kind.describe kinds) := by
  have hdisplay (k : Kind) : TextUnified k.display k.display :=
    textUnified_self (by cases k <;> decide)
  exact (textUnified_self (by decide)).intercalate
    (List.forall₂_map_left_iff.mpr (List.forall₂_map_right_iff.mpr
      (List.forall₂_same.mpr fun k _ => hdisplay k)))

end Texts

/-! ## One diagnostic -/

/-- The same diagnostic of a text and of the text with unified line breaks. -/
structure Diagnostic.Unified (src : List Char) (d d' : Diagnostic) : Prop where
  message : TextUnified d.message d'.message
  place : d.span.Same src d'.span ∨ d.span.LineBreak src d'.span

section Diagnostics

variable {src u v : List Char} {c : Char} {d d' : Diagnostic} {filename : String}

/-- A line break stands behind the last column of its line, and one character of it is marked. -/
theorem Diagnostic.underlineLength_break (hc : isBreak c = true) (hkeeps : KeepsBreaks u (c :: v))
    (hspan : d.span = ⟨u.length, u.length + 1⟩) : d.underlineLength (u ++ c :: v) = 1 := by
  obtain ⟨ls, l, -, -, hu, -⟩ := lines_append hkeeps
  obtain ⟨ms, hms⟩ : ∃ ms, lines (c :: v) = [] :: ms := by
    rcases endsLine_or_pair hc v with hend | ⟨rfl, v, rfl⟩
    · exact ⟨lines v, by rw [lines, if_pos hend]⟩
    · exact ⟨lines v, rfl⟩
  have hstart : d.start (u ++ c :: v) = ⟨ls.length + 1, l.length + 1⟩ := by
    rw [start, hspan]
    exact ofOffset_append hkeeps hu 0
  have hstop : d.stop (u ++ c :: v) = (Position.mk (ls.length + 1) (l.length + 1)).step c v := by
    rw [stop, hspan]
    exact ofOffset_append hkeeps hu 1
  have hline : lineText (u ++ c :: v) ((ls.length + 1 : Nat) : Int) = l := by
    rw [lineText_append hkeeps hu hms, List.append_nil]
  rw [underlineLength, hstart, hstop, Position.step]
  dsimp only
  rw [hline]
  split <;> simp

theorem Diagnostic.Unified.start (h : d.Unified src d') :
    d'.start (unifyBreaks src) = d.start src := by
  rw [Diagnostic.start, Diagnostic.start]
  rcases h.place with hsame | ⟨u, c, v, hsrc, -, hkeeps, hspan, hspan'⟩
  · exact hsame.lo.ofOffset
  · rw [hspan, hspan']
    exact SamePlace.ofOffset ⟨u, c :: v, hsrc, hkeeps, rfl, rfl⟩

theorem Diagnostic.Unified.underlineLength (h : d.Unified src d') :
    d'.underlineLength (unifyBreaks src) = d.underlineLength src := by
  rcases h.place with hsame | ⟨u, c, v, rfl, hc, hkeeps, hspan, hspan'⟩
  · rw [Diagnostic.underlineLength, Diagnostic.underlineLength, h.start, Diagnostic.stop,
      hsame.hi.ofOffset]
    simp only [Diagnostic.stop, lineText_unifyBreaks]
    rfl
  · obtain ⟨w, hw⟩ := unifyBreaks_of_isBreak hc v
    have hkeeps' : KeepsBreaks (unifyBreaks u) ('\n' :: w) :=
      keepsBreaks_of_last (fun h => not_mem_unifyBreaks u (List.mem_of_getLast? h)) _
    rw [unifyBreaks_append hkeeps, hw, underlineLength_break (by decide) hkeeps' hspan',
      underlineLength_break hc hkeeps hspan]

theorem Diagnostic.Unified.render (h : d.Unified src d') (hfilename : '\r' ∉ filename.toList) :
    TextUnified (d.render src filename) (d'.render (unifyBreaks src) filename) := by
  have hspace (n : Nat) : '\r' ∉ (repeated ' ' n).toList := not_mem_repeated (by decide) n
  have hmark (n : Nat) : '\r' ∉ (repeated '~' n).toList := not_mem_repeated (by decide) n
  unfold Diagnostic.render
  simp only [h.start, h.underlineLength, lineText_unifyBreaks, String.append_assoc]
  -- behind the message the two are equal, and have no line breaks but `\n`
  refine (textUnified_self (by decide)).append (h.message.append (textUnified_self ?_))
  simp [hfilename, hspace, hmark, not_mem_lineText, not_mem_toDigits]

/-! ## All diagnostics -/

/-- What is shown of the diagnostics of the two texts is the same, up to the line breaks. -/
theorem Batch.render_unified {ds ds' : List Diagnostic} {own : String}
    (h : List.Forall₂ (Diagnostic.Unified src) ds ds') (hown : '\r' ∉ own.toList)
    (hfilename : '\r' ∉ filename.toList) (limit : Int) :
    (Batch.mk ds' own).render (unifyBreaks src) filename limit =
      unifiedText ((Batch.mk ds own).render src filename limit) := by
  have hname : '\r' ∉ (if filename.isEmpty then own else filename).toList := by
    split <;> assumption
  have hshown : List.Forall₂ (Diagnostic.Unified src) ((Batch.mk ds own).shown limit)
      ((Batch.mk ds' own).shown limit) := by
    unfold Batch.shown
    split
    · exact List.forall₂_take _ h
    · exact h
  refine TextUnified.text ?_
  unfold Batch.render
  dsimp only
  rw [← h.length_eq, ← hshown.length_eq]
  refine (textUnified_self (by decide)).intercalate (List.rel_append ?_ ?_)
  · rw [List.forall₂_map_left_iff, List.forall₂_map_right_iff]
    exact hshown.imp fun _ _ hd => hd.render hname
  · split
    · exact .nil
    · exact .cons (textUnified_self (by simp [not_mem_toDigits])) .nil

end Diagnostics

end ScripCheck
