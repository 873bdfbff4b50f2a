import ScripCheck.Editor.Range
import ScripCheck.Proofs.Source.LineStart

/-!
# Lines of a document and lines of a source text

A document has a line break wherever its source text has one, and at some other characters too.

* `isForeignBreak`: these characters.
* `documentLines_split`: the lines of a document before the line of an offset, and from there on.
* `documentLine_eq`: without foreign breaks before it, the line of an offset has the same number in
  the document.
* `units_take_headLine`: the first line of a document holds all that stands before an offset exactly
  if there is no foreign break in front of the last of these characters.
-/

namespace ScripCheck.Editor

variable {e : Encoding} {src cs : List Char} {c : Char} {n : Nat}

/-! ## Units -/

theorem Encoding.width_pos (e : Encoding) (c : Char) : 0 < e.width c := by
  cases e with
  | utf8 => exact c.utf8Size_pos
  | utf16 => simp only [width]; split <;> decide
  | utf32 => exact Nat.one_pos

@[simp] theorem Encoding.units_cons (e : Encoding) (c : Char) (cs : List Char) :
    e.units (c :: cs) = e.width c + e.units cs := rfl

theorem Encoding.units_eq_zero : e.units cs = 0 ↔ cs = [] := by
  cases cs with
  | nil => simp
  | cons c cs =>
    have hc := e.width_pos c
    simp only [units_cons, List.cons_ne_nil, iff_false]
    omega

/-! ## Line breaks -/

/-- A character that ends a line of a document, but no line of its source text. -/
def isForeignBreak (c : Char) : Bool := isLineBreak c && c != '\n' && c != '\r'

/-- No character of a text ends a line of a document only. -/
def NoForeignBreak (cs : List Char) : Prop := ∀ c ∈ cs, isForeignBreak c = false

theorem endsDocumentLine_of_endsLine (h : endsLine c cs = true) : endsDocumentLine c cs = true := by
  have hbreak : c = '\n' ∨ c = '\r' ∧ cs.head? ≠ some '\n' := by simpa [endsLine] using h
  rcases hbreak with rfl | ⟨rfl, hhead⟩
  · rfl
  · simpa [endsDocumentLine, isLineBreak] using hhead

/-- Where no line of the source text ends, only a foreign break ends a line of the document. -/
theorem endsDocumentLine_eq (h : ¬ endsLine c cs = true) :
    endsDocumentLine c cs = isForeignBreak c := by
  have hbreak : c ≠ '\n' ∧ (c = '\r' → cs.head? = some '\n') := by simpa [endsLine] using h
  have hne : (c == '\n') = false := beq_false_of_ne hbreak.1
  unfold endsDocumentLine isForeignBreak
  by_cases hc : c = '\r'
  · simp [hc, hbreak.2 hc]
  · have hnr : (c == '\r') = false := beq_false_of_ne hc
    simp [hnr, hne, bne]

theorem documentLines_cons (h : endsDocumentLine c cs = true) :
    documentLines (c :: cs) = [c] :: documentLines cs := by
  rw [documentLines, if_pos h]

/-- The first line of a document, empty if there is none. -/
def headLine (src : List Char) : List Char := (documentLines src).head?.getD []

theorem documentLines_cons_of_not (h : ¬ endsDocumentLine c cs = true) :
    documentLines (c :: cs) = (c :: headLine cs) :: (documentLines cs).tail := by
  rw [documentLines, if_neg h, headLine]
  cases documentLines cs <;> rfl

/-! ## The line of an offset -/

theorem noForeignBreak_cons :
    NoForeignBreak (c :: cs) ↔ isForeignBreak c = false ∧ NoForeignBreak cs := by
  simp [NoForeignBreak]

theorem noForeignBreak_dropLast_cons : NoForeignBreak (c :: cs).dropLast ↔
    cs = [] ∨ isForeignBreak c = false ∧ NoForeignBreak cs.dropLast := by
  cases cs with
  | nil => simp [NoForeignBreak]
  | cons d cs => rw [List.dropLast_cons_cons, noForeignBreak_cons]; simp

/-- The lines of a document before the line of an offset and the lines from there on. There are at
least as many before it as line breaks in the source text, and no more if none is foreign. -/
theorem documentLines_split (src : List Char) (n : Nat) :
    ∃ ls, documentLines src = ls ++ documentLines (src.drop (lineStart src n)) ∧
      (breaksUpTo src n).length ≤ ls.length ∧
      (NoForeignBreak (src.take (lineStart src n)) → ls.length = (breaksUpTo src n).length) := by
  induction src generalizing n with
  | nil => exact ⟨[], by simp, by simp, by simp⟩
  | cons c cs ih =>
    cases n with
    | zero => exact ⟨[], by simp, by simp, by simp⟩
    | succ n =>
      by_cases hmoved : endsLine c cs = true ∨ breaksUpTo cs n ≠ []
      · obtain ⟨ls, hls, hle, heq⟩ := ih n
        rw [lineStart_cons hmoved, List.drop_succ_cons, List.take_succ_cons, noForeignBreak_cons,
          breaksUpTo_cons, List.length_append, List.length_map]
        by_cases hend : endsDocumentLine c cs = true
        · refine ⟨[c] :: ls, by rw [documentLines_cons hend, hls]; rfl, ?_, fun ⟨hc, hcs⟩ => ?_⟩
          · rw [List.length_cons]
            split
            · rw [List.length_singleton]; omega
            · rw [List.length_nil]; omega
          · -- the break is not foreign, so the source text has it too
            have hline : endsLine c cs = true := by
              refine Decidable.not_not.mp fun hline => ?_
              rw [endsDocumentLine_eq hline, hc] at hend
              exact Bool.false_ne_true hend
            rw [if_pos hline, List.length_cons, heq hcs, List.length_singleton, Nat.add_comm]
        · have hline : ¬ endsLine c cs = true := mt endsDocumentLine_of_endsLine hend
          have hpos : 0 < (breaksUpTo cs n).length :=
            List.length_pos_iff.mpr (hmoved.resolve_left hline)
          obtain ⟨l, ls, rfl⟩ := List.exists_cons_of_length_pos (Nat.lt_of_lt_of_le hpos hle)
          rw [documentLines_cons_of_not hend, hls, if_neg hline, List.length_nil, Nat.zero_add]
          exact ⟨(c :: headLine cs) :: ls, rfl, hle, fun h => heq h.2⟩
      · rw [not_or, Decidable.not_not] at hmoved
        have hnil : breaksUpTo (c :: cs) (n + 1) = [] := by simp [breaksUpTo_cons, hmoved]
        exact ⟨[], by simp [lineStart_of_nil hnil], by simp [hnil], by simp [hnil]⟩

/-- No line break is completed on the line of an offset before it. -/
theorem breaksUpTo_drop (src : List Char) (n : Nat) :
    breaksUpTo (src.drop (lineStart src n)) (n - lineStart src n) = [] := by
  induction src generalizing n with
  | nil => simp
  | cons c cs ih =>
    cases n with
    | zero => simp
    | succ n =>
      by_cases hmoved : endsLine c cs = true ∨ breaksUpTo cs n ≠ []
      · rw [lineStart_cons hmoved, List.drop_succ_cons, Nat.add_sub_add_right]
        exact ih n
      · rw [not_or, Decidable.not_not] at hmoved
        have hnil : breaksUpTo (c :: cs) (n + 1) = [] := by simp [breaksUpTo_cons, hmoved]
        rw [lineStart_of_nil hnil]
        exact hnil

/-- The first line of a document holds all that stands before an offset on the first line of the
source text, if there is no foreign break in front of the last of these characters, and otherwise
it does not. -/
theorem units_take_headLine (e : Encoding) (h : breaksUpTo src n = []) :
    e.units ((headLine src).take (src.take n).length) = e.units (src.take n) ↔
      NoForeignBreak (src.take n).dropLast := by
  induction src generalizing n with
  | nil => simp [headLine, documentLines, NoForeignBreak]
  | cons c cs ih =>
    cases n with
    | zero => simp [NoForeignBreak]
    | succ n =>
      obtain ⟨hline, hcs⟩ : ¬ endsLine c cs = true ∧ breaksUpTo cs n = [] := by
        simpa [breaksUpTo_cons] using h
      specialize ih hcs
      rw [List.take_succ_cons, List.length_cons, Encoding.units_cons]
      by_cases hend : endsDocumentLine c cs = true
      · have hforeign : isForeignBreak c = true := by rwa [← endsDocumentLine_eq hline]
        have hhead : headLine (c :: cs) = [c] := by rw [headLine, documentLines_cons hend]; rfl
        rw [hhead, noForeignBreak_dropLast_cons, hforeign, List.take_succ_cons, List.take_nil,
          Encoding.units_cons, Encoding.units_nil, Nat.add_left_cancel_iff, eq_comm,
          Encoding.units_eq_zero]
        simp
      · have hforeign : isForeignBreak c = false := by
          rw [← endsDocumentLine_eq hline]; exact Bool.eq_false_iff.mpr hend
        have hhead : headLine (c :: cs) = c :: headLine cs := by
          rw [headLine, documentLines_cons_of_not hend]; rfl
        rw [hhead, List.take_succ_cons, Encoding.units_cons, Nat.add_left_cancel_iff, ih,
          noForeignBreak_dropLast_cons]
        refine ⟨fun h => .inr ⟨hforeign, h⟩, ?_⟩
        rintro (hnil | ⟨-, h⟩)
        · rw [hnil]; exact nofun
        · exact h

end ScripCheck.Editor
