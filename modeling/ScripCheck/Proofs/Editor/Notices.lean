import ScripCheck.Editor.Workspace
import ScripCheck.Proofs.Check.Diagnosed
import ScripCheck.Proofs.Editor.Lines

/-!
# Where notices are shown

* `Place.ofOffset`, `Notice.exact`: the place of an offset, and the notice that shows a diagnostic
  at the places of its span.
* `ShownAt`, `shownAt`: where an editor is told that an offset is. The line is always right, and the
  character unless foreign breaks stand before the offset.
* `notices_shown`: the notices about a text are those of its diagnostics.
-/

namespace ScripCheck.Editor

variable {e : Encoding} {src : List Char} {n : Nat}

/-- The place of an offset: the line breaks before it, and the units of what stands before it on its
line. -/
def Place.ofOffset (e : Encoding) (src : List Char) (o : Int) : Place :=
  ⟨(breaksUpTo src o.toNat).length, e.units (lineSoFar src o.toNat)⟩

/-- The notice that shows a diagnostic at the places of its span. -/
def Notice.exact (e : Encoding) (src : List Char) (d : Diagnostic) : Notice :=
  ⟨.ofOffset e src d.span.lo, .ofOffset e src d.span.hi, d.message⟩

/-- The diagnostics with which the check of a text fails. -/
def reported (src : List Char) : List Diagnostic :=
  match check src with
  | .ok _ => []
  | .error f => f.diagnostics

/-! ## One offset -/

/-- Where an editor is told that an offset is: on the right line, after as many characters of the
document's line with its number as stand before the offset. If the lines before it have no foreign
break, this is the place of the offset exactly if there is none in front of the last character
before it. -/
structure ShownAt (e : Encoding) (src : List Char) (o : Int) (p : Place) : Prop where
  line : p.line = (breaksUpTo src o.toNat).length
  character : p.character =
    e.units (((documentLines src)[p.line]?.getD []).take (lineSoFar src o.toNat).length)
  exact_iff : NoForeignBreak (src.take (lineStart src o.toNat)) →
    (p = .ofOffset e src o ↔ NoForeignBreak (lineSoFar src o.toNat).dropLast)

theorem place_eq (e : Encoding) (src : List Char) (o : Int) :
    Place.ofPosition e (documentLines src) (.ofOffset src o) =
      ⟨(breaksUpTo src o.toNat).length,
        e.units (((documentLines src)[(breaksUpTo src o.toNat).length]?.getD []).take
          (lineSoFar src o.toNat).length)⟩ := by
  rw [ofOffset_eq, Place.ofPosition]
  simp only [Nat.add_sub_cancel]
  cases hline : (documentLines src)[(breaksUpTo src o.toNat).length]? with
  | some l => rfl
  | none =>
    obtain ⟨ls, hls, hle, -⟩ := documentLines_split src o.toNat
    have hlength := List.getElem?_eq_none_iff.mp hline
    rw [hls, List.length_append] at hlength ⊢
    simp only [Option.getD_none, List.take_nil, Encoding.units_nil, Place.mk.injEq, and_true]
    omega

/-- The line of an offset in the document, if no foreign break stands before it. -/
theorem getElem?_documentLines (h : NoForeignBreak (src.take (lineStart src n))) :
    (documentLines src)[(breaksUpTo src n).length]?.getD [] =
      headLine (src.drop (lineStart src n)) := by
  obtain ⟨ls, hls, -, heq⟩ := documentLines_split src n
  rw [hls, ← heq h, List.getElem?_append_right (Nat.le_refl _), Nat.sub_self, headLine,
    List.head?_eq_getElem?]

theorem shownAt (e : Encoding) (src : List Char) (o : Int) :
    ShownAt e src o (Place.ofPosition e (documentLines src) (.ofOffset src o)) := by
  rw [place_eq]
  refine ⟨rfl, rfl, fun h => ?_⟩
  have hsofar : lineSoFar src o.toNat =
      (src.drop (lineStart src o.toNat)).take (o.toNat - lineStart src o.toNat) := by
    rw [lineSoFar, List.drop_take]
  rw [Place.ofOffset, Place.mk.injEq, getElem?_documentLines h, hsofar,
    units_take_headLine e (breaksUpTo_drop src o.toNat)]
  simp

/-- A document without foreign breaks shows each offset at its place. -/
theorem ofPosition_eq_ofOffset (e : Encoding) (h : NoForeignBreak src) (o : Int) :
    Place.ofPosition e (documentLines src) (.ofOffset src o) = .ofOffset e src o := by
  refine ((shownAt e src o).exact_iff fun c hc => h c (List.mem_of_mem_take hc)).mpr fun c hc => ?_
  exact h c (List.mem_of_mem_take (List.mem_of_mem_drop ((List.dropLast_subset _) hc)))

/-! ## All diagnostics -/

theorem diagnose_eq (src : List Char) : diagnose src = reported src := by
  unfold diagnose reported check
  cases lex src with
  | error es => rfl
  | ok ts =>
    dsimp only
    unfold checkTokens
    cases parse src ts with
    | error f => rfl
    | ok p =>
      dsimp only
      unfold Parsed.program?
      cases p.errors <;> rfl

theorem reported_eq_nil : reported src = [] ↔ ∃ p, check src = .ok p := by
  unfold reported
  cases hcheck : check src with
  | ok p => simp
  | error f => simpa using diagnostics_ne_nil hcheck

/-- The notices about a text are those of its diagnostics, one for each and in their order, and
there are none exactly if it is a program. Their places are those of the diagnostics if the text
has no foreign breaks; the lines are right in any case. -/
theorem notices_shown (e : Encoding) (src : List Char) :
    List.Forall₂ (fun n d => n.message = d.message ∧ ShownAt e src d.span.lo n.start ∧
        ShownAt e src d.span.hi n.stop) (notices e src) (reported src) ∧
      (notices e src = [] ↔ ∃ p, check src = .ok p) ∧
      (NoForeignBreak src → notices e src = (reported src).map (Notice.exact e src)) := by
  unfold notices
  rw [diagnose_eq]
  refine ⟨?_, ?_, fun h => ?_⟩
  · rw [List.forall₂_map_left_iff, List.forall₂_same]
    exact fun d _ => ⟨rfl, shownAt e src _, shownAt e src _⟩
  · rw [List.map_eq_nil_iff, reported_eq_nil]
  · refine List.map_congr_left fun d _ => ?_
    simp only [Notice.ofDiagnostic, Notice.exact, Diagnostic.start, Diagnostic.stop,
      ofPosition_eq_ofOffset e h]

/-- Behind a string with a foreign break in it, a character is shown too far to the left. -/
theorem notices_foreignBreak :
    notices .utf16 "\"\u2028\" @".toList ≠
      (reported "\"\u2028\" @".toList).map (Notice.exact .utf16 "\"\u2028\" @".toList) := by
  decide +kernel

end ScripCheck.Editor
