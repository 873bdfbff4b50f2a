import ScripCheck.Proofs.Diagnostic.Unified
import ScripCheck.Proofs.Source.LineAround

/-!
# Underlines

* `Position.walk_unbroken`, `Position.line_lt_walk`: a walk stays on its line up to a line break.
* `Diagnostic.marked`: the span of a diagnostic as far as it is on its first line.
* `LineAround.start_eq`, ..., `LineAround.marked_eq`: where this line and this part are.
* `LineAround.underlineLength`: the underline is as long as that part, or 1 if there is nothing of
  it.
* `Diagnostic.Underlines`: a shown diagnostic ends in the line and the underline of this part.
  `LineAround.underlines`, `underlines_of_place`: where that holds.
-/

namespace ScripCheck

variable {src u v w x : List Char} {l m : List Char} {n : Nat} {d : Diagnostic}

/-! ## Walks and lines -/

theorem Position.walk_unbroken (p : Position) (h : Unbroken w) (v : List Char) :
    p.walk w.length (w ++ v) = ⟨p.line, p.column + w.length⟩ := by
  induction w generalizing p with
  | nil => rfl
  | cons c w ih =>
    obtain ⟨⟨hr, hn⟩, hw⟩ := unbroken_cons.mp h
    rw [List.length_cons, List.cons_append, walk, step, endsLine_of_ne hr hn, ih _ hw]
    simp only [Bool.false_eq_true, if_false, mk.injEq, true_and]
    omega

/-- A walk through a text with line breaks ends on a later line. -/
theorem Position.line_lt_walk (p : Position) (hw : ¬ Unbroken w) (h : KeepsBreaks w v) :
    p.line < (p.walk w.length (w ++ v)).line := by
  have hwalk := p.walk_append h 0
  rw [Nat.add_zero, walk] at hwalk
  obtain ⟨ls, l, hlines⟩ : ∃ ls l, lines w = ls ++ [l] :=
    ⟨_, _, (List.dropLast_concat_getLast (lines_ne_nil w)).symm⟩
  rw [hwalk, p.walk_lines hlines]
  have hls : ls ≠ [] := by
    rintro rfl
    obtain ⟨w', rfl, hnil⟩ := lines_last hlines
    obtain rfl := hnil rfl
    have hl : l ∈ lines l := (show lines l = [l] from hlines) ▸ List.mem_singleton_self l
    exact hw (unbroken_of_mem_lines hl)
  have := List.length_pos_iff.mpr hls
  dsimp only
  omega

/-- The shorter one of two texts is unbroken, if the other one goes on to the end of its line. -/
theorem unbroken_of_length_le (h : w ++ v = m ++ x) (hm : Unbroken m) (hle : w.length ≤ m.length) :
    Unbroken w := by
  obtain ⟨m', rfl⟩ := List.prefix_of_prefix_length_le (h ▸ List.prefix_append w v)
    (List.prefix_append m x) hle
  exact (List.forall_mem_append.mp hm).1

theorem length_le_of_unbroken (h : w ++ v = m ++ x) (hx : AtLineEnd x) (hw : Unbroken w) :
    w.length ≤ m.length := by
  by_contra hlt
  obtain ⟨w', rfl⟩ := List.prefix_of_prefix_length_le (h ▸ List.prefix_append m x)
    (List.prefix_append w v) (by omega)
  rw [List.append_assoc] at h
  cases w' with
  | nil => simp at hlt
  | cons c w' =>
    obtain ⟨hr, hn⟩ := hw c (by simp)
    have hc : x.head? = some c := by rw [← List.append_cancel_left h]; rfl
    exact absurd (hx c hc) (by simp [hr, hn])

/-! ## The part of a span on its first line -/

namespace Diagnostic

/-- The line on which the span starts. -/
def line (d : Diagnostic) (src : List Char) : List Char := lineText src (d.start src).line

/-- The offset of the start of that line. -/
def lineStart (d : Diagnostic) (src : List Char) : Int := d.span.lo - (d.start src).column + 1

/-- The offset of its end. -/
def lineEnd (d : Diagnostic) (src : List Char) : Int := d.lineStart src + (d.line src).length

/-- The span as far as it is on its first line. -/
def marked (d : Diagnostic) (src : List Char) : Span := ⟨d.span.lo, min d.span.hi (d.lineEnd src)⟩

/-- What is shown of a diagnostic ends in the line on which its span starts, and in an underline of
the length `k` that is below the part of the span on this line. -/
structure Underlines (d : Diagnostic) (src : List Char) (k : Nat) (shown : String) : Prop where
  unbroken : Unbroken (d.line src)
  starts : ∃ s : Nat, d.lineStart src = s ∧ (s = 0 ∨ EndsBreak src s)
  ends : AtLineEnd (src.drop (d.lineEnd src).toNat)
  line : d.line src = (Span.mk (d.lineStart src) (d.lineEnd src)).slice src
  lastLines : ∃ front gutter gutter' : String, gutter.length = gutter'.length ∧
    '\n' ∉ gutter.toList ∧ '\n' ∉ gutter'.toList ∧
    shown = front ++ "\n" ++ gutter ++ " " ++ String.ofList (d.line src) ++ "\n" ++
      gutter' ++ " " ++ repeated ' ' ((d.start src).column - 1) ++ repeated '~' k
  length : (k : Int) = max 1 ((d.marked src).hi - (d.marked src).lo)
  marks : ((d.line src).drop ((d.start src).column - 1)).take k = (d.marked src).slice src

/-- The line above the underline and the underline have gutters of one length. -/
theorem render_lastLines (d : Diagnostic) (src : List Char) (filename : String) :
    ∃ front gutter gutter' : String, gutter.length = gutter'.length ∧
      '\n' ∉ gutter.toList ∧ '\n' ∉ gutter'.toList ∧
      d.render src filename = front ++ "\n" ++ gutter ++ " " ++ String.ofList (d.line src) ++ "\n" ++
        gutter' ++ " " ++ repeated ' ' ((d.start src).column - 1) ++
          repeated '~' (d.underlineLength src) := by
  let number := toString (d.start src).line
  let margin := repeated ' ' (number.length + 1)
  have hnumber : '\n' ∉ number.toList := by
    intro h
    have hdigits : number.toList = Nat.toDigits 10 (d.start src).line := Nat.toList_repr
    rw [hdigits] at h
    exact absurd (Nat.isDigit_of_mem_toDigits (by decide) (by decide) h) (by decide)
  have hmargin : '\n' ∉ margin.toList := not_mem_repeated (by decide) _
  have hlength : margin.length = number.length + 1 := by simp [margin, repeated]
  refine ⟨"error: " ++ d.message ++ "\n" ++ margin ++ "--> " ++ filename ++ ":" ++ number ++ ":" ++
    toString (d.start src).column ++ "\n" ++ margin ++ "|", number ++ " |", margin ++ "|", ?_, ?_,
    ?_, ?_⟩
  · rw [String.length_append, String.length_append, hlength]; rfl
  · simpa using hnumber
  · simpa using hmargin
  · unfold render
    simp only [String.append_assoc]
    rfl

end Diagnostic

section Marks

variable {filename : String} {s : List Char}

/-! ## A diagnostic at a cut of the text -/

theorem LineAround.start_eq (h : LineAround u v n l m) (hlo : d.span.lo = u.length) :
    d.start (u ++ v) = ⟨n + 1, l.length + 1⟩ := by
  rw [Diagnostic.start, hlo]
  exact h.position

theorem LineAround.line_eq (h : LineAround u v n l m) (hlo : d.span.lo = u.length) :
    d.line (u ++ v) = l ++ m := by
  rw [Diagnostic.line, h.start_eq hlo]
  exact h.text

theorem LineAround.lineStart_eq (h : LineAround (s ++ l) v n l m)
    (hlo : d.span.lo = (s ++ l).length) : d.lineStart ((s ++ l) ++ v) = s.length := by
  rw [Diagnostic.lineStart, h.start_eq hlo, hlo, List.length_append]
  push_cast
  omega

theorem LineAround.lineEnd_eq (h : LineAround (s ++ l) v n l m)
    (hlo : d.span.lo = (s ++ l).length) :
    d.lineEnd ((s ++ l) ++ v) = s.length + (l ++ m).length := by
  rw [Diagnostic.lineEnd, h.lineStart_eq hlo, h.line_eq hlo]

theorem LineAround.marked_eq (h : LineAround (s ++ l) (w ++ v) n l m)
    (hspan : d.span = ⟨(s ++ l).length, (s ++ l).length + w.length⟩) :
    d.marked ((s ++ l) ++ (w ++ v)) =
      ⟨(s ++ l).length, (s ++ l).length + (m.take w.length).length⟩ := by
  rw [Diagnostic.marked, h.lineEnd_eq (congrArg Span.lo hspan), hspan]
  simp only [List.length_append, List.length_take, Span.mk.injEq, true_and]
  omega

/-- Where a line break parts the span, or the span is a part of the line, the underline is as long
as what is on the line. -/
theorem LineAround.underlineLength (h : LineAround u (w ++ v) n l m) (hu : KeepsBreaks u (w ++ v))
    (hv : KeepsBreaks w v) (hspan : d.span = ⟨u.length, u.length + w.length⟩) :
    d.underlineLength (u ++ (w ++ v)) = max 1 (min w.length m.length) := by
  obtain ⟨x, hx, hend⟩ := h.behind
  have hm : Unbroken m := (List.forall_mem_append.mp h.unbroken).2
  have hstop : d.stop (u ++ (w ++ v)) =
      (Position.mk (n + 1) (l.length + 1)).walk w.length (w ++ v) := by
    rw [Diagnostic.stop, hspan, ← h.position]
    exact hu.ofOffset_add w.length
  rw [Diagnostic.underlineLength, h.start_eq (congrArg Span.lo hspan)]
  dsimp only
  by_cases hw : Unbroken w
  · have hle := length_le_of_unbroken hx hend hw
    rw [hstop, Position.walk_unbroken _ hw, if_pos rfl, Nat.min_eq_left hle]
    dsimp only
    omega
  · have hlt : m.length < w.length := by
      by_contra hle
      exact hw (unbroken_of_length_le hx hm (by omega))
    have hlater := Position.line_lt_walk ⟨n + 1, l.length + 1⟩ hw hv
    rw [← hstop] at hlater
    rw [if_neg (Nat.ne_of_gt hlater), h.text, List.length_append, Nat.min_eq_right (by omega)]
    omega

/-- An underline as long as what is on the line is below it. An empty part has to be at the end of
its line: elsewhere, the one character of its underline would be below a character that is not in
the span. -/
theorem LineAround.underlines (h : LineAround u (w ++ v) n l m) (hw : w = [] → m = [])
    (hspan : d.span = ⟨u.length, u.length + w.length⟩)
    (hlength : d.underlineLength (u ++ (w ++ v)) = max 1 (min w.length m.length)) :
    d.Underlines (u ++ (w ++ v)) (max 1 (min w.length m.length))
      (d.render (u ++ (w ++ v)) filename) := by
  obtain ⟨s, rfl⟩ := h.before
  obtain ⟨x, hx, hend⟩ := h.behind
  have hlo : d.span.lo = (s ++ l).length := congrArg Span.lo hspan
  have hsrc : (s ++ l) ++ (w ++ v) = s ++ ((l ++ m) ++ x) := by simp [hx]
  refine ⟨h.line_eq hlo ▸ h.unbroken, ?_, ?_, ?_, ?_, ?_, ?_⟩
  · obtain ⟨s', hs', -, hbreak, -⟩ := (onLine_append (s ++ l) (w ++ v)).start
    rw [Diagnostic.lineStart, Diagnostic.start, hlo]
    exact ⟨s', hs'.symm, hbreak⟩
  · have htoNat : (s.length + (l ++ m).length : Int).toNat = (s ++ (l ++ m)).length := by
      simp only [List.length_append]
      omega
    rw [h.lineEnd_eq hlo, hsrc, htoNat, ← List.append_assoc s (l ++ m) x, List.drop_left]
    exact hend
  · rw [h.line_eq hlo, h.lineStart_eq hlo, h.lineEnd_eq hlo, hsrc]
    exact (Span.slice_append s (l ++ m) x).symm
  · rw [← hlength]
    exact d.render_lastLines _ filename
  · rw [h.marked_eq hspan, List.length_take]
    push_cast
    omega
  · rw [h.line_eq hlo, h.start_eq hlo, h.marked_eq hspan, hx]
    have hm : m ++ x = m.take w.length ++ (m.drop w.length ++ x) := by
      rw [← List.append_assoc, List.take_append_drop]
    rw [hm, Span.slice_append, Nat.add_sub_cancel, List.drop_left, List.take_eq_take_iff]
    have hnil : w.length = 0 → m.length = 0 := by simpa using hw
    omega

/-- Two places, one not before the other, part no line break of the text between them. -/
theorem SamePlace.parts {a a' b b' : Int} (ha : SamePlace src a a') (hb : SamePlace src b b')
    (h : a ≤ b) : ∃ u w v, src = u ++ (w ++ v) ∧ KeepsBreaks u (w ++ v) ∧ KeepsBreaks w v ∧
      a = u.length ∧ b = u.length + w.length := by
  obtain ⟨u, w, v, rfl, -, hlo, hhi, -, -⟩ := ha.between hb h
  obtain ⟨u₁, v₁, hsrc₁, hu, hlo₁, -⟩ := ha
  obtain ⟨u₂, v₂, hsrc₂, hw, hhi₂, -⟩ := hb
  obtain ⟨rfl, rfl⟩ := List.append_inj hsrc₁ (by omega)
  rw [← List.append_assoc] at hsrc₂
  obtain ⟨rfl, rfl⟩ := List.append_inj hsrc₂ (by rw [List.length_append]; omega)
  exact ⟨u, w, v, rfl, hu, hw.right, hlo, hhi⟩

/-- A diagnostic about a part of the text that parts no line break, or about the first character of
a line break, is underlined. An empty part is at the end of the text. -/
theorem underlines_of_place {y : Span} (hplace : d.span.Same src y ∨ d.span.LineBreak src y)
    (hle : d.span.lo ≤ d.span.hi) (hempty : d.span.lo = d.span.hi → d.span = .atEnd src)
    (filename : String) : ∃ k, d.Underlines src k (d.render src filename) := by
  rcases hplace with hsame | ⟨u, c, v, rfl, hc, hkeeps, hspan, -⟩
  · obtain ⟨u, w, v, rfl, hu, hv, hlo, hhi⟩ := hsame.lo.parts hsame.hi hle
    have hspan : d.span = ⟨u.length, u.length + w.length⟩ := by rw [← hhi, ← hlo]
    obtain ⟨n, l, m, h⟩ := hu.lineAround
    refine ⟨_, h.underlines (fun hw => ?_) hspan (h.underlineLength hu hv hspan)⟩
    subst hw
    have hend : (u.length : Int) = (u ++ ([] ++ v)).length := by
      rw [← hlo, hempty (by simpa [hlo] using hhi.symm)]; rfl
    rw [List.nil_append, List.length_append] at hend
    obtain rfl : v = [] := List.length_eq_zero_iff.mp (by omega)
    exact h.behind_eq_nil nofun
  · obtain ⟨n, l, m, h⟩ := hkeeps.lineAround
    have hbreak : c = '\r' ∨ c = '\n' := by simpa [isBreak, or_comm] using hc
    obtain rfl := h.behind_eq_nil (by simpa [AtLineEnd] using hbreak)
    exact ⟨_, LineAround.underlines (w := [c]) h (fun _ => rfl) hspan
      (Diagnostic.underlineLength_break hc hkeeps hspan)⟩

end Marks

end ScripCheck
