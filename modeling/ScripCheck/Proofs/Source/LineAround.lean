import ScripCheck.Proofs.Source.LineStart
import ScripCheck.Proofs.Source.Offsets

/-!
# The line around an offset

* `lines_break`, `lines_pair`, `lines_char`: how the lines of a text start. `lines_head`,
  `lines_last`: the first line is at the front of the text, the last one at its end.
* `LineAround`: the line that a cut of a text falls on, in two parts. `KeepsBreaks.lineAround`: every
  cut that parts no line break falls on a line.
* `mem_breakEnds`: `breakEnds` are the offsets behind line breaks.
* `Position.OnLine`: how a position and the text of its line belong to an offset.
  `ofOffset_onLine`: the position of an offset does.
-/

namespace ScripCheck

variable {src u v : List Char} {ls ms : List (List Char)} {l m : List Char} {c : Char} {n k : Nat}

/-! ## The first line and the last -/

/-- No character of the text ends a line. -/
def Unbroken (cs : List Char) : Prop := ∀ c ∈ cs, c ≠ '\r' ∧ c ≠ '\n'

/-- The text is at its end, or at a line break. -/
def AtLineEnd (cs : List Char) : Prop := ∀ c ∈ cs.head?, c = '\r' ∨ c = '\n'

theorem unbroken_nil : Unbroken [] := nofun

theorem unbroken_cons : Unbroken (c :: l) ↔ (c ≠ '\r' ∧ c ≠ '\n') ∧ Unbroken l :=
  List.forall_mem_cons

theorem unbroken_append : Unbroken (l ++ m) ↔ Unbroken l ∧ Unbroken m := List.forall_mem_append

/-- A line ends at a character, or behind the next one, or the character is on the line. -/
theorem line_cases (c : Char) (cs : List Char) : endsLine c cs = true ∨
    (c = '\r' ∧ ∃ cs', cs = '\n' :: cs') ∨ (c ≠ '\r' ∧ c ≠ '\n') := by
  by_cases hn : c = '\n'
  · simp [endsLine, hn]
  by_cases hr : c = '\r'
  · by_cases hcs : cs.head? = some '\n'
    · exact .inr (.inl ⟨hr, List.head?_eq_some_iff.mp hcs⟩)
    · simp [endsLine, hr, hcs]
  · exact .inr (.inr ⟨hr, hn⟩)

theorem lines_break (h : endsLine c src = true) : lines (c :: src) = [] :: lines src := by
  rw [lines, if_pos h]

theorem lines_pair (src : List Char) : lines ('\r' :: '\n' :: src) = [] :: lines src := by
  simp [lines, endsLine]

theorem endsLine_of_ne (hr : c ≠ '\r') (hn : c ≠ '\n') (v : List Char) : endsLine c v = false := by
  simp [endsLine, hr, hn]

theorem lines_char (hr : c ≠ '\r') (hn : c ≠ '\n') (h : lines src = l :: ls) :
    lines (c :: src) = (c :: l) :: ls := by
  rw [lines, if_neg (by simp [endsLine_of_ne hr hn]), if_neg hr, h]

/-- The first line of a text goes on to the first line break. -/
theorem lines_head (h : lines src = l :: ls) : ∃ v, src = l ++ v ∧ Unbroken l ∧ AtLineEnd v := by
  induction src generalizing l ls with
  | nil => cases h; exact ⟨[], rfl, unbroken_nil, nofun⟩
  | cons c src ih =>
    rcases line_cases c src with hend | ⟨rfl, src, rfl⟩ | ⟨hr, hn⟩
    · rw [lines_break hend] at h
      cases h
      rw [endsLine_iff] at hend
      exact ⟨c :: src, rfl, unbroken_nil, by simpa [AtLineEnd] using hend.symm.imp_left And.left⟩
    · rw [lines_pair] at h
      cases h
      exact ⟨_, rfl, unbroken_nil, by simp [AtLineEnd]⟩
    · obtain ⟨m, ms, hsrc⟩ := List.exists_cons_of_ne_nil (lines_ne_nil src)
      rw [lines_char hr hn hsrc] at h
      cases h
      obtain ⟨v, rfl, hm, hv⟩ := ih hsrc
      exact ⟨v, rfl, unbroken_cons.mpr ⟨⟨hr, hn⟩, hm⟩, hv⟩

/-- The last line of a text goes on to its end. If it is the only one, it is the text. -/
theorem lines_last (h : lines src = ls ++ [l]) : ∃ w, src = w ++ l ∧ (ls = [] → w = []) := by
  induction src generalizing ls l with
  | nil =>
    have h : [] ++ [[]] = ls ++ [l] := h
    obtain ⟨rfl, hl⟩ := List.append_inj' h rfl
    exact ⟨[], by simpa using hl, fun _ => rfl⟩
  | cons c src ih =>
    rcases line_cases c src with hend | ⟨rfl, src, rfl⟩ | ⟨hr, hn⟩
    · rw [lines_break hend] at h
      cases ls with
      | nil => exact absurd (List.cons.inj h).2 (lines_ne_nil src)
      | cons l' ls =>
        obtain ⟨w, hw, -⟩ := ih (List.cons.inj h).2
        exact ⟨c :: w, by rw [hw]; rfl, nofun⟩
    · have hsame : lines ('\r' :: '\n' :: src) = lines ('\n' :: src) := by
        rw [lines_pair, lines_break rfl]
      rw [hsame] at h
      obtain ⟨w, hw, -⟩ := ih h
      refine ⟨'\r' :: w, by rw [hw]; rfl, ?_⟩
      rintro rfl
      rw [lines_break rfl] at h
      exact absurd (List.cons.inj h).2 (lines_ne_nil src)
    · obtain ⟨m, ms, hsrc⟩ := List.exists_cons_of_ne_nil (lines_ne_nil src)
      rw [lines_char hr hn hsrc] at h
      cases ls with
      | nil =>
        obtain ⟨rfl, rfl⟩ := List.cons.inj h
        have hlast : lines src = [] ++ [m] := hsrc
        obtain ⟨w, hw, hnil⟩ := ih hlast
        exact ⟨[], by rw [hw, hnil rfl]; rfl, fun _ => rfl⟩
      | cons l' ls =>
        obtain ⟨rfl, rfl⟩ := List.cons.inj h
        have hlast : lines src = (m :: ls) ++ [l] := hsrc
        obtain ⟨w, hw, -⟩ := ih hlast
        exact ⟨c :: w, by rw [hw]; rfl, nofun⟩

theorem unbroken_of_mem_lines (h : l ∈ lines src) : Unbroken l := by
  induction src generalizing l with
  | nil => simp_all [lines, Unbroken]
  | cons c src ih =>
    rcases line_cases c src with hend | ⟨rfl, src, rfl⟩ | ⟨hr, hn⟩
    · rw [lines_break hend] at h
      rcases List.mem_cons.mp h with rfl | h
      · exact unbroken_nil
      · exact ih h
    · rw [lines_pair] at h
      rcases List.mem_cons.mp h with rfl | h
      · exact unbroken_nil
      · exact ih (by rw [lines_break rfl]; exact List.mem_cons_of_mem [] h)
    · obtain ⟨m, ms, hsrc⟩ := List.exists_cons_of_ne_nil (lines_ne_nil src)
      rw [lines_char hr hn hsrc] at h
      rw [hsrc] at ih
      rcases List.mem_cons.mp h with rfl | h
      · exact unbroken_cons.mpr ⟨⟨hr, hn⟩, ih List.mem_cons_self⟩
      · exact ih (List.mem_cons_of_mem m h)

/-! ## The line that a cut falls on -/

/-- The cut between `u` and `v` falls on the line with the number `n + 1`, between its parts `l` and
`m`. -/
structure LineAround (u v : List Char) (n : Nat) (l m : List Char) : Prop where
  before : ∃ w, u = w ++ l
  behind : ∃ x, v = m ++ x ∧ AtLineEnd x
  unbroken : Unbroken (l ++ m)
  position : Position.ofOffset (u ++ v) u.length = ⟨n + 1, l.length + 1⟩
  text : lineText (u ++ v) ((n + 1 : Nat) : Int) = l ++ m
  exists_line : n + 1 ≤ (lines (u ++ v)).length

/-- A cut that parts no line break falls on a line. -/
theorem KeepsBreaks.lineAround (h : KeepsBreaks u v) : ∃ n l m, LineAround u v n l m := by
  obtain ⟨ls, l, m, ms, hu, hv, huv⟩ := lines_append h
  obtain ⟨w, hw, -⟩ := lines_last hu
  obtain ⟨x, hx, hm, hend⟩ := lines_head hv
  refine ⟨ls.length, l, m, ⟨w, hw⟩, ⟨x, hx, hend⟩, ?_, ofOffset_append h hu 0,
    lineText_append h hu hv, ?_⟩
  · exact unbroken_of_mem_lines (huv ▸ List.mem_append_right ls List.mem_cons_self)
  · simp [huv]

/-- Behind a cut that parts no line break, positions go on from the position of the cut. -/
theorem KeepsBreaks.ofOffset_add (h : KeepsBreaks u v) (k : Nat) :
    Position.ofOffset (u ++ v) (u.length + k : Nat) =
      (Position.ofOffset (u ++ v) u.length).walk k v := by
  obtain ⟨ls, l, -, -, hu, -⟩ := lines_append h
  have hcut : Position.ofOffset (u ++ v) u.length = ⟨ls.length + 1, l.length + 1⟩ :=
    ofOffset_append h hu 0
  rw [ofOffset_append h hu k, hcut]

/-- A cut that parts a line break falls behind the end of the line. -/
theorem LineAround.inside_pair (h : LineAround u ('\r' :: '\n' :: v) n l m) : m = [] ∧
    Position.ofOffset (u ++ '\r' :: '\n' :: v) (u.length + 1 : Nat) = ⟨n + 1, l.length + 2⟩ := by
  have hkeeps : KeepsBreaks u ('\r' :: '\n' :: v) := keepsBreaks_of_head u (by simp)
  refine ⟨?_, ?_⟩
  · obtain ⟨x, hx, -⟩ := h.behind
    cases m with
    | nil => rfl
    | cons c m =>
      have hc := (h.unbroken c (by simp)).1
      exact absurd (List.cons.inj hx).1.symm hc
  · rw [hkeeps.ofOffset_add, h.position]
    simp [Position.walk, Position.step, endsLine]

/-! ## Where lines start -/

/-- The offset `n` is behind a line break. -/
def EndsBreak (src : List Char) (n : Nat) : Prop :=
  ∃ u c v, src = u ++ c :: v ∧ endsLine c v = true ∧ n = u.length + 1

theorem endsBreak_cons : EndsBreak (c :: src) n ↔
    (endsLine c src = true ∧ n = 1) ∨ ∃ k, EndsBreak src k ∧ n = k + 1 := by
  constructor
  · rintro ⟨u, d, v, hsrc, hend, rfl⟩
    cases u with
    | nil =>
      obtain ⟨rfl, rfl⟩ := List.cons.inj hsrc
      exact .inl ⟨hend, rfl⟩
    | cons a u => exact .inr ⟨u.length + 1, ⟨u, d, v, (List.cons.inj hsrc).2, hend, rfl⟩, rfl⟩
  · rintro (⟨hend, rfl⟩ | ⟨k, ⟨u, d, v, rfl, hend, rfl⟩, rfl⟩)
    · exact ⟨[], c, src, rfl, hend, rfl⟩
    · exact ⟨c :: u, d, v, rfl, hend, rfl⟩

theorem mem_breakEnds : n ∈ breakEnds src ↔ EndsBreak src n := by
  induction src generalizing n with
  | nil => simp [breakEnds, EndsBreak]
  | cons c src ih =>
    rw [endsBreak_cons]
    simp only [← ih, breakEnds]
    split
    · next hend => simp [hend, eq_comm]
    · next hend => simp [hend, eq_comm]

theorem lineStart_cases (src : List Char) (n : Nat) :
    lineStart src n = 0 ∨ EndsBreak src (lineStart src n) := by
  unfold lineStart
  rw [List.getLastD_eq_getLast?]
  cases h : (breaksUpTo src n).getLast? with
  | none => exact .inl rfl
  | some k => exact .inr (mem_breakEnds.mp (List.mem_filter.mp (List.mem_of_getLast? h)).1)

theorem lineStart_le (src : List Char) (n : Nat) : lineStart src n ≤ n := by
  unfold lineStart
  rw [List.getLastD_eq_getLast?]
  cases h : (breaksUpTo src n).getLast? with
  | none => exact Nat.zero_le n
  | some k => simpa using (List.mem_filter.mp (List.mem_of_getLast? h)).2

/-- The column of an offset counts from the start of its line. -/
theorem lineStart_add_column (h : n ≤ src.length) :
    lineStart src n + (Position.ofOffset src n).column = n + 1 := by
  have hle := lineStart_le src n
  have hcolumn : (Position.ofOffset src n).column = min n src.length - lineStart src n + 1 := by
    rw [ofOffset_eq, Int.toNat_natCast, lineSoFar, List.length_drop, List.length_take]
  omega

/-! ## Positions and lines -/

/-- The offset `n` is between the two characters of a line break. -/
def InsidePair (src : List Char) (n : Nat) : Prop :=
  ∃ u v, src = u ++ '\r' :: '\n' :: v ∧ n = u.length + 1

theorem not_insidePair (h : KeepsBreaks u v) : ¬ InsidePair (u ++ v) u.length := by
  rintro ⟨u', v', hsplit, hlength⟩
  have happend : u ++ v = (u' ++ ['\r']) ++ '\n' :: v' := by simp [hsplit]
  obtain ⟨rfl, rfl⟩ := List.append_inj happend (by simp [hlength])
  exact h (by simp) rfl

/-- The position `p` is that of the offset `n`: its column counts from the start `s` of the line to
the offset, and the line is the text from there on to the next line break. -/
structure Position.OnLine (src : List Char) (n : Nat) (p : Position) : Prop where
  line_pos : 1 ≤ p.line
  line_le : p.line ≤ (lines src).length
  start : ∃ s : Nat, (s : Int) = n - p.column + 1 ∧ s ≤ n ∧ (s = 0 ∨ EndsBreak src s) ∧
    lineText src p.line = (src.drop s).take (lineText src p.line).length
  char : ∀ c, src[n]? = some c → c ≠ '\r' → c ≠ '\n' →
    (lineText src p.line)[p.column - 1]? = some c
  atEnd : AtLineEnd (src.drop n) → ¬ InsidePair src n →
    p.column - 1 = (lineText src p.line).length
  insidePair : InsidePair src n → p.column - 1 = (lineText src p.line).length + 1

theorem LineAround.behind_eq_nil (h : LineAround u v n l m) (hend : AtLineEnd v) : m = [] := by
  obtain ⟨x, rfl, -⟩ := h.behind
  cases m with
  | nil => rfl
  | cons c m =>
    obtain ⟨hr, hn⟩ := h.unbroken c (by simp)
    exact absurd (hend c rfl) (by simp [hr, hn])

/-- A character that ends no line is on the line that it follows the cut on. -/
theorem LineAround.getElem? (h : LineAround u v n l m) (hv : v.head? = some c) (hr : c ≠ '\r')
    (hn : c ≠ '\n') : (l ++ m)[l.length]? = some c := by
  obtain ⟨x, rfl, hx⟩ := h.behind
  cases m with
  | nil => exact absurd (hx c hv) (by simp [hr, hn])
  | cons d m =>
    obtain rfl : d = c := by simpa using hv
    simp

/-- A line that is found in the text as far before the offset as its column says is where the line
of the offset is. -/
theorem exists_start {p : Position} {w x : List Char} (hp : Position.ofOffset src n = p)
    (hn : n ≤ src.length) (hsrc : src = w ++ (l ++ x)) (hw : w.length + p.column = n + 1)
    (hle : w.length ≤ n) (hl : lineText src p.line = l) :
    ∃ s : Nat, (s : Int) = n - p.column + 1 ∧ s ≤ n ∧ (s = 0 ∨ EndsBreak src s) ∧
      lineText src p.line = (src.drop s).take (lineText src p.line).length := by
  have hcolumn := lineStart_add_column hn
  have hstart : lineStart src n = w.length := by
    rw [hp] at hcolumn
    omega
  refine ⟨w.length, by omega, hle, hstart ▸ lineStart_cases src n, ?_⟩
  rw [hl, hsrc, List.drop_left, List.take_left]

theorem LineAround.onLine (h : LineAround u v n l m) (hkeeps : KeepsBreaks u v) :
    Position.OnLine (u ++ v) u.length ⟨n + 1, l.length + 1⟩ where
  line_pos := Nat.le_add_left 1 n
  line_le := h.exists_line
  start := by
    obtain ⟨w, hw⟩ := h.before
    obtain ⟨x, hx, -⟩ := h.behind
    have hlength : u.length = w.length + l.length := by rw [hw, List.length_append]
    refine exists_start (w := w) (x := x) h.position (by simp) ?_ ?_ ?_ h.text
    · simp [hw, hx]
    · dsimp only; omega
    · omega
  char c hc hr hn := by
    rw [List.getElem?_append_right (Nat.le_refl _), Nat.sub_self, ← List.head?_eq_getElem?] at hc
    dsimp only
    rw [h.text, Nat.add_sub_cancel]
    exact h.getElem? hc hr hn
  atEnd hend _ := by
    rw [List.drop_left] at hend
    dsimp only
    rw [h.text, h.behind_eq_nil hend, List.append_nil, Nat.add_sub_cancel]
  insidePair hpair := absurd hpair (not_insidePair hkeeps)

/-- The offset inside of a line break is one column behind the end of its line. -/
theorem LineAround.onLine_pair (h : LineAround u ('\r' :: '\n' :: v) n l m) :
    Position.OnLine (u ++ '\r' :: '\n' :: v) (u.length + 1) ⟨n + 1, l.length + 2⟩ := by
  obtain ⟨rfl, hposition⟩ := h.inside_pair
  have htext := h.text
  rw [List.append_nil] at htext
  exact {
    line_pos := Nat.le_add_left 1 n
    line_le := h.exists_line
    start := by
      obtain ⟨w, hw⟩ := h.before
      have hlength : u.length = w.length + l.length := by rw [hw, List.length_append]
      refine exists_start (w := w) (x := '\r' :: '\n' :: v) hposition (by simp) ?_ ?_ ?_ htext
      · simp [hw]
      · dsimp only; omega
      · omega
    char := fun c hc _ hn => by
      have hnewline : '\n' = c := by simpa [List.getElem?_append_right] using hc
      exact absurd hnewline.symm hn
    atEnd := fun _ hpair => absurd ⟨u, v, rfl, rfl⟩ hpair
    insidePair := fun _ => by
      dsimp only
      rw [htext]; rfl }

/-- The position of a cut of a text is on its line. -/
theorem onLine_append (u v : List Char) :
    (Position.ofOffset (u ++ v) u.length).OnLine (u ++ v) u.length := by
  by_cases hkeeps : KeepsBreaks u v
  · obtain ⟨n, l, m, h⟩ := hkeeps.lineAround
    rw [h.position]
    exact h.onLine hkeeps
  · -- the cut parts a line break, so another one before it does not
    obtain ⟨hu, hv⟩ : u.getLast? = some '\r' ∧ v.head? = some '\n' := by
      simpa [KeepsBreaks] using hkeeps
    obtain ⟨u, rfl⟩ := List.getLast?_eq_some_iff.mp hu
    obtain ⟨v, rfl⟩ := List.head?_eq_some_iff.mp hv
    have hfront : KeepsBreaks u ('\r' :: '\n' :: v) := keepsBreaks_of_head u (by simp)
    obtain ⟨n, l, m, h⟩ := hfront.lineAround
    rw [List.append_assoc, List.length_append, List.singleton_append, List.length_singleton,
      h.inside_pair.2]
    exact h.onLine_pair

/-- The position of an offset of a text, and the text of its line: the column counts from the start
of the line, and the line holds the characters around the offset. An offset before the text is read
as its start, one behind the text as its end. -/
theorem ofOffset_onLine (src : List Char) (o : Int) :
    (0 ≤ o → o ≤ src.length → (Position.ofOffset src o).OnLine src o.toNat) ∧
      (o < 0 → Position.ofOffset src o = .ofOffset src 0) ∧
      (src.length < o → Position.ofOffset src o = .ofOffset src src.length) := by
  refine ⟨fun hlo hhi => ?_, fun ho => ?_, fun ho => ?_⟩
  · have hn : (src.take o.toNat).length = o.toNat := by rw [List.length_take]; omega
    have honLine := onLine_append (src.take o.toNat) (src.drop o.toNat)
    rw [List.take_append_drop, hn, Int.toNat_of_nonneg hlo] at honLine
    exact honLine
  · rw [Position.ofOffset_of_nonpos src (Int.le_of_lt ho),
      Position.ofOffset_of_nonpos src (Int.le_refl 0)]
  · rw [Position.ofOffset, Position.walk_of_length_le _ (by omega), Position.ofOffset,
      Int.toNat_natCast]

/-- Between the characters of the line break of `ab` the column is 4, one more than at its end. -/
theorem ofOffset_onLine_pair :
    let src := "ab\r\ncd".toList
    (0 : Int) ≤ 3 ∧ (3 : Int) ≤ src.length ∧ Position.ofOffset src 3 = ⟨1, 4⟩ ∧
      (Position.ofOffset src 3).OnLine src 3 ∧
      (-1 : Int) < 0 ∧ Position.ofOffset src (-1) = .ofOffset src 0 ∧
      (src.length : Int) < 7 ∧ Position.ofOffset src 7 = .ofOffset src src.length := by
  intro src
  have hfirst : (3 : Int) ≤ src.length := by decide
  have hlast : (src.length : Int) < 7 := by decide
  exact ⟨by decide, hfirst, by decide, (ofOffset_onLine src 3).1 (by decide) hfirst, by decide,
    (ofOffset_onLine src (-1)).2.1 (by decide), hlast, (ofOffset_onLine src 7).2.2 hlast⟩

end ScripCheck
