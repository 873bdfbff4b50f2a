import ScripCheck.Proofs.Tree.FirstError
import ScripCheck.Proofs.Tree.Likeness

/-!
# What stands before

Reading tokens does not depend on the errors so far, nor on the text before the tokens.

* `Likeness.behind`, `decls_behind`: errors so far stay in front of the new ones.
* `Likeness.moved`, `decls_moved`: with more text in front, all spans move by its length.
-/

namespace ScripCheck

/-- The error moved `d` places to the right. -/
def SyntaxError.shift (d : Int) (e : SyntaxError) : SyntaxError := { e with span := e.span.shift d }

/-! ## Errors so far -/

/-- The same tokens, read after the errors `es`. -/
def Likeness.behind (src : List Char) (es : List SyntaxError) : Likeness src src where
  span := Eq
  value := Eq
  token := Eq
  errors before after := after = es ++ before
  kind h := h ▸ rfl
  place h := h ▸ rfl
  text h _ := h ▸ rfl
  same _ := rfl
  unquoted h _ := h ▸ rfl
  reach h h' := h ▸ h' ▸ rfl
  atEnd := rfl
  missing h h' := by rw [h, h', List.append_assoc]
  missingEnd h := by rw [h, List.append_assoc]
  numeral h h' _ := by rw [h, h', List.append_assoc]
  skipped _ h h' _ _ := by
    rw [List.forall₂_eq_eq_eq] at h'
    rw [h, h', List.append_assoc]

section

variable {src : List Char} {ts : List Token} {ds : List (Option Decl)} {s : Cursor}

/-- What is open outside of all declarations: nothing. -/
def NoneOpen (as bs : List Span) : Prop := as = [] ∧ bs = []

theorem widens_noneOpen {src' : List Char} (A : Likeness src src') : A.Widens NoneOpen := by
  rintro _ _ x y - ⟨rfl, rfl⟩
  exact ⟨rfl, rfl⟩

/-- Like declarations that are equal up to a map of spans. -/
theorem forall₂_option_eq_map {S : Span → Span → Prop} {f : Span → Span}
    {ds ds' : List (Option Decl)} (hf : ∀ x y, S x y → y = f x)
    (h : List.Forall₂ (Option.Rel (DeclAlike S Eq)) ds ds') :
    ds' = ds.map (Option.map (Decl.mapSpan f)) := by
  refine forall₂_eq_map h fun d d' hd => ?_
  cases hd with
  | none => rfl
  | some hd => rw [hd.eq_mapSpan hf, Option.map_some]

theorem decls_behind (es : List SyntaxError) (h : decls src ⟨ts, [], []⟩ = .found ds s) :
    ∃ s', decls src ⟨ts, [], es⟩ = .found ds s' ∧ s'.errors = es ++ s.errors := by
  have hstart : (Likeness.behind src es).Cursors NoneOpen ⟨ts, [], []⟩ ⟨ts, [], es⟩ :=
    ⟨List.forall₂_same.mpr fun _ _ => rfl, ⟨rfl, rfl⟩, (List.append_nil es).symm⟩
  have hrun := Likeness.decls NoneOpen (widens_noneOpen _) _ _ hstart
  rw [h] at hrun
  generalize decls src ⟨ts, [], es⟩ = o at hrun
  cases hrun with
  | found value cursors =>
    obtain rfl := forall₂_option_eq_map (f := id) (fun _ _ h => h.symm) value
    exact ⟨_, by simp, cursors.errors⟩

/-! ## Text in front -/

/-- A span that lies in a text, or behind it. -/
def Span.Positive (a : Span) : Prop := 0 ≤ a.lo ∧ 0 ≤ a.hi

theorem Span.shift_reach (d hi : Int) (a : Span) :
    (a.shift d).reach (hi + d) = (a.reach hi).shift d := by
  simp only [Span.reach, Span.shift, Span.mk.injEq, true_and]
  omega

theorem slice_shift {a : Span} (h : a.Positive) (front src : List Char) :
    (a.shift front.length).slice (front ++ src) = a.slice src := by
  obtain ⟨lo, hlo⟩ := Int.eq_ofNat_of_zero_le h.1
  obtain ⟨hi, hhi⟩ := Int.eq_ofNat_of_zero_le h.2
  have htake (n : Nat) : ((n : Int) + front.length).toNat = front.length + n := by omega
  simp only [Span.slice, Span.shift, hlo, hhi, htake, Int.toNat_natCast]
  rw [List.take_length_add_append, List.drop_length_add_append]

/-- The second span is the first one, moved `d` places to the right. -/
def Span.Shifted (d : Int) (a b : Span) : Prop := b = a.shift d ∧ a.Positive

theorem Span.Shifted.reach {d : Int} {a b x y : Span} (h : a.Shifted d b) (h' : x.Shifted d y) :
    (a.reach x.hi).Shifted d (b.reach y.hi) := by
  obtain ⟨rfl, ha⟩ := h
  obtain ⟨rfl, -⟩ := h'
  exact ⟨Span.shift_reach .., ha.1, Int.le_trans ha.2 (Int.le_max_left ..)⟩

/-- The same tokens behind more text. -/
def Likeness.moved (front src : List Char) : Likeness src (front ++ src) where
  span := Span.Shifted front.length
  value := Eq
  token t u := u = t.shift front.length ∧ t.span.Positive
  errors before after := after = before.map (SyntaxError.shift front.length)
  kind h := h.1 ▸ rfl
  place h := ⟨h.1 ▸ rfl, h.2⟩
  text h _ := h.1 ▸ rfl
  same _ := rfl
  unquoted h _ := h.1 ▸ rfl
  reach := Span.Shifted.reach
  atEnd := by
    refine ⟨?_, Int.natCast_nonneg _, Int.natCast_nonneg _⟩
    simp [Span.atEnd, Span.shift, Int.add_comm]
  missing h h' := by
    obtain ⟨rfl, -⟩ := h'
    rw [h, List.map_append]; rfl
  missingEnd h := by
    rw [h, List.map_append]
    simp [SyntaxError.shift, Span.atEnd, Span.shift, Int.add_comm]
  numeral h h' _ := by
    obtain ⟨rfl, -⟩ := h'
    rw [h, List.map_append]; rfl
  skipped _ h h' hts _ := by
    have hplace (t u : Token) (htu : u = t.shift front.length ∧ t.span.Positive) :
        t.span.Shifted front.length u.span := ⟨htu.1 ▸ rfl, htu.2⟩
    obtain ⟨hcover, ha⟩ := forall₂_cover hplace (fun _ _ _ _ => Span.Shifted.reach) h' hts
    rw [h, List.map_append, hcover, slice_shift ha]; rfl

/-- The declaration moved `d` places to the right. -/
def Decl.shift (d : Int) : Decl → Decl := Decl.mapSpan (Span.shift d)

theorem Decl.shift_neg (n : Int) (d : Decl) : (d.shift n).shift (-n) = d := by
  have hback : Span.shift (-n) ∘ Span.shift n = id := by
    funext x
    rw [Function.comp_apply, Span.shift_shift, Int.add_right_neg, Span.shift_zero, id]
  rw [Decl.shift, Decl.shift, Decl.mapSpan_mapSpan, hback, Decl.mapSpan_id, id]

theorem decls_moved (front : List Char) (hts : ∀ t ∈ ts, t.span.Positive)
    (h : decls src ⟨ts, [], []⟩ = .found ds s) :
    ∃ s', decls (front ++ src) ⟨ts.map (Token.shift front.length), [], []⟩ =
        .found (ds.map (Option.map (Decl.shift front.length))) s' ∧
      s'.errors = s.errors.map (SyntaxError.shift front.length) := by
  have hrest : List.Forall₂ (Likeness.moved front src).token ts
      (ts.map (Token.shift front.length)) := by
    rw [List.forall₂_map_right_iff]
    exact List.forall₂_same.mpr fun t ht => ⟨rfl, hts t ht⟩
  have hstart : (Likeness.moved front src).Cursors NoneOpen ⟨ts, [], []⟩
      ⟨ts.map (Token.shift front.length), [], []⟩ := ⟨hrest, ⟨rfl, rfl⟩, rfl⟩
  have hrun := Likeness.decls NoneOpen (widens_noneOpen _) _ _ hstart
  rw [h] at hrun
  generalize decls (front ++ src) ⟨ts.map (Token.shift front.length), [], []⟩ = o at hrun
  cases hrun with
  | found value cursors =>
    obtain rfl := forall₂_option_eq_map (f := Span.shift front.length) (fun _ _ h => h.1) value
    exact ⟨_, rfl, cursors.errors⟩

end

end ScripCheck
