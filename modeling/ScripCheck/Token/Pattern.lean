/-!
# Patterns

The shapes that lexemes can have, as regular expressions over characters.

* `Pattern.Accepts`: the texts of a pattern's language.
* `Pattern.after`: the pattern of what may follow a first character; `Pattern.nullable`: whether
  the empty text is accepted. `accepts_after` and `accepts_nil` say so.
* `Pattern.longest?`: the length of the longest accepted text at the front of the input.
-/

namespace ScripCheck

/-- A set of texts. -/
inductive Pattern where
  /-- No text at all. -/
  | nothing
  /-- The empty text. -/
  | empty
  /-- One character of a class. -/
  | one (p : Char → Bool)
  /-- A text of the first pattern, then one of the second. -/
  | seq (a b : Pattern)
  /-- A text of either pattern. -/
  | alt (a b : Pattern)
  /-- Any number of texts of the pattern. -/
  | many (a : Pattern)

namespace Pattern

/-- The language of a pattern. -/
inductive Accepts : Pattern → List Char → Prop where
  | empty : Accepts .empty []
  | one {p : Char → Bool} {c : Char} (h : p c = true) : Accepts (.one p) [c]
  | seq {a b : Pattern} {u v : List Char} (hu : Accepts a u) (hv : Accepts b v) :
      Accepts (.seq a b) (u ++ v)
  | left {a b : Pattern} {u : List Char} (h : Accepts a u) : Accepts (.alt a b) u
  | right {a b : Pattern} {u : List Char} (h : Accepts b u) : Accepts (.alt a b) u
  | done {a : Pattern} : Accepts (.many a) []
  | more {a : Pattern} {u v : List Char} (hu : Accepts a u) (hv : Accepts (.many a) v) :
      Accepts (.many a) (u ++ v)

/-! ## Building patterns -/

/-- The one text `s`. -/
def exactly (s : String) : Pattern :=
  s.toList.foldr (fun c p => seq (one (· == c)) p) empty

/-- One or more texts of the pattern. -/
def plus (a : Pattern) : Pattern := seq a (many a)

/-- A text of the pattern, or none. -/
def optional (a : Pattern) : Pattern := alt empty a

/-- `seq`, without the cases that need no node. -/
def followedBy : Pattern → Pattern → Pattern
  | nothing, _ => nothing
  | empty, b => b
  | a, b => seq a b

/-- `alt`, without the cases that need no node. -/
def either : Pattern → Pattern → Pattern
  | nothing, b => b
  | a, nothing => a
  | a, b => alt a b

/-! ## Matching -/

/-- The empty text is accepted. -/
def nullable : Pattern → Bool
  | nothing => false
  | empty => true
  | one _ => false
  | seq a b => a.nullable && b.nullable
  | alt a b => a.nullable || b.nullable
  | many _ => true

/-- What may follow the first character `c`. -/
def after (c : Char) : Pattern → Pattern
  | nothing => nothing
  | empty => nothing
  | one p => if p c then empty else nothing
  | seq a b =>
    if a.nullable then ((a.after c).followedBy b).either (b.after c) else (a.after c).followedBy b
  | alt a b => (a.after c).either (b.after c)
  | many a => (a.after c).followedBy (many a)

/-- The length of the longest text at the front of the input that the pattern accepts. -/
def longest? : Pattern → List Char → Option Nat
  | nothing, _ => none
  | p, [] => if p.nullable then some 0 else none
  | p, c :: cs =>
    match (p.after c).longest? cs with
    | some n => some (n + 1)
    | none => if p.nullable then some 0 else none

/-! ## The matcher follows the language -/

theorem accepts_nil {p : Pattern} : Accepts p [] ↔ p.nullable = true := by
  constructor
  · intro h
    generalize hw : ([] : List Char) = w at h
    induction h with
    | empty | done => rfl
    | one => simp at hw
    | seq _ _ iha ihb =>
      obtain ⟨hu, hv⟩ := List.append_eq_nil_iff.mp hw.symm
      simp [nullable, iha hu.symm, ihb hv.symm]
    | left _ ih => simp [nullable, ih hw]
    | right _ ih => simp [nullable, ih hw]
    | more => rfl
  · intro h
    induction p with
    | nothing | one => simp [nullable] at h
    | empty => exact .empty
    | seq a b iha ihb =>
      simp only [nullable, Bool.and_eq_true] at h
      exact .seq (iha h.1) (ihb h.2)
    | alt a b iha ihb =>
      simp only [nullable, Bool.or_eq_true] at h
      exact h.elim (fun h => .left (iha h)) fun h => .right (ihb h)
    | many a => exact .done

theorem not_accepts_nothing {w : List Char} : ¬ Accepts .nothing w := nofun

theorem accepts_seq {a b : Pattern} {w : List Char} :
    Accepts (.seq a b) w ↔ ∃ u v, w = u ++ v ∧ Accepts a u ∧ Accepts b v :=
  ⟨fun | .seq hu hv => ⟨_, _, rfl, hu, hv⟩, fun ⟨_, _, hw, hu, hv⟩ => hw ▸ .seq hu hv⟩

theorem accepts_followedBy {a b : Pattern} {w : List Char} :
    Accepts (a.followedBy b) w ↔ Accepts (.seq a b) w := by
  cases a with
  | nothing => simp [followedBy, accepts_seq, not_accepts_nothing]
  | empty =>
    rw [followedBy, accepts_seq]
    exact ⟨fun h => ⟨[], w, rfl, .empty, h⟩, fun ⟨_, _, hw, .empty, h⟩ => hw ▸ h⟩
  | _ => exact Iff.rfl

theorem accepts_alt {a b : Pattern} {w : List Char} :
    Accepts (.alt a b) w ↔ Accepts a w ∨ Accepts b w :=
  ⟨fun | .left h => .inl h | .right h => .inr h, fun h => h.elim .left .right⟩

theorem accepts_either {a b : Pattern} {w : List Char} :
    Accepts (a.either b) w ↔ Accepts a w ∨ Accepts b w := by
  unfold either
  split
  · simp [not_accepts_nothing]
  · simp [not_accepts_nothing]
  · exact accepts_alt

/-- A text of a repetition that starts with `c` is a first part that starts with `c`, and a rest. -/
theorem accepts_many_cons {a : Pattern} {c : Char} {w : List Char}
    (h : Accepts (.many a) (c :: w)) :
    ∃ u v, w = u ++ v ∧ Accepts a (c :: u) ∧ Accepts (.many a) v := by
  generalize hp : Pattern.many a = p at h
  generalize hx : c :: w = x at h
  induction h with
  | @more _ u v hu hv _ ihv =>
    cases hp
    cases u with
    | nil => exact ihv rfl (by simpa using hx)
    | cons d u =>
      simp only [List.cons_append, List.cons.injEq] at hx
      exact ⟨u, v, hx.2, hx.1 ▸ hu, hv⟩
  | _ => simp_all

theorem accepts_after {p : Pattern} {c : Char} {w : List Char} :
    Accepts (p.after c) w ↔ Accepts p (c :: w) := by
  induction p generalizing w with
  | nothing => simp [after, not_accepts_nothing]
  | empty => exact ⟨nofun, nofun⟩
  | one p =>
    unfold after
    split
    · next h => exact ⟨fun | .empty => .one h, fun | .one _ => .empty⟩
    · next h => exact ⟨nofun, fun | .one h' => absurd h' h⟩
  | seq a b iha ihb =>
    have hleft : Accepts ((a.after c).followedBy b) w ↔
        ∃ u v, w = u ++ v ∧ Accepts a (c :: u) ∧ Accepts b v := by
      simp only [accepts_followedBy, accepts_seq, iha]
    have hseq : Accepts (.seq a b) (c :: w) ↔
        (a.nullable = true ∧ Accepts b (c :: w)) ∨
          ∃ u v, w = u ++ v ∧ Accepts a (c :: u) ∧ Accepts b v := by
      rw [accepts_seq]
      constructor
      · rintro ⟨u, v, hw, hu, hv⟩
        cases u with
        | nil => exact .inl ⟨accepts_nil.mp hu, (by simpa using hw : c :: w = v) ▸ hv⟩
        | cons d u =>
          simp only [List.cons_append, List.cons.injEq] at hw
          exact .inr ⟨u, v, hw.2, hw.1 ▸ hu, hv⟩
      · rintro (⟨hn, hb⟩ | ⟨u, v, hw, hu, hv⟩)
        · exact ⟨[], c :: w, rfl, accepts_nil.mpr hn, hb⟩
        · exact ⟨c :: u, v, by simp [hw], hu, hv⟩
    unfold after
    split
    · next hn => rw [accepts_either, hleft, ihb, hseq]; simp [hn, or_comm]
    · next hn => rw [hleft, hseq]; simp [hn]
  | alt a b iha ihb => rw [after, accepts_either, accepts_alt, iha, ihb]
  | many a iha =>
    simp only [after, accepts_followedBy, accepts_seq, iha]
    constructor
    · rintro ⟨u, v, hw, hu, hv⟩
      exact hw ▸ .more hu hv
    · exact accepts_many_cons

end Pattern

end ScripCheck
