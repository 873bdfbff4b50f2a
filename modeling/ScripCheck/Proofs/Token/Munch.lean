import Mathlib.Data.List.Basic
import ScripCheck.Token.Rule

/-!
# The longest match

* `longest?_accepts`, `le_longest?`: the matcher returns the length of an accepted text at the front
  of the input, and no accepted text there is longer.
* `longestLexeme_mem`, `le_longestLexeme`: the same for the choice among all rules. Every nonempty
  text has a lexeme.
* `longestLexeme_congr`: the choice depends on nothing but the lengths that the rules match.
* `longestLexeme_append_of_ends`, `longestLexeme_alone`: the lexeme with more text behind, and
  without.
-/

namespace ScripCheck

/-! ## One pattern -/

namespace Pattern

variable {p : Pattern} {cs w : List Char} {n : Nat}

theorem longest?_nothing (cs : List Char) : nothing.longest? cs = none := by
  cases cs <;> rfl

theorem longest?_nil (p : Pattern) : p.longest? [] = if p.nullable then some 0 else none := by
  cases p <;> rfl

theorem longest?_cons (p : Pattern) (c : Char) (cs : List Char) :
    p.longest? (c :: cs) =
      match (p.after c).longest? cs with
      | some n => some (n + 1)
      | none => if p.nullable then some 0 else none := by
  cases p with
  | nothing => simp [after, longest?_nothing, nullable]
  | _ => rfl

theorem accepts_of_nullable (h : (if p.nullable then some 0 else none) = some n) :
    n = 0 ∧ Accepts p [] := by
  split at h
  · next hnullable =>
    cases h
    exact ⟨rfl, accepts_nil.mpr hnullable⟩
  · cases h

/-- What is found is an accepted text at the front of the input. -/
theorem longest?_accepts (h : p.longest? cs = some n) : n ≤ cs.length ∧ Accepts p (cs.take n) := by
  induction cs generalizing p n with
  | nil =>
    rw [longest?_nil] at h
    obtain ⟨rfl, haccepts⟩ := accepts_of_nullable h
    exact ⟨Nat.le_refl _, haccepts⟩
  | cons c cs ih =>
    rw [longest?_cons] at h
    split at h
    · next m hm =>
      cases h
      obtain ⟨hle, haccepts⟩ := ih hm
      exact ⟨Nat.succ_le_succ hle, accepts_after.mp haccepts⟩
    · obtain ⟨rfl, haccepts⟩ := accepts_of_nullable h
      exact ⟨Nat.zero_le _, haccepts⟩

/-- No accepted text at the front of the input is longer than what is found. -/
theorem le_longest? (hw : w <+: cs) (h : Accepts p w) :
    ∃ n, p.longest? cs = some n ∧ w.length ≤ n := by
  induction cs generalizing p w with
  | nil =>
    obtain rfl := List.prefix_nil.mp hw
    exact ⟨0, by rw [longest?_nil, if_pos (accepts_nil.mp h)], Nat.le_refl _⟩
  | cons c cs ih =>
    rw [longest?_cons]
    cases w with
    | nil =>
      cases (p.after c).longest? cs with
      | some n => exact ⟨n + 1, rfl, Nat.zero_le _⟩
      | none => exact ⟨0, if_pos (accepts_nil.mp h), Nat.le_refl _⟩
    | cons d w =>
      obtain ⟨rfl, hws⟩ := List.cons_prefix_cons.mp hw
      obtain ⟨n, hn, hle⟩ := ih hws (accepts_after.mpr h)
      exact ⟨n + 1, by rw [hn], Nat.succ_le_succ hle⟩

/-- More text behind the input does not matter, if the pattern accepts nothing that reaches into
it. -/
theorem longest?_append {cs' : List Char}
    (h : ∀ w, w <+: cs ++ cs' → Accepts p w → w.length ≤ cs.length) :
    p.longest? (cs ++ cs') = p.longest? cs := by
  have hle {n : Nat} (hn : p.longest? cs = some n) :
      ∃ m, p.longest? (cs ++ cs') = some m ∧ n ≤ m := by
    obtain ⟨hlen, haccepts⟩ := longest?_accepts hn
    have hprefix : cs.take n <+: cs ++ cs' := (List.take_prefix n cs).trans (List.prefix_append ..)
    simpa [List.length_take_of_le hlen] using le_longest? hprefix haccepts
  have hge {m : Nat} (hm : p.longest? (cs ++ cs') = some m) :
      ∃ n, p.longest? cs = some n ∧ m ≤ n := by
    obtain ⟨hlen, haccepts⟩ := longest?_accepts hm
    have hshort := h _ (List.take_prefix m _) haccepts
    rw [List.length_take_of_le hlen] at hshort
    rw [List.take_append_of_le_length hshort] at haccepts
    simpa [List.length_take_of_le hshort] using le_longest? (List.take_prefix m cs) haccepts
  cases hn : p.longest? cs with
  | some n =>
    obtain ⟨m, hm, hnm⟩ := hle hn
    obtain ⟨n', hn', hmn⟩ := hge hm
    rw [hn] at hn'
    cases hn'
    rw [hm, Nat.le_antisymm hmn hnm]
  | none =>
    cases hm : p.longest? (cs ++ cs') with
    | some m => obtain ⟨n, hn', -⟩ := hge hm; rw [hn] at hn'; cases hn'
    | none => rfl

end Pattern

/-! ## All rules -/

section Rules

variable {cs cs' w : List Char}

/-- How good the best of some rules is, after `best`: at least as long as `best` and as each match.
It is `best`, or it is better, and the match of a rule such that all rules before it match less. -/
structure Best (cs : List Char) (rs : List Rule) (best result : Kind × Nat) : Prop where
  le : best.2 ≤ result.2
  longest : ∀ r ∈ rs, ∀ n, r.pattern.longest? cs = some n → n ≤ result.2
  source : result = best ∨ best.2 < result.2 ∧ ∃ before r after, rs = before ++ r :: after ∧
    r.kind = result.1 ∧ r.pattern.longest? cs = some result.2 ∧
      ∀ r' ∈ before, ∀ n, r'.pattern.longest? cs = some n → n < result.2

theorem improve_best (cs : List Char) (best : Kind × Nat) (r : Rule) :
    Best cs [r] best (Rule.improve cs best r) := by
  unfold Rule.improve
  cases hr : r.pattern.longest? cs with
  | none => exact ⟨Nat.le_refl _, by simp [hr], .inl rfl⟩
  | some n =>
    by_cases hlt : best.2 < n
    · simp only [hlt, if_true]
      exact ⟨Nat.le_of_lt hlt, by simp [hr], .inr ⟨hlt, [], r, [], rfl, rfl, hr, nofun⟩⟩
    · simp only [hlt, if_false]
      exact ⟨Nat.le_refl _, by simpa [hr] using hlt, .inl rfl⟩

theorem foldl_best (cs : List Char) (rs : List Rule) (best : Kind × Nat) :
    Best cs rs best (rs.foldl (Rule.improve cs) best) := by
  induction rs generalizing best with
  | nil => exact ⟨Nat.le_refl _, nofun, .inl rfl⟩
  | cons r rs ih =>
    have hstep := improve_best cs best r
    have hrest := ih (Rule.improve cs best r)
    rw [List.foldl_cons]
    generalize Rule.improve cs best r = next at hstep hrest
    generalize rs.foldl (Rule.improve cs) next = result at hrest
    have hr (n : Nat) (hn : r.pattern.longest? cs = some n) : n ≤ next.2 :=
      hstep.longest r List.mem_cons_self n hn
    refine ⟨Nat.le_trans hstep.le hrest.le, ?_, ?_⟩
    · rintro r' hr' n hn
      rcases List.mem_cons.mp hr' with rfl | hr'
      · exact Nat.le_trans (hr n hn) hrest.le
      · exact hrest.longest r' hr' n hn
    · rcases hrest.source with rfl | ⟨hlt, before, r', after, rfl, hkind, hn, hbefore⟩
      · rcases hstep.source with hsame | ⟨hlt, before, r', after, hsplit, hkind, hn, hbefore⟩
        · exact .inl hsame
        · have hall : [r] ++ rs = before ++ r' :: (after ++ rs) := by rw [hsplit]; simp
          exact .inr ⟨hlt, before, r', after ++ rs, hall, hkind, hn, hbefore⟩
      · refine .inr ⟨Nat.lt_of_le_of_lt hstep.le hlt, r :: before, r', after, rfl, hkind, hn, ?_⟩
        rintro r'' hr'' n hn
        rcases List.mem_cons.mp hr'' with rfl | hr''
        · exact Nat.lt_of_le_of_lt (hr n hn) hlt
        · exact hbefore r'' hr'' n hn

/-- No rule accepts a longer text at the front of the input. -/
theorem le_longestLexeme {r : Rule} (hr : r ∈ rules) (hw : w <+: cs)
    (h : r.pattern.Accepts w) : w.length ≤ (longestLexeme cs).2 := by
  obtain ⟨n, hn, hle⟩ := Pattern.le_longest? hw h
  exact Nat.le_trans hle ((foldl_best cs rules _).longest r hr n hn)

/-- A nonempty text has a lexeme at its front: the last rule accepts any character. -/
theorem longestLexeme_pos (hcs : cs ≠ []) : 0 < (longestLexeme cs).2 := by
  obtain ⟨c, cs, rfl⟩ := List.exists_cons_of_ne_nil hcs
  have hmem : (⟨.stray, .one fun _ => true⟩ : Rule) ∈ rules := by simp [rules]
  exact le_longestLexeme hmem (List.cons_prefix_cons.mpr ⟨rfl, List.nil_prefix⟩) (.one (c := c) rfl)

/-- The lexeme at the front of a nonempty text belongs to the language of a rule of its kind, and
the rules before that one match less. -/
theorem longestLexeme_source (hcs : cs ≠ []) : ∃ before r after, rules = before ++ r :: after ∧
    r.kind = (longestLexeme cs).1 ∧ r.pattern.longest? cs = some (longestLexeme cs).2 ∧
      ∀ r' ∈ before, ∀ n, r'.pattern.longest? cs = some n → n < (longestLexeme cs).2 := by
  have hpos := longestLexeme_pos hcs
  rcases (foldl_best cs rules (.stray, 0)).source with hnone | ⟨-, h⟩
  · rw [longestLexeme, hnone] at hpos
    cases hpos
  · exact h

theorem longestLexeme_mem (hcs : cs ≠ []) : ∃ r ∈ rules, r.kind = (longestLexeme cs).1 ∧
    (longestLexeme cs).2 ≤ cs.length ∧ r.pattern.Accepts (cs.take (longestLexeme cs).2) := by
  obtain ⟨before, r, after, hsplit, hkind, hn, -⟩ := longestLexeme_source hcs
  exact ⟨r, by rw [hsplit]; simp, hkind, Pattern.longest?_accepts hn⟩

theorem longestLexeme_le (hcs : cs ≠ []) : (longestLexeme cs).2 ≤ cs.length := by
  obtain ⟨r, -, -, hlength, -⟩ := longestLexeme_mem hcs
  exact hlength

/-- The lexeme of a text with a first character starts with that character. -/
theorem longestLexeme_cons (c : Char) (cs : List Char) : ∃ r ∈ rules, ∃ n,
    r.kind = (longestLexeme (c :: cs)).1 ∧ (longestLexeme (c :: cs)).2 = n + 1 ∧
      r.pattern.Accepts (c :: cs.take n) := by
  obtain ⟨r, hr, hkind, -, haccepts⟩ := longestLexeme_mem (List.cons_ne_nil c cs)
  obtain ⟨n, hn⟩ := Nat.exists_eq_add_one.mpr (longestLexeme_pos (List.cons_ne_nil c cs))
  rw [hn, List.take_succ_cons] at haccepts
  exact ⟨r, hr, n, hkind, hn, haccepts⟩

theorem longestLexeme_congr
    (h : ∀ r ∈ rules, r.pattern.longest? cs = r.pattern.longest? cs') :
    longestLexeme cs = longestLexeme cs' := by
  have himprove (best : Kind × Nat) (r : Rule) (hr : r ∈ rules) :
      Rule.improve cs best r = Rule.improve cs' best r := by
    rw [Rule.improve, h r hr]; rfl
  exact List.foldl_ext _ _ _ himprove

/-- The lexeme of a text is the same with more text behind, if no rule accepts a text that reaches
into it. -/
theorem longestLexeme_append_of_ends
    (h : ∀ r ∈ rules, ∀ w, w ≠ [] → w <+: cs' → ¬ r.pattern.Accepts (cs ++ w)) :
    longestLexeme (cs ++ cs') = longestLexeme cs := by
  refine longestLexeme_congr fun r hr => Pattern.longest?_append fun w hw haccepts => ?_
  refine Nat.le_of_not_lt fun hlong => ?_
  obtain ⟨v, rfl⟩ : cs <+: w :=
    List.prefix_of_prefix_length_le (List.prefix_append cs cs') hw (Nat.le_of_lt hlong)
  refine h r hr v ?_ ((List.prefix_append_right_inj cs).mp hw) haccepts
  rintro rfl
  simp at hlong

/-- A lexeme of a text is one by itself. -/
theorem longestLexeme_alone {k : Kind} (h : longestLexeme (w ++ cs) = (k, w.length)) :
    longestLexeme w = (k, w.length) := by
  rw [← h]
  refine (longestLexeme_congr fun r hr => Pattern.longest?_append fun v hv haccepts => ?_).symm
  have hle := le_longestLexeme hr hv haccepts
  rwa [h] at hle

end Rules

end ScripCheck
