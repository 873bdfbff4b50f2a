import Mathlib.Data.List.Nodup
import ScripCheck.Token.Rule

/-!
# What the rules accept

* `Pattern.alphabet`: the characters that the texts of a pattern may have.
* `rule_unique`: a kind has one rule. So the kind of a lexeme says what text it has:
  `accepts_blank`, `accepts_newline`, `accepts_rbrace`, `accepts_strLit`.
* `kind_of_seam`: few rules accept a character after which a text may be cut.
-/

namespace ScripCheck

namespace Pattern

variable {p : Char → Bool} {a b : Pattern} {w : List Char} {c : Char} {s : String}

/-- The character may stand in a text of the pattern. -/
def alphabet : Pattern → Char → Bool
  | nothing, _ => false
  | empty, _ => false
  | one p, c => p c
  | seq a b, c => a.alphabet c || b.alphabet c
  | alt a b, c => a.alphabet c || b.alphabet c
  | many a, c => a.alphabet c

theorem Accepts.alphabet (h : Accepts a w) (hc : c ∈ w) : a.alphabet c = true := by
  induction h with
  | empty | done => cases hc
  | one h => rwa [List.mem_singleton.mp hc]
  | seq _ _ iha ihb =>
    rw [Pattern.alphabet, Bool.or_eq_true]
    exact (List.mem_append.mp hc).imp iha ihb
  | left _ ih => rw [Pattern.alphabet, Bool.or_eq_true]; exact .inl (ih hc)
  | right _ ih => rw [Pattern.alphabet, Bool.or_eq_true]; exact .inr (ih hc)
  | more _ _ ihu ihv => exact (List.mem_append.mp hc).elim ihu ihv

theorem accepts_one : Accepts (.one p) w ↔ ∃ c, w = [c] ∧ p c = true :=
  ⟨fun | .one h => ⟨_, rfl, h⟩, fun ⟨_, hw, h⟩ => hw ▸ .one h⟩

theorem accepts_exactly : Accepts (exactly s) w ↔ w = s.toList := by
  unfold exactly
  generalize s.toList = cs
  induction cs generalizing w with
  | nil =>
    refine ⟨fun | .empty => rfl, ?_⟩
    rintro rfl
    exact .empty
  | cons c cs ih =>
    rw [List.foldr_cons, accepts_seq]
    constructor
    · rintro ⟨u, v, rfl, hu, hv⟩
      obtain ⟨d, rfl, hd⟩ := accepts_one.mp hu
      rw [ih.mp hv, eq_of_beq hd]; rfl
    · rintro rfl
      exact ⟨[c], cs, rfl, .one (beq_self_eq_true c), ih.mpr rfl⟩

/-- A repetition of one character is any text of such characters. -/
theorem accepts_many_one : Accepts (.many (.one p)) w ↔ ∀ c ∈ w, p c = true := by
  refine ⟨fun h c hc => h.alphabet hc, fun h => ?_⟩
  induction w with
  | nil => exact .done
  | cons c w ih =>
    obtain ⟨hc, hw⟩ := List.forall_mem_cons.mp h
    exact .more (.one hc) (ih hw)

theorem accepts_plus_one : Accepts (.plus (.one p)) w ↔ w ≠ [] ∧ ∀ c ∈ w, p c = true := by
  rw [plus, accepts_seq]
  constructor
  · rintro ⟨u, v, rfl, hu, hv⟩
    obtain ⟨c, rfl, hc⟩ := accepts_one.mp hu
    exact ⟨List.cons_ne_nil _ _, List.forall_mem_cons.mpr ⟨hc, accepts_many_one.mp hv⟩⟩
  · rintro ⟨hne, h⟩
    obtain ⟨c, w, rfl⟩ := List.exists_cons_of_ne_nil hne
    obtain ⟨hc, hw⟩ := List.forall_mem_cons.mp h
    exact ⟨[c], w, rfl, .one hc, accepts_many_one.mpr hw⟩

end Pattern

/-! ## The rules -/

/-- A blank between tokens. -/
def isSpace (c : Char) : Bool := c == ' ' || c == '\t'

/-- A character of a line break. -/
def isBreak (c : Char) : Bool := c == '\n' || c == '\r'

/-- A character of a word that is not its first. -/
def isWordPart (c : Char) : Bool := isWordStart c || c.isDigit

section Rules

variable {r : Rule} {w : List Char} {c : Char}

/-- A kind has at most one rule. -/
theorem rule_unique {r r' : Rule} (hr : r ∈ rules) (hr' : r' ∈ rules) (h : r.kind = r'.kind) :
    r = r' := by
  have hkinds : (rules.map (·.kind)).Nodup := by decide
  exact List.inj_on_of_nodup_map hkinds hr hr' h

theorem accepts_blank (hr : r ∈ rules) (hk : r.kind = .blank) :
    r.pattern.Accepts w ↔ w ≠ [] ∧ ∀ c ∈ w, isSpace c = true := by
  have hmem : (⟨.blank, .plus (.one isSpace)⟩ : Rule) ∈ rules :=
    List.getElem_mem (show 0 < rules.length by decide)
  obtain rfl := rule_unique hr hmem hk
  exact Pattern.accepts_plus_one

theorem accepts_newline (hr : r ∈ rules) (hk : r.kind = .newline) :
    r.pattern.Accepts w ↔ ∃ c, w = [c] ∧ isBreak c = true := by
  have hmem : (⟨.newline, .one isBreak⟩ : Rule) ∈ rules :=
    List.getElem_mem (show 1 < rules.length by decide)
  obtain rfl := rule_unique hr hmem hk
  exact Pattern.accepts_one

/-- A string literal is any text without quotes, between two of them. -/
theorem accepts_strLit (hr : r ∈ rules) (hk : r.kind = .strLit) :
    r.pattern.Accepts w ↔ ∃ u, w = '"' :: (u ++ ['"']) ∧ '"' ∉ u := by
  have hmem : (⟨.strLit, .seq (.exactly "\"") (.seq (.many (.one (· != '"'))) (.exactly "\""))⟩ :
      Rule) ∈ rules := List.getElem_mem (show 5 < rules.length by decide)
  obtain rfl := rule_unique hr hmem hk
  simp only [Pattern.accepts_seq, Pattern.accepts_exactly, Pattern.accepts_many_one]
  constructor
  · rintro ⟨_, _, rfl, rfl, u, _, rfl, hu, rfl⟩
    exact ⟨u, rfl, fun h => by simpa using hu _ h⟩
  · rintro ⟨u, rfl, hu⟩
    refine ⟨['"'], u ++ ['"'], rfl, rfl, u, ['"'], rfl, fun c hc => ?_, rfl⟩
    rw [bne_iff_ne]
    rintro rfl
    exact hu hc

/-- A string literal starts with a quote. -/
theorem head_strLit (hr : r ∈ rules) (hk : r.kind = .strLit) (h : r.pattern.Accepts (c :: w)) :
    c = '"' := by
  obtain ⟨u, hu, -⟩ := (accepts_strLit hr hk).mp h
  exact (List.cons.inj hu).1

theorem accepts_rbrace (hr : r ∈ rules) (hk : r.kind = .rbrace) :
    r.pattern.Accepts w ↔ w = ['\x7d'] := by
  have hmem : (⟨.rbrace, .exactly "\x7d"⟩ : Rule) ∈ rules :=
    List.getElem_mem (show 20 < rules.length by decide)
  obtain rfl := rule_unique hr hmem hk
  exact Pattern.accepts_exactly

theorem accepts_stray (hr : r ∈ rules) (hk : r.kind = .stray) :
    r.pattern.Accepts w ↔ ∃ c, w = [c] := by
  have hmem : (⟨.stray, .one fun _ => true⟩ : Rule) ∈ rules :=
    List.getElem_mem (show 21 < rules.length by decide)
  obtain rfl := rule_unique hr hmem hk
  rw [Pattern.accepts_one]
  simp

/-- A character after which a text may be cut: no token but a string literal goes on after it, and
no blank, if it is not one. -/
def isSeam (c : Char) : Bool := isSpace c || isBreak c || c == '\x7d'

/-- The rules whose texts may have a character after which a text may be cut. -/
theorem kind_of_seam (hr : r ∈ rules) (hc : isSeam c = true) (h : r.pattern.alphabet c = true) :
    r.kind = .blank ∨ r.kind = .newline ∨ r.kind = .strLit ∨ r.kind = .rbrace ∨ r.kind = .stray := by
  have hcases : c = ' ' ∨ c = '\t' ∨ c = '\n' ∨ c = '\r' ∨ c = '\x7d' := by
    simpa [isSeam, isSpace, isBreak, or_assoc] using hc
  revert h
  revert r
  -- one character at a time: the table of rules is short, but not five times over
  obtain rfl | rfl | rfl | rfl | rfl := hcases <;> decide

end Rules

end ScripCheck
