import ScripCheck.Proofs.Token.Lexemes

/-!
# Tokens and errors of some lexemes

* `solid`: the lexemes without blanks. Errors and tokens depend on no others: `strays_solid`,
  `dropLayout_solid`.
* `strays_append`, `dropLayout_append`: errors and tokens of lexemes one after another. Of the first
  ones only the kind of the last token matters (`lastKind`), and it does not matter if it absorbs
  line breaks: `dropLayout_absorbs`.
* `strays_shift`, `dropLayout_shift`: they move with the lexemes.
-/

namespace ScripCheck

/-- The error moved `d` places to the right. -/
def LexError.shift (d : Int) (e : LexError) : LexError := { e with span := e.span.shift d }

/-- The lexemes without the blanks. -/
def solid (ts : List Token) : List Token := ts.filter (·.kind ≠ .blank)

/-- The kind of the last token, or of the token before. -/
def lastKind (last : Option Kind) (ts : List Token) : Option Kind :=
  (ts.getLast?.map (·.kind)).or last

section Layout

variable {ts us : List Token} {last : Option Kind} {t : Token}

theorem solid_cons (t : Token) (ts : List Token) :
    solid (t :: ts) = if t.kind = .blank then solid ts else t :: solid ts := by
  unfold solid
  rw [List.filter_cons]
  by_cases h : t.kind = .blank <;> simp [h]

theorem strays_solid (ts : List Token) : strays (solid ts) = strays ts := by
  induction ts with
  | nil => rfl
  | cons t ts ih =>
    rw [solid_cons]
    split
    · next h => rw [ih, strays, if_neg (by simp [h])]
    · rw [strays, ih, strays]

theorem dropLayout_solid (last : Option Kind) (ts : List Token) :
    dropLayout last (solid ts) = dropLayout last ts := by
  induction ts generalizing last with
  | nil => rfl
  | cons t ts ih =>
    rw [solid_cons]
    split
    · next h => rw [ih, dropLayout, if_pos (.inl h)]
    · simp only [dropLayout, ih]

/-- Lexemes without strays have no errors. -/
theorem strays_append (h : ∀ t ∈ ts, t.kind ≠ .stray) (us : List Token) :
    strays (ts ++ us) = strays us := by
  induction ts with
  | nil => rfl
  | cons t ts ih =>
    obtain ⟨ht, hts⟩ := List.forall_mem_cons.mp h
    rw [List.cons_append, strays, if_neg ht, ih hts]

theorem strays_eq_nil : strays ts = [] ↔ ∀ t ∈ ts, t.kind ≠ .stray := by
  refine ⟨fun h => ?_, fun h => ?_⟩
  · induction ts with
    | nil => exact nofun
    | cons t ts ih =>
      rw [strays] at h
      split at h
      · split at h
        · cases h
        · split at h <;> cases h
      · next ht => exact List.forall_mem_cons.mpr ⟨ht, ih h⟩
  · have happend := strays_append h []
    rwa [List.append_nil] at happend

theorem lastKind_cons (t : Token) (ts : List Token) (last : Option Kind) :
    lastKind last (t :: ts) = lastKind (some t.kind) ts := by
  unfold lastKind
  cases ts with
  | nil => rfl
  | cons u us => rw [List.getLast?_cons_cons]; cases h : (u :: us).getLast? <;> simp_all

theorem dropLayout_append (last : Option Kind) (ts us : List Token) :
    dropLayout last (ts ++ us) =
      dropLayout last ts ++ dropLayout (lastKind last (dropLayout last ts)) us := by
  induction ts generalizing last with
  | nil => rfl
  | cons t ts ih =>
    rw [List.cons_append, dropLayout, dropLayout]
    split
    · exact ih last
    · split
      · exact ih last
      · rw [ih, lastKind_cons]; rfl

/-- Behind a token that absorbs line breaks, tokens are dropped as at the start of a text. -/
theorem dropLayout_absorbs {k : Kind} (hk : k.absorbsNewline = true) (ts : List Token) :
    dropLayout (some k) ts = dropLayout none ts := by
  induction ts with
  | nil => rfl
  | cons t ts ih => simp only [dropLayout, ih, Option.all_some, Option.all_none, hk]

/-! ## Moving lexemes -/

theorem dropLayout_shift (d : Int) (last : Option Kind) (ts : List Token) :
    dropLayout last (ts.map (Token.shift d)) = (dropLayout last ts).map (Token.shift d) := by
  have hkind (t : Token) : (t.shift d).kind = t.kind := rfl
  induction ts generalizing last with
  | nil => rfl
  | cons t ts ih =>
    simp only [List.map_cons, dropLayout, hkind]
    split
    · exact ih last
    · split
      · exact ih last
      · rw [ih, List.map_cons]

theorem strays_shift (d : Int) (ts : List Token) :
    strays (ts.map (Token.shift d)) = (strays ts).map (LexError.shift d) := by
  induction ts with
  | nil => rfl
  | cons t ts ih =>
    have hkind : (t.shift d).kind = t.kind := rfl
    simp only [List.map_cons, strays, hkind, ih]
    split
    · cases strays ts with
      | nil => rfl
      | cons e es =>
        have htouch : (t.shift d).span.hi = (e.shift d).span.lo ↔ t.span.hi = e.span.lo := by
          simp only [Token.shift, LexError.shift, Span.shift]
          omega
        simp only [List.map_cons, htouch]
        split <;> rfl
    · rfl

end Layout

end ScripCheck
