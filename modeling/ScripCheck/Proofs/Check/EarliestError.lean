import ScripCheck.Proofs.Token.Lexemes
import ScripCheck.Proofs.Tree.Acceptance

/-!
# The earliest error

The first syntax error of a text points at the first token that makes the program impossible.

* `SyntaxError.place`: which token an error points at.
* `SyntaxError.At.place_eq`: tokens of a text do not overlap, so the place says where the error is.
* `lex_parse_first_error`: the tokens before the place are the beginning of a program, and with the
  token at the place they are not.
-/

namespace ScripCheck

/-- The index of the first token inside the span of the error; the number of tokens if there is
none. -/
def SyntaxError.place (ts : List Token) (e : SyntaxError) : Nat :=
  ts.findIdx fun t => decide (e.span.lo ≤ t.span.lo ∧ t.span.hi ≤ e.span.hi)

variable {src : List Char} {ts us vs : List Token} {e : SyntaxError}

theorem SyntaxError.At.place_eq (h : e.At src vs) (hts : InOrder (us ++ vs)) :
    e.place (us ++ vs) = us.length := by
  have hbefore : ∀ u ∈ us, ¬ (e.span.lo ≤ u.span.lo ∧ u.span.hi ≤ e.span.hi) := by
    rintro u hu ⟨hlo, hhi⟩
    have hu' := hts.left.nonempty u hu
    cases vs with
    | nil =>
      have hspan : e.span = .atEnd src := h
      rw [hspan] at hlo hhi
      simp only [Span.atEnd] at hlo hhi
      omega
    | cons t vs =>
      have hut := hts.le hu List.mem_cons_self
      have := h.1
      omega
  have hat : vs.findIdx (fun t => decide (e.span.lo ≤ t.span.lo ∧ t.span.hi ≤ e.span.hi)) = 0 := by
    cases vs with
    | nil => rfl
    | cons t vs => simp [List.findIdx_cons, h.1, h.2]
  rw [place, List.findIdx_append, if_neg, hat, Nat.zero_add]
  rw [List.findIdx_lt_length]
  rintro ⟨u, hu, hin⟩
  exact hbefore u hu (by simpa using hin)

/-- An error points at the end of the text exactly where no token is left. -/
theorem SyntaxError.At.atEnd_iff (h : e.At src vs) (hspans : ∀ t ∈ vs, t.span.lo < t.span.hi) :
    e.span = .atEnd src ↔ vs = [] := by
  cases vs with
  | nil => exact ⟨fun _ => rfl, fun _ => h⟩
  | cons t vs =>
    refine ⟨fun hspan => ?_, nofun⟩
    have hlt := hspans t List.mem_cons_self
    obtain ⟨hlo, hhi⟩ := h
    rw [hspan] at hlo hhi
    simp only [Span.atEnd] at hlo hhi
    omega

/-- Where a text that lexes has syntax errors, the tokens before the first of them are the beginning
of a program, and no program goes on with the next token; where there is none, the error is at the
end of the text, and the tokens are no program. -/
theorem lex_parse_first_error (hlex : lex src = .ok ts) :
    ∃ p, parse src ts = .ok p ∧ ∀ e es, p.errors = e :: es →
      (e.place ts = ts.length ↔ e.span = .atEnd src) ∧
      (∃ ws ds, Derives (ts.take (e.place ts) ++ ws) ds) ∧
      (e.place ts < ts.length → ¬ ∃ ws ds, Derives (ts.take (e.place ts + 1) ++ ws) ds) ∧
      (e.place ts = ts.length → ¬ ∃ ds, Derives ts ds) := by
  have hspelled : BooleansSpelled ts := lex_booleansSpelled hlex
  have hts := lex_inOrder hlex
  obtain ⟨p, hp, -⟩ := parse_spec src hspelled
  refine ⟨p, hp, fun e es hes => ?_⟩
  obtain ⟨us, vs, rfl, hat, hviable, hrefused, hincomplete⟩ := parse_first_error hspelled hp hes
  have hvs (t : Token) (ht : t ∈ vs) : t.span.lo < t.span.hi :=
    hts.right.nonempty t ht
  rw [hat.place_eq hts, List.take_left' rfl, hat.atEnd_iff hvs, List.length_append]
  refine ⟨by simp, hviable, fun hlt => ?_, fun heq => hincomplete (by simpa using heq)⟩
  obtain ⟨t, vs, rfl⟩ := List.exists_cons_of_length_pos (l := vs) (by omega)
  rintro ⟨ws, ds, h⟩
  refine hrefused t vs rfl ⟨ws, ds, ?_⟩
  simpa [List.take_append, List.take_of_length_le] using h

/-- In `T x 1` the third token makes the program impossible. -/
theorem lex_parse_first_error_missing :
    ∃ ts, lex "T x 1\n".toList = .ok ts ∧ (∃ ws ds, Derives (ts.take 2 ++ ws) ds) ∧
      ¬ ∃ ws ds, Derives (ts.take 3 ++ ws) ds := by
  have hlex : lex "T x 1\n".toList = .ok [⟨.ident, "T", ⟨0, 1⟩⟩, ⟨.ident, "x", ⟨2, 3⟩⟩,
      ⟨.intLit, "1", ⟨4, 5⟩⟩, ⟨.newline, "\n", ⟨5, 6⟩⟩] := by decide +kernel
  have hparse : parse "T x 1\n".toList [⟨.ident, "T", ⟨0, 1⟩⟩, ⟨.ident, "x", ⟨2, 3⟩⟩,
      ⟨.intLit, "1", ⟨4, 5⟩⟩, ⟨.newline, "\n", ⟨5, 6⟩⟩] =
      .ok ⟨[], [⟨.expected [.equals] (.text "1"), ⟨4, 5⟩⟩]⟩ := by decide +kernel
  obtain ⟨p, hp, hspec⟩ := lex_parse_first_error hlex
  obtain rfl := Except.ok.inj (hparse.symm.trans hp)
  obtain ⟨-, hviable, hrefused, -⟩ := hspec _ _ rfl
  exact ⟨_, hlex, hviable, hrefused (by decide)⟩

end ScripCheck
