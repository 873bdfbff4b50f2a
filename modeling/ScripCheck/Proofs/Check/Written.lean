import ScripCheck.Check
import ScripCheck.Proofs.Draft.Phrase
import ScripCheck.Proofs.Tree.Acceptance

/-!
# Drafts are read back

* `Draft.lex_chars`: the text of a draft has the tokens of a program.
* `Draft.check_chars`: checking the text of a draft gives what the draft says.
-/

namespace ScripCheck

namespace Draft

theorem lex_chars (ds : List Declaration) : ∃ ts xs, lex (ds.flatMap Declaration.chars) = .ok ts ∧
    Derives ts xs ∧ List.Forall₂ Declaration.Matches ds xs := by
  obtain ⟨last, hcuts⟩ := cuts_draft ds none
  obtain ⟨ts, ⟨xs, hxs, hmatches⟩, htokens, hstrays⟩ := hcuts [] 0 nofun
  rw [lexemes_nil, List.append_nil] at htokens hstrays
  have hderives := Derives.intro hxs
  rw [List.filterMap_map, Function.id_comp, List.filterMap_some] at hderives
  refine ⟨ts, xs, ?_, hderives, hmatches⟩
  rw [lex_of_no_strays hstrays, htokens]
  simp [dropLayout]

/-- The text of a draft is checked without errors, and the declarations of the program are those of
the draft. -/
theorem check_chars (ds : List Declaration) : ∃ program,
    check (ds.flatMap Declaration.chars) = .ok program ∧
      List.Forall₂ Declaration.Matches ds program.declarations := by
  obtain ⟨ts, xs, hlex, hderives, hmatches⟩ := lex_chars ds
  refine ⟨⟨xs, ⟨0, (ds.flatMap Declaration.chars).length⟩⟩, ?_, hmatches⟩
  rw [check, hlex]
  dsimp only
  rw [checkTokens, hderives.parse]
  rfl

/-- The text of a function with one global variable in its body. -/
example :
    let f : Word := ⟨'f', [], by decide, by simp, by decide⟩
    let t : Word := ⟨'T', [], by decide, by simp, by decide⟩
    let x : Word := ⟨'x', ['0'], by decide, by simp [isWordPart], by decide⟩
    Declaration.chars (.func ⟨f, []⟩ [] [.global ⟨t, ⟨x, []⟩, .int (-1) (by decide)⟩]) =
      "func f() \x7b\nglobal T x0 = -1\n\x7d\n".toList := by
  decide

end Draft

end ScripCheck
