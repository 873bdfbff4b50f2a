import ScripCheck.Proofs.Token.Respaced
import ScripCheck.Proofs.Tree.Frame

/-!
# Reading does not depend on blanks

* `Likeness.respelled`, `parse_respelled`: tokens are read by their kinds and texts only.
* `lex_parse_respaced`: a text with other blanks between its tokens.
-/

namespace ScripCheck

variable {src : List Char} {ts us : List Token}

theorem length_concat_eq {α : Type} {as bs : List α} (h : bs.length = as.length) (a b : α) :
    (bs ++ [b]).length = (as ++ [a]).length := by
  rw [List.length_append, List.length_append, h, List.length_singleton, List.length_singleton]

/-- Two lists of the same tokens at any places. -/
def Likeness.respelled (src src' : List Char) : Likeness src src' where
  span _ _ := True
  value := Eq
  token t u := u.spelling = t.spelling
  errors es es' := es'.length = es.length
  kind h := Token.kind_of_spelling h
  place _ := trivial
  text h _ := Token.text_of_spelling h
  same _ := rfl
  unquoted h _ := by rw [Token.text_of_spelling h]
  reach _ _ := trivial
  atEnd := trivial
  missing h _ := length_concat_eq h _ _
  missingEnd h := length_concat_eq h _ _
  numeral h _ _ := length_concat_eq h _ _
  skipped _ h _ _ _ := length_concat_eq h _ _

/-- The same tokens are read alike, wherever they stand. -/
theorem parse_respelled (src src' : List Char) (h : us.map Token.spelling = ts.map Token.spelling)
    (hspelled : BooleansSpelled ts) : ∃ p p', parse src ts = .ok p ∧ parse src' us = .ok p' ∧
      p'.declarations.map Decl.bare = p.declarations.map Decl.bare ∧
      p'.errors.length = p.errors.length := by
  obtain ⟨ds, s, hrun, -⟩ := decls_found src (s := ⟨ts, [], []⟩) hspelled
  have htokens : List.Forall₂ (Likeness.respelled src src').token ts us := by
    have heq : List.Forall₂ Eq (ts.map Token.spelling) (us.map Token.spelling) :=
      List.forall₂_eq_eq_eq ▸ h.symm
    rw [List.forall₂_map_left_iff, List.forall₂_map_right_iff] at heq
    exact heq.imp fun _ _ => Eq.symm
  have hstart : (Likeness.respelled src src').Cursors NoneOpen ⟨ts, [], []⟩ ⟨us, [], []⟩ :=
    ⟨htokens, ⟨rfl, rfl⟩, rfl⟩
  have hlike := Likeness.decls NoneOpen (widens_noneOpen _) _ _ hstart
  rw [hrun] at hlike
  generalize hrun' : decls src' ⟨us, [], []⟩ = o at hlike
  cases hlike with
  | found value cursors =>
    have hdecls := Likeness.forall₂_filterMap value
    exact ⟨_, _, parse_of_decls hrun, parse_of_decls hrun',
      forall₂_map_eq hdecls fun _ _ hd => hd.bare_eq, cursors.errors⟩

/-- The texts of the tokens of a text, with any blanks between them, have the same tokens. Reading
them gives the same declarations, but for spans, and equally many errors. -/
theorem lex_parse_respaced {bs : List (List Char)} (hlex : lex src = .ok ts)
    (hlength : bs.length = ts.length - 1) (hbs : ∀ b ∈ bs, b ≠ [] ∧ ∀ c ∈ b, isSpace c = true) :
    ∃ us p p', lex (respaced ts bs) = .ok us ∧ us.map Token.spelling = ts.map Token.spelling ∧
      parse src ts = .ok p ∧ parse (respaced ts bs) us = .ok p' ∧
      p'.declarations.map Decl.bare = p.declarations.map Decl.bare ∧
      p'.errors.length = p.errors.length := by
  obtain ⟨us, hus, hspelling⟩ := lex_respaced hlex hlength hbs
  obtain ⟨p, p', hp, hp', hdecls, herrors⟩ :=
    parse_respelled src (respaced ts bs) hspelling (lex_booleansSpelled hlex)
  exact ⟨us, p, p', hus, hspelling, hp, hp', hdecls, herrors⟩

/-- With blanks around the dot, `T a.b` has the same error at its end. -/
theorem lex_parse_respaced_dot : ∃ us p p',
    lex "T\ta . b \n".toList = .ok us ∧ us.length = 5 ∧ parse "T a.b\n".toList
      [⟨.ident, "T", ⟨0, 1⟩⟩, ⟨.ident, "a", ⟨2, 3⟩⟩, ⟨.dot, ".", ⟨3, 4⟩⟩, ⟨.ident, "b", ⟨4, 5⟩⟩,
        ⟨.newline, "\n", ⟨5, 6⟩⟩] = .ok p ∧
    parse "T\ta . b \n".toList us = .ok p' ∧
    p'.declarations.map Decl.bare = p.declarations.map Decl.bare ∧
    p'.errors.length = p.errors.length := by
  have hlex : lex "T a.b\n".toList = .ok [⟨.ident, "T", ⟨0, 1⟩⟩, ⟨.ident, "a", ⟨2, 3⟩⟩,
      ⟨.dot, ".", ⟨3, 4⟩⟩, ⟨.ident, "b", ⟨4, 5⟩⟩, ⟨.newline, "\n", ⟨5, 6⟩⟩] := by decide +kernel
  have hbs : ∀ b ∈ [['\t'], [' '], [' '], [' ']], b ≠ [] ∧ ∀ c ∈ b, isSpace c = true := by
    simp [isSpace]
  obtain ⟨us, p, p', hus, hspelling, hp, hp', hdecls, herrors⟩ := lex_parse_respaced hlex rfl hbs
  have hlength := congrArg List.length hspelling
  rw [List.length_map, List.length_map] at hlength
  exact ⟨us, p, p', hus, hlength, hp, hp', hdecls, herrors⟩

end ScripCheck
