import ScripCheck.Proofs.Tree.FirstError

/-!
# What is accepted

* `parse_accepts`: reading tokens gives no error exactly where they are a program, and then the
  declarations of the program.
* `derives_of_run`: tokens that lead from the start back to the start are a program, so
  `Expectation` is the grammar once more, as a machine.
* `parse_first_error`: the first error is about the first token that no program can have there.
-/

namespace ScripCheck

open Expectation

variable {src : List Char} {ts : List Token}

/-- A program is read without errors. -/
theorem Derives.parse {ds : List Decl} (h : Derives ts ds) : parse src ts = .ok ⟨ds, []⟩ := by
  cases h with
  | intro parts =>
    have hs : (⟨ts, [], []⟩ : Cursor).rest = ts ++ [] := (List.append_nil ts).symm
    have hstop : decls src ((⟨ts, [], []⟩ : Cursor).past ts []) = .found [] _ :=
      whileAt_stop _ rfl
    have hrun := decls_run src parts hs
    rw [hstop, Outcome.map, List.append_nil] at hrun
    exact parse_of_decls hrun

/-- What is read without errors is a program. -/
theorem Derives.of_parse {ds : List Decl} (hts : BooleansSpelled ts)
    (h : ScripCheck.parse src ts = .ok ⟨ds, []⟩) : Derives ts ds := by
  obtain ⟨p, hp, ⟨-, hds⟩ | ⟨e, es, hes, -⟩⟩ := parse_spec src hts
  · obtain rfl := Except.ok.inj (h.symm.trans hp)
    exact hds
  · obtain rfl := Except.ok.inj (h.symm.trans hp)
    cases hes

/-- Tokens are read without a fault. There are no errors exactly where the tokens are a program, and
what is read is the tree of its derivation, spans included. -/
theorem parse_accepts (src : List Char) (ts : List Token) (hts : BooleansSpelled ts) :
    ∃ p, parse src ts = .ok p ∧ (p.errors = [] ↔ ∃ ds, Derives ts ds) ∧
      ∀ ds, Derives ts ds → p.declarations = ds := by
  obtain ⟨p, hp, hspec⟩ := parse_spec src hts
  have hcomplete (ds : List Decl) (h : Derives ts ds) : p = ⟨ds, []⟩ :=
    Except.ok.inj (hp.symm.trans h.parse)
  refine ⟨p, hp, ⟨fun herrors => ?_, ?_⟩, fun ds h => by rw [hcomplete ds h]⟩
  · rcases hspec with ⟨-, h⟩ | ⟨e, es, hes, -⟩
    · exact ⟨_, h⟩
    · rw [herrors] at hes; cases hes
  · rintro ⟨ds, h⟩
    rw [hcomplete ds h]

/-- The tokens of `T x = True` are a program, which reading them shows. -/
theorem parse_accepts_boolean :
    let ts : List Token := [⟨.ident, "T", ⟨0, 1⟩⟩, ⟨.ident, "x", ⟨2, 3⟩⟩, ⟨.equals, "=", ⟨4, 5⟩⟩,
      ⟨.boolLit, "True", ⟨6, 10⟩⟩, ⟨.newline, "\n", ⟨10, 11⟩⟩]
    BooleansSpelled ts ∧ ∃ ds, Derives ts ds := by
  intro ts
  have hspelled : BooleansSpelled ts := by simp [BooleansSpelled, ts]
  have hparse : (parse [] ts).toOption.map (·.errors) = some [] := by decide +kernel
  obtain ⟨p, hp, hiff, -⟩ := parse_accepts [] ts hspelled
  refine ⟨hspelled, hiff.mp ?_⟩
  rw [hp] at hparse
  exact Option.some.inj hparse

/-! ## The grammar as a machine -/

theorem derives_of_run (h : Run (start false) ts (start false)) : ∃ ds, Derives ts ds := by
  obtain ⟨p, -, ⟨-, hds⟩ | ⟨e, es, -, us, vs, q, rfl, hrun, hrefuses, -⟩⟩ :=
    parse_spec [] h.booleansSpelled
  · exact ⟨_, hds⟩
  · exact absurd h (hrefuses.not_run hrun)

/-- The tokens before the first error are the beginning of a program, and no program has the next
token there; where there is none, the tokens are no program. -/
theorem parse_first_error {p : Parsed} {e : SyntaxError} {es : List SyntaxError}
    (hts : BooleansSpelled ts) (hp : parse src ts = .ok p) (hes : p.errors = e :: es) :
    ∃ us vs, ts = us ++ vs ∧ e.At src vs ∧ (∃ ws ds, Derives (us ++ ws) ds) ∧
      (∀ t vs', vs = t :: vs' → ¬ ∃ ws ds, Derives (us ++ t :: ws) ds) ∧
      (vs = [] → ¬ ∃ ds, Derives ts ds) := by
  obtain ⟨p', hp', hspec⟩ := parse_spec src hts
  obtain rfl : p = p' := Except.ok.inj (hp.symm.trans hp')
  rcases hspec with ⟨hnone, -⟩ | ⟨e', es', hes', us, vs, q, rfl, hrun, hrefuses, hat⟩
  · rw [hnone] at hes; cases hes
  · obtain ⟨rfl, rfl⟩ : e = e' ∧ es = es' := by simpa using hes.symm.trans hes'
    obtain ⟨ws, hws⟩ := completable q
    refine ⟨us, vs, rfl, hat, ⟨ws, derives_of_run (hrun.append hws)⟩, ?_, ?_⟩
    · rintro t vs' rfl ⟨ws, ds, h⟩
      have hrefuses' : q.Refuses (t :: ws) := hrefuses
      exact hrefuses'.not_run hrun h.run
    · rintro - ⟨ds, h⟩
      exact hrefuses.not_run hrun h.run

end ScripCheck
