import ScripCheck.Proofs.Check.Concat
import ScripCheck.Proofs.Check.Nodes
import ScripCheck.Proofs.Token.Literal
import ScripCheck.Proofs.Tree.Alone
import ScripCheck.Proofs.Tree.Outline

/-!
# Dumps of checked programs

The names of a program that was read from a text are rows of words with points between them, so
they can be told apart in its dump.

* `lex_ident`: the characters of a word. `check_plain`: the names of a program are made of these.
* `dump_faithful`: the dump of a program tells all of it but the spans.
-/

namespace ScripCheck

variable {src src' : List Char} {ts us : List Token} {t : Token} {n : Name} {p q : Program}

/-! ## Names -/

theorem lex_ident (h : lex src = .ok ts) (ht : t ∈ ts) (hk : t.kind = .ident) :
    ∀ c ∈ t.text.toList, isWordPart c = true := by
  obtain ⟨r, hr, haccepts, hkind⟩ := lexemes_rule ((lex_sublist h).subset ht)
  have hrule : r.kind = .ident := by
    unfold Kind.refine at hkind
    split at hkind
    · assumption
    · exact hkind.trans hk
  obtain ⟨c, cs, htext, hc, hcs⟩ := (accepts_ident hr hrule).mp haccepts
  rw [htext]
  exact List.forall_mem_cons.mpr ⟨by simp [isWordPart, hc], hcs⟩

theorem of_mem_intercalate {α : Type} {sep : List α} {xs : List (List α)} {a : α}
    (h : a ∈ sep.intercalate xs) : a ∈ sep ∨ ∃ x ∈ xs, a ∈ x := by
  induction xs with
  | nil => simp at h
  | cons x xs ih =>
    cases xs with
    | nil => exact .inr ⟨x, List.mem_cons_self, by simpa using h⟩
    | cons y ys =>
      rw [List.intercalate_cons_cons, List.mem_append, List.mem_append] at h
      rcases h with (h | h) | h
      · exact .inr ⟨x, List.mem_cons_self, h⟩
      · exact .inl h
      · exact (ih h).imp_right fun ⟨z, hz, ha⟩ => ⟨z, List.mem_cons_of_mem x hz, ha⟩

theorem NamePhrase.plain (h : NamePhrase us n)
    (hus : ∀ t ∈ us, t.kind = .ident → ∀ c ∈ t.text.toList, isWordPart c = true) : n.Plain := by
  cases h with
  | @intro t us ws word more =>
    have hwords : ∀ w ∈ t :: ws, ∀ c ∈ w.text.toList, isWordPart c = true := by
      refine List.forall_mem_cons.mpr ⟨hus t List.mem_cons_self word, fun w hw => ?_⟩
      obtain ⟨vs, hvs, phrase⟩ := more.exists_phrase hw
      cases phrase with
      | intro dot word => exact hus w (List.mem_cons_of_mem t (hvs.subset (by simp))) word
    intro c hc
    rw [String.toList_intercalate] at hc
    rcases of_mem_intercalate hc with hc | ⟨cs, hcs, hc⟩
    · exact .inr (by simpa using hc)
    · simp only [List.map_map, List.mem_map] at hcs
      obtain ⟨w, hw, rfl⟩ := hcs
      exact .inl (hwords w hw c hc)

/-- The names of a program are made of words and points. -/
theorem check_plain (h : check src = .ok p) : ∀ d ∈ p.declarations, d.node.Plain := by
  obtain ⟨ts, hlex, hparse⟩ := check_eq_ok h
  obtain ⟨ds, es, hreads, hstar⟩ := parse_reads src (lex_booleansSpelled hlex)
  obtain ⟨hdecls, -⟩ : p.declarations = ds.filterMap id ∧ [] = es := by
    simpa using hparse.symm.trans hreads
  have hlaid : Laid [] ts (p.declarations.map Decl.node) :=
    hdecls ▸ laid_star_option (fun _ _ _ => laid_decl) hstar
  intro d hd n hn
  obtain ⟨pre, us, post, hts, phrase, -⟩ := (hlaid.stands (List.mem_map_of_mem hd)).within hn
  cases phrase with
  | name name =>
    refine name.plain fun t ht hk => lex_ident hlex ?_ hk
    rw [← List.append_nil ts, hts]
    exact List.mem_append_right pre (List.mem_append_left post ht)

/-! ## Dumps -/

theorem Item.outline_mapSpan (f : Span → Span) (i : Item) : (i.mapSpan f).outline = i.outline := by
  cases i <;> rfl

theorem Decl.outline_bare (d : Decl) : d.bare.outline = d.outline := by
  cases d with
  | item i => exact i.outline_mapSpan _
  | func f =>
    simp only [Decl.bare, Decl.mapSpan, Decl.outline, FuncDef.mapSpan, Block.mapSpan, List.map_map,
      Function.comp_def, Name.mapSpan, Item.outline_mapSpan]

/-- Whichever characters are printable, two programs have the same dump exactly if they are the
same, spans apart. -/
theorem dump_faithful (printable : Char → Bool) (hp : check src = .ok p) (hq : check src' = .ok q) :
    p.dumpBy printable = q.dumpBy printable ↔
      p.declarations.map Decl.bare = q.declarations.map Decl.bare := by
  refine ⟨bare_of_dumpBy (check_plain hp) (check_plain hq), fun h => ?_⟩
  have houtlines (p : Program) : p.declarations.map Decl.outline =
      (p.declarations.map Decl.bare).map Decl.outline := by
    simp [Function.comp_def, Decl.outline_bare]
  rw [Program.dumpBy, Program.dumpBy, houtlines p, houtlines q, h]

/-- `func f(a){` with `T x="'"` and `}` on the next lines, and the same with more blanks. -/
theorem dump_faithful_respaced :
    let src := "func f(a)\x7b\nT x=\"'\"\n\x7d".toList
    let src' := "func f( a )\x7b\n  T x = \"'\"\n\x7d".toList
    ∃ p q, check src = .ok p ∧ check src' = .ok q ∧ p.dump = q.dump ∧ p.declarations ≠ [] ∧
      p.declarations ≠ q.declarations ∧
      p.declarations.map Decl.bare = q.declarations.map Decl.bare := by
  intro src src'
  let x : VarDef := ⟨⟨"T", ⟨11, 12⟩⟩, ⟨"x", ⟨13, 14⟩⟩, ⟨.str "'", ⟨15, 18⟩⟩, ⟨11, 18⟩⟩
  let f : FuncDef := ⟨⟨"f", ⟨5, 6⟩⟩, [⟨"a", ⟨7, 8⟩⟩], ⟨[.var x], ⟨9, 20⟩⟩, ⟨0, 20⟩⟩
  let x' : VarDef := ⟨⟨"T", ⟨15, 16⟩⟩, ⟨"x", ⟨17, 18⟩⟩, ⟨.str "'", ⟨21, 24⟩⟩, ⟨15, 24⟩⟩
  let f' : FuncDef := ⟨⟨"f", ⟨5, 6⟩⟩, [⟨"a", ⟨8, 9⟩⟩], ⟨[.var x'], ⟨11, 26⟩⟩, ⟨0, 26⟩⟩
  have hok {src : List Char} {p : Program} (h : (check src).toOption = some p) :
      check src = .ok p := by
    cases hcheck : check src with
    | error e => rw [hcheck] at h; cases h
    | ok q => rw [hcheck] at h; cases h; rfl
  have hp : check src = .ok ⟨[.func f], ⟨0, 20⟩⟩ := hok (by decide +kernel)
  have hq : check src' = .ok ⟨[.func f'], ⟨0, 26⟩⟩ := hok (by decide +kernel)
  have hdump : (⟨[.func f], ⟨0, 20⟩⟩ : Program).dump = (⟨[.func f'], ⟨0, 26⟩⟩ : Program).dump :=
    congrArg Outline.dump rfl
  exact ⟨_, _, hp, hq, hdump, by simp, by decide, (dump_faithful isPrintable hp hq).mp hdump⟩

end ScripCheck
