import ScripCheck.Proofs.Token.Layout
import ScripCheck.Proofs.Tree.Acceptance

/-!
# A declaration by itself

The tokens of a declaration, with a line break behind them where one is kept, are a program with
this one declaration. An item of a body can stand at top level as well.

* `Declared`: the declarations of a program, and the items in the bodies of its functions.
* `LonePhrase`: the tokens of one of these, without the line break that ends it.
* `Derives.declared`: in a program they stand together.
* `LonePhrase.derives`: they are a program of their own.
-/

namespace ScripCheck

/-- The node is one of the declarations, or an item in the body of one of them. -/
inductive Declared (ds : List Decl) : Decl → Prop where
  | top {d : Decl} (mem : d ∈ ds) : Declared ds d
  | body {f : FuncDef} {i : Item} (func : .func f ∈ ds) (mem : i ∈ f.body.body) :
    Declared ds (.item i)

/-- A declaration, without the line break that ends it. -/
inductive LonePhrase : List Token → Decl → Prop where
  | item {us : List Token} {i : Item} (item : ItemPhrase us i) : LonePhrase us (.item i)
  | func {us : List Token} {f : FuncDef} (func : FuncPhrase us f) : LonePhrase us (.func f)

section Phrases

variable {us ts : List Token} {d : Decl} {ds : List Decl} {t : Token}

/-! ## Among the tokens of a program -/

theorem Star.exists_phrase {α : Type} {L : List Token → α → Prop} {a : α} {as : List α}
    (h : Star L us as) (ha : a ∈ as) : ∃ vs, vs <:+: us ∧ L vs a := by
  induction h with
  | nil => cases ha
  | @cons us vs b as head tail ih =>
    rcases List.mem_cons.mp ha with rfl | ha
    · exact ⟨us, (List.prefix_append us vs).isInfix, head⟩
    · obtain ⟨ws, hws, h⟩ := ih ha
      exact ⟨ws, hws.trans (List.suffix_append us vs).isInfix, h⟩

theorem PartPhrase.exists_item {i : Item} (h : PartPhrase us (some i)) :
    ∃ vs, vs <:+: us ∧ ItemPhrase vs i := by
  cases h with
  | @item us i t item newline => exact ⟨us, (List.prefix_append us [t]).isInfix, item⟩

theorem DeclPhrase.exists_lone (h : DeclPhrase us (some d)) : ∃ vs, vs <:+: us ∧ LonePhrase vs d := by
  generalize hd : some d = o at h
  cases h with
  | @part i part =>
    obtain ⟨i, rfl, rfl⟩ := Option.map_eq_some_iff.mp hd.symm
    obtain ⟨vs, hvs, item⟩ := part.exists_item
    exact ⟨vs, hvs, .item item⟩
  | func func =>
    obtain rfl := Option.some.inj hd
    exact ⟨us, List.infix_rfl, .func func⟩

theorem FuncPhrase.exists_item {f : FuncDef} {i : Item} (h : FuncPhrase us f)
    (hi : i ∈ f.body.body) : ∃ vs, vs <:+: us ∧ ItemPhrase vs i := by
  cases h with
  | @intro l r us vs n ns is header lbrace body rbrace =>
    have hsome : some i ∈ is := by simpa using hi
    obtain ⟨ws, hws, part⟩ := body.exists_phrase hsome
    obtain ⟨xs, hxs, item⟩ := part.exists_item
    refine ⟨xs, (hxs.trans hws).trans ⟨us ++ [l], [r], ?_⟩, item⟩
    simp

/-- The tokens of a declaration, or of an item in a body, stand together in a program. -/
theorem Derives.declared (h : Derives ts ds) (hd : Declared ds d) :
    ∃ us, us <:+: ts ∧ LonePhrase us d := by
  have htop (d : Decl) (hd : d ∈ ds) : ∃ us, us <:+: ts ∧ LonePhrase us d := by
    cases h with
    | @intro ds parts =>
      have hsome : some d ∈ ds := by simpa using hd
      obtain ⟨us, hus, decl⟩ := parts.exists_phrase hsome
      obtain ⟨vs, hvs, lone⟩ := decl.exists_lone
      exact ⟨vs, hvs.trans hus, lone⟩
  cases hd with
  | top mem => exact htop d mem
  | body func mem =>
    obtain ⟨us, hus, lone⟩ := htop _ func
    cases lone with
    | func func =>
      obtain ⟨vs, hvs, item⟩ := func.exists_item mem
      exact ⟨vs, hvs.trans hus, .item item⟩

/-! ## As a program -/

theorem LonePhrase.starts (h : LonePhrase us d) : Starts declarationStarts us := by
  rw [← List.append_nil us]
  cases h with
  | item item => exact item.starts.mono (by decide)
  | func func => exact func.starts.mono (by decide)

theorem LonePhrase.span_eq (h : LonePhrase us d) : d.span = cover us := by
  cases h with
  | item item =>
    cases item with
    | var var => cases var; rfl
    | global word var => rfl
  | func func => cases func; rfl

/-- A variable ends in a literal. -/
theorem ItemPhrase.ends {i : Item} (h : ItemPhrase us i) :
    ∃ vs v, us = vs ++ [v] ∧ v.kind ∈ literalKinds := by
  have hvar {us : List Token} {d : VarDef} (h : VarPhrase us d) :
      ∃ vs v, us = vs ++ [v] ∧ v.kind ∈ literalKinds := by
    cases h with
    | @intro t e v us n x type name equals value =>
      exact ⟨t :: (us ++ [e]), v, by simp, value.kind_mem⟩
  cases h with
  | var var => exact hvar var
  | @global g us d word var =>
    obtain ⟨vs, v, rfl, hv⟩ := hvar var
    exact ⟨g :: vs, v, rfl, hv⟩

theorem FuncPhrase.ends {f : FuncDef} (h : FuncPhrase us f) :
    ∃ vs r, us = vs ++ [r] ∧ r.kind = .rbrace := by
  cases h with
  | @intro l r us vs n ns is header lbrace body rbrace =>
    exact ⟨us ++ l :: vs, r, by simp, rbrace⟩

theorem lastKind_concat (last : Option Kind) (us : List Token) (t : Token) :
    lastKind last (us ++ [t]) = some t.kind := by
  simp [lastKind]

theorem lastKind_shift (n : Int) (us : List Token) :
    lastKind none (us.map (Token.shift n)) = lastKind none us := by
  simp [lastKind, Function.comp_def, Token.shift]

theorem DeclPhrase.derives (h : DeclPhrase us (some d)) : Derives us [d] := by
  have hderives := Derives.intro (Star.cons h .nil)
  rwa [List.append_nil] at hderives

/-- With a line break behind it, if this is kept there, a declaration is a program. -/
theorem LonePhrase.derives (h : LonePhrase us d) (ht : t.kind = .newline) :
    Derives (us ++ if (lastKind none us).all Kind.absorbsNewline then [] else [t]) [d] := by
  cases h with
  | item item =>
    obtain ⟨vs, v, rfl, hv⟩ := item.ends
    have hkept : ∀ k ∈ literalKinds, k.absorbsNewline = false := by decide
    rw [lastKind_concat, Option.all_some, hkept _ hv]
    exact DeclPhrase.derives (.part (.item item ht))
  | func func =>
    obtain ⟨vs, r, rfl, hr⟩ := func.ends
    have hdropped : Kind.rbrace.absorbsNewline = true := rfl
    rw [lastKind_concat, Option.all_some, hr, if_pos hdropped, List.append_nil]
    exact DeclPhrase.derives (.func func)

end Phrases

end ScripCheck
