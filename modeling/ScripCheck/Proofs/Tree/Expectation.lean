import ScripCheck.Proofs.Tree.Grammar

/-!
# What may come next

What the grammar lets follow some tokens depends on one of a few expectations. A token either leads
from one of them to the next, or it makes the program impossible.

* `Expectation.Step`, `Expectation.Run`: where a token, or a list of tokens, leads.
* `Derives.run`: the tokens of a program lead from the start back to the start.
* `Expectation.completable`: from everywhere some tokens lead back to the start.
* `Expectation.Refuses`: neither the next token nor the end is expected.
-/

namespace ScripCheck

/-- What a name is for. -/
inductive NameUse where
  | var (inBody : Bool)
  | func
  | param

/-- What may come next. -/
inductive Expectation where
  /-- A declaration, or the end of the program or body. -/
  | start (inBody : Bool)
  /-- The type of a global variable. -/
  | type (inBody : Bool)
  /-- A word of a name. -/
  | word (use : NameUse)
  /-- A dot, or what follows the name. -/
  | wordEnd (use : NameUse)
  /-- A literal. -/
  | value (inBody : Bool)
  /-- The line break after a variable. -/
  | lineEnd (inBody : Bool)
  /-- The first parameter, or the end of the parameters. -/
  | params
  /-- The brace that opens a body. -/
  | opening

namespace Expectation

/-- The token leads from the first expectation to the second. -/
inductive Step : Expectation → Token → Expectation → Prop where
  | blank {t : Token} {b : Bool} (h : t.kind = .newline) : Step (start b) t (start b)
  | global {t : Token} {b : Bool} (h : t.kind = .globalWord) : Step (start b) t (type b)
  | firstType {t : Token} {b : Bool} (h : t.kind = .ident) : Step (start b) t (word (.var b))
  | type {t : Token} {b : Bool} (h : t.kind = .ident) : Step (type b) t (word (.var b))
  | word {t : Token} {u : NameUse} (h : t.kind = .ident) : Step (word u) t (wordEnd u)
  | dot {t : Token} {u : NameUse} (h : t.kind = .dot) : Step (wordEnd u) t (word u)
  | equals {t : Token} {b : Bool} (h : t.kind = .equals) : Step (wordEnd (.var b)) t (value b)
  | value {t : Token} {b : Bool} {v : Value} (h : Denotes t v) : Step (value b) t (lineEnd b)
  | lineEnd {t : Token} {b : Bool} (h : t.kind = .newline) : Step (lineEnd b) t (start b)
  | func {t : Token} (h : t.kind = .funcWord) : Step (start false) t (word .func)
  | lparen {t : Token} (h : t.kind = .lparen) : Step (wordEnd .func) t params
  | firstParam {t : Token} (h : t.kind = .ident) : Step params t (wordEnd .param)
  | comma {t : Token} (h : t.kind = .comma) : Step (wordEnd .param) t (word .param)
  | noParams {t : Token} (h : t.kind = .rparen) : Step params t opening
  | rparen {t : Token} (h : t.kind = .rparen) : Step (wordEnd .param) t opening
  | lbrace {t : Token} (h : t.kind = .lbrace) : Step opening t (start true)
  | rbrace {t : Token} (h : t.kind = .rbrace) : Step (start true) t (start false)

/-- The tokens lead from the first expectation to the second. -/
def Run : Expectation → List Token → Expectation → Prop
  | q, [], q' => q = q'
  | q, t :: ts, q' => ∃ q₁, Step q t q₁ ∧ Run q₁ ts q'

/-- The next token leads nowhere; or there is none, and the program may not end here. -/
def Refuses (q : Expectation) : List Token → Prop
  | [] => q ≠ start false
  | t :: _ => ∀ q', ¬ Step q t q'

variable {q q₁ q₂ : Expectation} {t : Token} {us vs : List Token}

theorem Step.unique (h₁ : Step q t q₁) (h₂ : Step q t q₂) : q₁ = q₂ := by
  cases h₁ <;> cases h₂ <;> simp_all

theorem Step.run (h : Step q t q₁) : Run q [t] q₁ := ⟨q₁, h, rfl⟩

theorem run_append : Run q (us ++ vs) q₂ ↔ ∃ q₁, Run q us q₁ ∧ Run q₁ vs q₂ := by
  induction us generalizing q with
  | nil => simp [Run]
  | cons t us ih =>
    simp only [List.cons_append, Run, ih]
    constructor
    · rintro ⟨q₃, hstep, q₁, hus, hvs⟩
      exact ⟨q₁, ⟨q₃, hstep, hus⟩, hvs⟩
    · rintro ⟨q₁, ⟨q₃, hstep, hus⟩, hvs⟩
      exact ⟨q₃, hstep, q₁, hus, hvs⟩

theorem Run.append (hus : Run q us q₁) (hvs : Run q₁ vs q₂) : Run q (us ++ vs) q₂ :=
  run_append.mpr ⟨q₁, hus, hvs⟩

theorem Run.unique (h₁ : Run q us q₁) (h₂ : Run q us q₂) : q₁ = q₂ := by
  induction us generalizing q with
  | nil => exact h₁.symm.trans h₂
  | cons t us ih =>
    obtain ⟨q₃, hstep, hrun⟩ := h₁
    obtain ⟨q₄, hstep', hrun'⟩ := h₂
    obtain rfl := hstep.unique hstep'
    exact ih hrun hrun'

/-- A refused token ends every run, whatever follows it. -/
theorem Refuses.not_run (hr : q₁.Refuses vs) (hrun : Run q us q₁) :
    ¬ Run q (us ++ vs) (start false) := by
  intro h
  obtain ⟨q₂, hus, hvs⟩ := run_append.mp h
  obtain rfl := hrun.unique hus
  cases vs with
  | nil => exact hr hvs
  | cons t vs =>
    obtain ⟨q₃, hstep, -⟩ := hvs
    exact hr q₃ hstep

/-- Boolean literals that lead on are the two words. -/
theorem Run.booleansSpelled (h : Run q us q₁) : BooleansSpelled us := by
  induction us generalizing q with
  | nil => exact nofun
  | cons t us ih =>
    obtain ⟨q₂, hstep, hrun⟩ := h
    refine List.forall_mem_cons.mpr ⟨fun hk => ?_, ih hrun⟩
    cases hstep with
    | value h =>
      cases h with
      | yes _ text => exact .inl text
      | no _ text => exact .inr text
      | _ => simp_all
    | _ => simp_all

/-! ## No dead ends -/

/-- Some tokens lead back to the start. -/
def Completable (q : Expectation) : Prop := ∃ us, Run q us (start false)

theorem Step.completable (h : Step q t q₁) (hq : Completable q₁) : Completable q := by
  obtain ⟨us, hus⟩ := hq
  exact ⟨t :: us, q₁, h, hus⟩

theorem completable (q : Expectation) : Completable q := by
  let t : Kind → Token := fun kind => ⟨kind, "", default⟩
  have hstart : ∀ b, Completable (start b) := by
    intro b
    cases b with
    | false => exact ⟨[], rfl⟩
    | true => exact ⟨[t .rbrace], Step.run (.rbrace rfl)⟩
  have hvalue : ∀ b, Completable (value b) := fun b =>
    Step.completable (t := t .strLit) (.value (.str rfl))
      (Step.completable (t := t .newline) (.lineEnd rfl) (hstart b))
  have hword : ∀ b, Completable (word (.var b)) := fun b =>
    Step.completable (t := t .ident) (.word rfl)
      (Step.completable (t := t .equals) (.equals rfl) (hvalue b))
  have hopening : Completable opening :=
    Step.completable (t := t .lbrace) (.lbrace rfl) (hstart true)
  have hparams : Completable params := Step.completable (t := t .rparen) (.noParams rfl) hopening
  have hparam : Completable (wordEnd .param) :=
    Step.completable (t := t .rparen) (.rparen rfl) hopening
  have hfunc : Completable (wordEnd .func) :=
    Step.completable (t := t .lparen) (.lparen rfl) hparams
  cases q with
  | start b => exact hstart b
  | type b => exact Step.completable (t := t .ident) (.type rfl) (hword b)
  | value b => exact hvalue b
  | lineEnd b => exact Step.completable (t := t .newline) (.lineEnd rfl) (hstart b)
  | params => exact hparams
  | opening => exact hopening
  | wordEnd u =>
    cases u with
    | var b => exact Step.completable (t := t .equals) (.equals rfl) (hvalue b)
    | func => exact hfunc
    | param => exact hparam
  | word u =>
    cases u with
    | var b => exact hword b
    | func => exact Step.completable (t := t .ident) (.word rfl) hfunc
    | param => exact Step.completable (t := t .ident) (.word rfl) hparam

end Expectation

/-! ## Where phrases lead -/

section Phrases

open Expectation

variable {q : Expectation} {us : List Token} {b : Bool}

theorem Star.run {α : Type} {L : List Token → α → Prop} {as : List α} (h : Star L us as)
    (hL : ∀ us a, L us a → Run q us q) : Run q us q := by
  induction h with
  | nil => exact rfl
  | cons head tail ih => exact (hL _ _ head).append ih

theorem NamePhrase.run {u : NameUse} {n : Name} (h : NamePhrase us n)
    (hq : ∀ t : Token, t.kind = .ident → Step q t (wordEnd u)) : Run q us (wordEnd u) := by
  cases h with
  | @intro t us ws word more =>
    refine ⟨_, hq t word, more.run fun vs w h => ?_⟩
    cases h with
    | intro dot word => exact ⟨_, .dot dot, _, .word word, rfl⟩

theorem VarPhrase.run {d : VarDef} (h : VarPhrase us d)
    (hq : ∀ t : Token, t.kind = .ident → Step q t (word (.var b))) : Run q us (lineEnd b) := by
  cases h with
  | @intro t e v us n x type name equals value =>
    refine ⟨_, hq t type, (name.run fun _ => .word).append ?_⟩
    exact ⟨_, .equals equals, _, .value value, rfl⟩

theorem ItemPhrase.run {i : Item} (h : ItemPhrase us i) : Run (start b) us (lineEnd b) := by
  cases h with
  | var var => exact var.run fun _ => .firstType
  | global word var => exact ⟨_, .global word, var.run fun _ => .type⟩

theorem PartPhrase.run {i : Option Item} (h : PartPhrase us i) : Run (start b) us (start b) := by
  cases h with
  | blank newline => exact Step.run (.blank newline)
  | item item newline => exact item.run.append (Step.run (.lineEnd newline))

theorem NextParamPhrase.run {n : Name} (h : NextParamPhrase us n) :
    Run (wordEnd .param) us (wordEnd .param) := by
  cases h with
  | intro comma name => exact ⟨_, .comma comma, name.run fun _ => .word⟩

theorem ParamsPhrase.run {ns : List Name} {r : Token} (h : ParamsPhrase us ns)
    (hr : r.kind = .rparen) : Run .params (us ++ [r]) opening := by
  cases h with
  | none => exact Step.run (.noParams hr)
  | some first more =>
    refine Run.append ?_ (Step.run (.rparen hr))
    exact (first.run fun _ => .firstParam).append (more.run fun _ _ h => h.run)

theorem HeaderPhrase.run {n : Name} {ns : List Name} (h : HeaderPhrase us n ns) :
    Run (start false) us opening := by
  cases h with
  | intro word name lparen params rparen =>
    refine ⟨_, .func word, (name.run fun _ => .word).append ?_⟩
    exact ⟨_, .lparen lparen, params.run rparen⟩

theorem FuncPhrase.run {f : FuncDef} (h : FuncPhrase us f) :
    Run (start false) us (start false) := by
  cases h with
  | intro header lbrace body rbrace =>
    refine header.run.append ⟨_, .lbrace lbrace, ?_⟩
    exact (body.run fun _ _ h => h.run).append (Step.run (.rbrace rbrace))

theorem DeclPhrase.run {d : Option Decl} (h : DeclPhrase us d) :
    Run (start false) us (start false) := by
  cases h with
  | part part => exact part.run
  | func func => exact func.run

/-- The tokens of a program lead from the start back to the start. -/
theorem Derives.run {ds : List Decl} (h : Derives us ds) : Run (start false) us (start false) := by
  cases h with
  | intro parts => exact parts.run fun _ _ h => h.run

end Phrases

end ScripCheck
