import Mathlib.Data.List.Forall2
import ScripCheck.Tree.Basic

/-!
# Trees of one shape

Two trees are alike if they have the same shape and words, and their spans and literal values are
related place by place.

* `NameAlike`, ..., `DeclAlike`: the relation for each kind of node.
* `Name.mapSpan`, ..., `Decl.mapSpan`: a tree with other spans.
* `NameAlike.mapSpan_eq`, ..., `DeclAlike.mapSpan_eq`: where values are equal, and spans as far as
  two functions see them, the two trees with their spans mapped are equal.
* `DeclAlike.eq_mapSpan`, `Decl.bare`: one of the functions does nothing, or both forget the spans.
-/

namespace ScripCheck

/-! ## The relation -/

section Relation

variable (S : Span → Span → Prop) (V : Value → Value → Prop)

structure NameAlike (a b : Name) : Prop where
  path : b.path = a.path
  span : S a.span b.span

structure LiteralAlike (a b : Literal) : Prop where
  value : V a.value b.value
  span : S a.span b.span

structure VarAlike (a b : VarDef) : Prop where
  type : NameAlike S a.type b.type
  name : NameAlike S a.name b.name
  value : LiteralAlike S V a.value b.value
  span : S a.span b.span

inductive ItemAlike : Item → Item → Prop where
  | var {a b : VarDef} (var : VarAlike S V a b) : ItemAlike (.var a) (.var b)
  | global {a b : VarDef} {x y : Span} (var : VarAlike S V a b) (span : S x y) :
    ItemAlike (.global a x) (.global b y)

structure BlockAlike (a b : Block) : Prop where
  body : List.Forall₂ (ItemAlike S V) a.body b.body
  span : S a.span b.span

structure FuncAlike (a b : FuncDef) : Prop where
  name : NameAlike S a.name b.name
  params : List.Forall₂ (NameAlike S) a.params b.params
  body : BlockAlike S V a.body b.body
  span : S a.span b.span

inductive DeclAlike : Decl → Decl → Prop where
  | item {a b : Item} (item : ItemAlike S V a b) : DeclAlike (.item a) (.item b)
  | func {a b : FuncDef} (func : FuncAlike S V a b) : DeclAlike (.func a) (.func b)

end Relation

/-! ## Other spans -/

def Name.mapSpan (f : Span → Span) (n : Name) : Name := { n with span := f n.span }

def Literal.mapSpan (f : Span → Span) (l : Literal) : Literal := { l with span := f l.span }

def VarDef.mapSpan (f : Span → Span) (d : VarDef) : VarDef :=
  ⟨d.type.mapSpan f, d.name.mapSpan f, d.value.mapSpan f, f d.span⟩

def Item.mapSpan (f : Span → Span) : Item → Item
  | .var d => .var (d.mapSpan f)
  | .global d span => .global (d.mapSpan f) (f span)

def Block.mapSpan (f : Span → Span) (b : Block) : Block := ⟨b.body.map (Item.mapSpan f), f b.span⟩

def FuncDef.mapSpan (f : Span → Span) (d : FuncDef) : FuncDef :=
  ⟨d.name.mapSpan f, d.params.map (Name.mapSpan f), d.body.mapSpan f, f d.span⟩

/-- The declaration with every span in it mapped. -/
def Decl.mapSpan (f : Span → Span) : Decl → Decl
  | .item i => .item (i.mapSpan f)
  | .func d => .func (d.mapSpan f)

@[simp] theorem Item.mapSpan_id : Item.mapSpan id = id := by
  funext i
  cases i <;> rfl

@[simp] theorem Decl.mapSpan_id : Decl.mapSpan id = id := by
  have hname : Name.mapSpan id = id := rfl
  have hblock : Block.mapSpan id = id := by
    funext b
    simp [Block.mapSpan]
  funext d
  cases d <;> simp [Decl.mapSpan, FuncDef.mapSpan, hname, hblock]

theorem Item.mapSpan_mapSpan (f g : Span → Span) (i : Item) :
    (i.mapSpan f).mapSpan g = i.mapSpan (g ∘ f) := by
  cases i <;> rfl

theorem Decl.mapSpan_mapSpan (f g : Span → Span) (d : Decl) :
    (d.mapSpan f).mapSpan g = d.mapSpan (g ∘ f) := by
  have hname : Name.mapSpan g ∘ Name.mapSpan f = Name.mapSpan (g ∘ f) := rfl
  have hitem : Item.mapSpan g ∘ Item.mapSpan f = Item.mapSpan (g ∘ f) :=
    funext (Item.mapSpan_mapSpan f g)
  cases d with
  | item i => rw [Decl.mapSpan, Decl.mapSpan, Decl.mapSpan, Item.mapSpan_mapSpan]
  | func d =>
    simp only [Decl.mapSpan, FuncDef.mapSpan, Block.mapSpan, List.map_map, hname, hitem]
    rfl

section Map

variable {S : Span → Span → Prop} {f g : Span → Span}

theorem forall₂_eq_map {α β : Type} {R : α → β → Prop} {g : α → β} {as : List α} {bs : List β}
    (h : List.Forall₂ R as bs) (hg : ∀ a b, R a b → b = g a) : bs = as.map g := by
  induction h with
  | nil => rfl
  | cons hab _ ih => rw [List.map_cons, hg _ _ hab, ih]

theorem forall₂_map_eq {α β γ : Type} {R : α → β → Prop} {f : α → γ} {g : β → γ} {as : List α}
    {bs : List β} (h : List.Forall₂ R as bs) (hfg : ∀ a b, R a b → g b = f a) :
    bs.map g = as.map f := by
  induction h with
  | nil => rfl
  | cons h _ ih => rw [List.map_cons, List.map_cons, hfg _ _ h, ih]

theorem NameAlike.mapSpan_eq (hfg : ∀ x y, S x y → g y = f x) {a b : Name} (h : NameAlike S a b) :
    b.mapSpan g = a.mapSpan f := by
  rw [Name.mapSpan, Name.mapSpan, h.path, hfg _ _ h.span]

theorem LiteralAlike.mapSpan_eq (hfg : ∀ x y, S x y → g y = f x) {a b : Literal}
    (h : LiteralAlike S Eq a b) : b.mapSpan g = a.mapSpan f := by
  rw [Literal.mapSpan, Literal.mapSpan, h.value, hfg _ _ h.span]

theorem VarAlike.mapSpan_eq (hfg : ∀ x y, S x y → g y = f x) {a b : VarDef}
    (h : VarAlike S Eq a b) : b.mapSpan g = a.mapSpan f := by
  rw [VarDef.mapSpan, VarDef.mapSpan, h.type.mapSpan_eq hfg, h.name.mapSpan_eq hfg,
    h.value.mapSpan_eq hfg, hfg _ _ h.span]

theorem ItemAlike.mapSpan_eq (hfg : ∀ x y, S x y → g y = f x) {a b : Item}
    (h : ItemAlike S Eq a b) : b.mapSpan g = a.mapSpan f := by
  cases h with
  | var var => rw [Item.mapSpan, Item.mapSpan, var.mapSpan_eq hfg]
  | global var span => rw [Item.mapSpan, Item.mapSpan, var.mapSpan_eq hfg, hfg _ _ span]

theorem BlockAlike.mapSpan_eq (hfg : ∀ x y, S x y → g y = f x) {a b : Block}
    (h : BlockAlike S Eq a b) : b.mapSpan g = a.mapSpan f := by
  rw [Block.mapSpan, Block.mapSpan, forall₂_map_eq h.body fun _ _ hi => hi.mapSpan_eq hfg,
    hfg _ _ h.span]

theorem FuncAlike.mapSpan_eq (hfg : ∀ x y, S x y → g y = f x) {a b : FuncDef}
    (h : FuncAlike S Eq a b) : b.mapSpan g = a.mapSpan f := by
  rw [FuncDef.mapSpan, FuncDef.mapSpan, h.name.mapSpan_eq hfg,
    forall₂_map_eq h.params fun _ _ hn => hn.mapSpan_eq hfg, h.body.mapSpan_eq hfg, hfg _ _ h.span]

theorem DeclAlike.mapSpan_eq (hfg : ∀ x y, S x y → g y = f x) {a b : Decl}
    (h : DeclAlike S Eq a b) : b.mapSpan g = a.mapSpan f := by
  cases h with
  | item item => rw [Decl.mapSpan, Decl.mapSpan, item.mapSpan_eq hfg]
  | func func => rw [Decl.mapSpan, Decl.mapSpan, func.mapSpan_eq hfg]

theorem DeclAlike.eq_mapSpan (hf : ∀ x y, S x y → y = f x) {a b : Decl} (h : DeclAlike S Eq a b) :
    b = a.mapSpan f := by
  rw [← h.mapSpan_eq (g := id) hf, Decl.mapSpan_id, id]

/-- The declaration without its spans. -/
def Decl.bare : Decl → Decl := Decl.mapSpan fun _ => default

theorem DeclAlike.bare_eq {a b : Decl} (h : DeclAlike S Eq a b) : b.bare = a.bare :=
  h.mapSpan_eq fun _ _ _ => rfl

end Map

end ScripCheck
