import ScripCheck.Proofs.Number.Rendered
import ScripCheck.Proofs.Token.Dump
import ScripCheck.Proofs.Token.Language
import ScripCheck.Proofs.Tree.Alike
import ScripCheck.Proofs.Tree.Node
import ScripCheck.Tree.Outline

/-!
# Outlines are read back

The line of a node does not start with a blank, and the lines below it are deeper. So indentation
tells which lines belong to a node, and what is left is to read single lines.

* `Outline.rowsAll_injective`: nodes with the same lines agree line by line.
* `Value.display_injective`: a value is read back, whichever characters are printable.
* `Name.Plain`: a name without blanks, commas and parentheses. `Outline.Same.decl`: declarations with
  such names are read back, spans apart.
* `bare_of_dumpBy`: so are programs.
-/

namespace ScripCheck

variable {printable : Char → Bool}

/-! ## Nesting -/

namespace Outline

variable {o o' : Outline} {os os' : List Outline} {d : Nat} {row s t : String}

/-- The line of a node, without its indentation. -/
def text (printable : Char → Bool) : Outline → String
  | name path => "Name(" ++ path ++ ")"
  | literal v => v.display printable
  | var type x _ => "VarDef " ++ type ++ " " ++ x
  | global _ => "Global"
  | block _ => "Block"
  | func f params _ => "FuncDef " ++ f ++ inlineAll printable params
  | call callee args => "Call " ++ callee.inline printable ++ inlineAll printable args

/-- The nodes whose lines are below that of a node, deeper by one. -/
def inner : Outline → List Outline
  | var _ _ value => [value]
  | global decl => [decl]
  | block body => body
  | func _ _ body => [body]
  | name _ | literal _ | call .. => []

theorem rows_eq (printable : Char → Bool) (d : Nat) (o : Outline) : rows printable d o =
    indented d (o.text printable) :: rowsAll printable (d + 1) o.inner := by
  cases o <;> simp [rows, rowsAll, text, inner]

/-- The text of a node does not start with a blank. -/
theorem text_head (printable : Char → Bool) (o : Outline) :
    (o.text printable).toList.head? ≠ some ' ' := by
  cases o with
  | literal v => cases v <;> simp [text, Value.display]
  | _ => simp [text]

/-- The row is indented for the depth at least. -/
def Deep (d : Nat) (row : String) : Prop := List.replicate (2 * d) ' ' <+: row.toList

theorem toList_indented (d : Nat) (s : String) :
    (indented d s).toList = List.replicate (2 * d) ' ' ++ s.toList := by
  simp [indented]

theorem Deep.of_succ (h : Deep (d + 1) row) : Deep d row := by
  refine List.IsPrefix.trans ?_ h
  rw [show 2 * (d + 1) = 2 * d + 2 from rfl, ← List.replicate_append_replicate]
  exact List.prefix_append _ _

theorem deep_indented (d : Nat) (s : String) : Deep d (indented d s) := by
  rw [Deep, toList_indented]
  exact List.prefix_append _ _

theorem not_deep_indented (h : s.toList.head? ≠ some ' ') : ¬ Deep (d + 1) (indented d s) := by
  rw [Deep, toList_indented, show 2 * (d + 1) = 2 * d + 2 from rfl,
    ← List.replicate_append_replicate, List.prefix_append_right_inj]
  rintro ⟨cs, hcs⟩
  exact h (by simp [← hcs])

theorem indented_injective (h : indented d s = indented d t) : s = t := by
  have hlist := congrArg String.toList h
  rw [toList_indented, toList_indented] at hlist
  exact String.toList_inj.mp (List.append_cancel_left hlist)

theorem Deep.cons {rows : List String} (h : ∀ row ∈ rows, Deep (d + 1) row) (s : String) :
    ∀ row ∈ indented d s :: rows, Deep d row :=
  List.forall_mem_cons.mpr ⟨deep_indented d s, fun row hrow => (h row hrow).of_succ⟩

mutual

/-- All lines of a node are indented for its depth at least. -/
theorem deep_rows (d : Nat) : ∀ o : Outline, ∀ row ∈ rows printable d o, Deep d row
  | name _ | literal _ | call .. => List.forall_mem_singleton.mpr (deep_indented d _)
  | var _ _ value => Deep.cons (deep_rows (d + 1) value) _
  | global decl => Deep.cons (deep_rows (d + 1) decl) _
  | func _ _ body => Deep.cons (deep_rows (d + 1) body) _
  | block body => Deep.cons (deep_rowsAll (d + 1) body) _

theorem deep_rowsAll (d : Nat) : ∀ os : List Outline, ∀ row ∈ rowsAll printable d os, Deep d row
  | [] => by simp [rowsAll]
  | o :: os => List.forall_mem_append.mpr ⟨deep_rows d o, deep_rowsAll d os⟩

end

/-- Two nodes at the depth have the same line, and the same lines below it. -/
structure Same (printable : Char → Bool) (d : Nat) (o o' : Outline) : Prop where
  text : o.text printable = o'.text printable
  inner : rowsAll printable (d + 1) o.inner = rowsAll printable (d + 1) o'.inner

theorem head_rowsAll (d : Nat) (os : List Outline) :
    ∀ row ∈ (rowsAll printable d os).head?, ¬ Deep (d + 1) row := by
  cases os with
  | nil => simp [rowsAll]
  | cons o os =>
    rw [rowsAll, rows_eq]
    rintro _ ⟨⟩
    exact not_deep_indented (text_head printable o)

/-- The indentation alone tells which lines belong to which node. -/
theorem rowsAll_injective (h : rowsAll printable d os = rowsAll printable d os') :
    List.Forall₂ (Same printable d) os os' := by
  induction os generalizing os' with
  | nil =>
    cases os' with
    | nil => exact .nil
    | cons o' os' => rw [rowsAll, rowsAll, rows_eq] at h; cases h
  | cons o os ih =>
    cases os' with
    | nil => rw [rowsAll, rowsAll, rows_eq] at h; cases h
    | cons o' os' =>
      rw [rowsAll, rowsAll, rows_eq, rows_eq, List.cons_append, List.cons_append] at h
      obtain ⟨hrow, hrows⟩ := List.cons.inj h
      -- the lines below `o` are deeper than `d`, and the line of the next node is not
      obtain ⟨hinner, hnext⟩ := append_injective_of_forall (deep_rowsAll _ _) (head_rowsAll d os)
        (deep_rowsAll _ _) (head_rowsAll d os') hrows
      exact .cons ⟨indented_injective hrow, hinner⟩ (ih hnext)

end Outline

/-! ## Values -/

namespace Value

variable {v w : Value}

/-- The name of the kind of literal. -/
def label : Value → String
  | int _ => "IntLit"
  | float _ => "FloatLit"
  | bool _ => "BoolLit"
  | str _ => "StrLit"

/-- What stands between the parentheses. -/
def content (printable : Char → Bool) : Value → String
  | int n => toString n
  | float x => x.render .plain
  | bool b => if b then "True" else "False"
  | str s => quotedBy printable s

theorem toList_display (v : Value) : (v.display printable).toList =
    v.label.toList ++ '(' :: ((v.content printable).toList ++ [')']) := by
  cases v <;> simp [display, label, content]

/-- Different values are shown differently. -/
theorem display_injective (h : v.display printable = w.display printable) : v = w := by
  have hopening (v : Value) : '(' ∉ v.label.toList := by cases v <;> simp [label]
  have hlist := congrArg String.toList h
  rw [toList_display, toList_display] at hlist
  obtain ⟨hlabel, hrest⟩ := append_cons_injective (hopening v) (hopening w) hlist
  have hcontent := String.toList_inj.mp (List.append_cancel_right hrest)
  cases v with
  | int n =>
    cases w with
    | int m => rw [toString_int_injective hcontent]
    | _ => simp [label] at hlabel
  | float x =>
    cases w with
    | float y => rw [Binary64.render_injective hcontent]
    | _ => simp [label] at hlabel
  | bool b =>
    cases w with
    | bool b' => revert hcontent; cases b <;> cases b' <;> simp [content]
    | _ => simp [label] at hlabel
  | str s =>
    cases w with
    | str t => rw [quotedBy_injective hcontent]
    | _ => simp [label] at hlabel

theorem unbroken_display (v : Value) : Unbroken (v.display printable).toList := by
  have hcontent : Unbroken (v.content printable).toList := by
    cases v with
    | int n => exact unbroken_toString n
    | float x => exact x.unbroken_render
    | bool b => cases b <;> simp [content, Unbroken]
    | str s => exact unbroken_quotedBy printable s
  rw [toList_display]
  refine unbroken_append.mpr ⟨?_, unbroken_cons.mpr ⟨by decide, unbroken_append.mpr
    ⟨hcontent, unbroken_cons.mpr ⟨by decide, unbroken_nil⟩⟩⟩⟩
  cases v <;> simp [label, Unbroken]

end Value

/-! ## Names -/

/-- The name has no character but those of words, and points. -/
def Name.Plain (n : Name) : Prop := ∀ c ∈ n.path.toList, isWordPart c = true ∨ c = '.'

/-- All names in the node are plain. -/
def Node.Plain (m : Node) : Prop := ∀ n, (Node.name n).Within m → n.Plain

section

variable {n n' : Name} {ns ns' : List Name} {m c : Node}

theorem Node.Plain.child (h : m.Plain) (hc : c ∈ m.children) : c.Plain :=
  fun n hn => h n (.child hc hn)

theorem Node.Plain.self (h : (Node.name n).Plain) : n.Plain := h n (.self _)

theorem Name.Plain.not_mem {c : Char} (h : n.Plain) (hword : isWordPart c = false) (hc : c ≠ '.') :
    c ∉ n.path.toList := fun hmem =>
  (h c hmem).elim (fun hpart => by rw [hword] at hpart; cases hpart) hc

theorem Name.Plain.unbroken (h : n.Plain) : Unbroken n.path.toList := fun c hc =>
  ⟨by rintro rfl; exact h.not_mem rfl (by decide) hc,
    by rintro rfl; exact h.not_mem rfl (by decide) hc⟩

/-- The parameters of a function, up to the parenthesis behind them. -/
def paramChars (printable : Char → Bool) (paths : List String) : List Char :=
  (String.intercalate ", " (paths.map fun p => (Outline.name p).inline printable)).toList ++ [')']

/-- What stands behind a parameter before the parameters `paths`. -/
def afterParam (printable : Char → Bool) : List String → List Char
  | [] => [')']
  | p :: ps => ", ".toList ++ paramChars printable (p :: ps)

theorem paramChars_cons (p : String) (ps : List String) : paramChars printable (p :: ps) =
    "Name(".toList ++ (p.toList ++ ')' :: afterParam printable ps) := by
  cases ps <;> simp [paramChars, afterParam, Outline.inline, String.toList_intercalate]

theorem paramChars_injective {ps qs : List String} (hps : ∀ p ∈ ps, ')' ∉ p.toList)
    (hqs : ∀ q ∈ qs, ')' ∉ q.toList) (h : paramChars printable ps = paramChars printable qs) :
    ps = qs := by
  induction ps generalizing qs with
  | nil =>
    cases qs with
    | nil => rfl
    | cons q qs => rw [paramChars_cons] at h; simp [paramChars] at h
  | cons p ps ih =>
    cases qs with
    | nil => rw [paramChars_cons] at h; simp [paramChars] at h
    | cons q qs =>
      obtain ⟨hp, hps⟩ := List.forall_mem_cons.mp hps
      obtain ⟨hq, hqs⟩ := List.forall_mem_cons.mp hqs
      rw [paramChars_cons, paramChars_cons] at h
      obtain ⟨hpath, hafter⟩ := append_cons_injective hp hq (List.append_cancel_left h)
      have hrest : ps = qs := by
        cases ps with
        | nil =>
          cases qs with
          | nil => rfl
          | cons q' qs => simp [afterParam] at hafter
        | cons p' ps =>
          cases qs with
          | nil => simp [afterParam] at hafter
          | cons q' qs => exact ih hps hqs (List.append_cancel_left hafter)
      rw [String.toList_inj.mp hpath, hrest]

end

/-! ## Declarations -/

section

variable {d : Nat}

/-- Spans may differ. -/
def AnySpan (_ _ : Span) : Prop := True

theorem Outline.Same.inner_same {o o' : Outline} (h : Outline.Same printable d o o') :
    List.Forall₂ (Outline.Same printable (d + 1)) o.inner o'.inner := Outline.rowsAll_injective h.inner

theorem forall₂_imp_mem {α β : Type} {R T : α → β → Prop} {as : List α} {bs : List β}
    (h : List.Forall₂ R as bs) (hT : ∀ a ∈ as, ∀ b ∈ bs, R a b → T a b) : List.Forall₂ T as bs := by
  induction h with
  | nil => exact .nil
  | cons hab _ ih =>
    refine .cons (hT _ List.mem_cons_self _ List.mem_cons_self hab) (ih fun a ha b hb => ?_)
    exact hT a (List.mem_cons_of_mem _ ha) b (List.mem_cons_of_mem _ hb)

theorem forall₂_of_map_eq {α β : Type} {f : α → β} {as bs : List α} (h : as.map f = bs.map f) :
    List.Forall₂ (fun a b => f a = f b) as bs :=
  List.forall₂_map_right_iff.mp (List.forall₂_map_left_iff.mp (List.forall₂_eq_eq_eq ▸ h))

/-- Nodes of two lists that have the same lines are alike. -/
theorem forall₂_of_same {α : Type} {outline : α → Outline} {T : α → α → Prop} {as bs : List α}
    (h : List.Forall₂ (Outline.Same printable d) (as.map outline) (bs.map outline))
    (hT : ∀ a ∈ as, ∀ b ∈ bs, Outline.Same printable d (outline a) (outline b) → T a b) :
    List.Forall₂ T as bs :=
  forall₂_imp_mem (List.forall₂_map_right_iff.mp (List.forall₂_map_left_iff.mp h)) hT

theorem Outline.Same.var {x y : VarDef} (hx : (Node.var x).Plain) (hy : (Node.var y).Plain)
    (h : Outline.Same printable d x.outline y.outline) : VarAlike AnySpan Eq x y := by
  have htype (z : VarDef) (hz : (Node.var z).Plain) : ' ' ∉ z.type.path.toList :=
    (hz.child (by simp [Node.children])).self.not_mem rfl (by decide)
  have hline (z : VarDef) : (z.outline.text printable).toList =
      "VarDef ".toList ++ (z.type.path.toList ++ ' ' :: z.name.path.toList) := by
    simp [VarDef.outline, Outline.text]
  have hlist := congrArg String.toList h.text
  rw [hline, hline] at hlist
  obtain ⟨htypes, hnames⟩ :=
    append_cons_injective (htype x hx) (htype y hy) (List.append_cancel_left hlist)
  cases h.inner_same with
  | cons value _ => exact
    ⟨⟨(String.toList_inj.mp htypes).symm, trivial⟩, ⟨(String.toList_inj.mp hnames).symm, trivial⟩,
      ⟨Value.display_injective value.text, trivial⟩, trivial⟩

theorem Outline.Same.item {i j : Item} (hi : i.node.Plain) (hj : j.node.Plain)
    (h : Outline.Same printable d i.outline j.outline) : ItemAlike AnySpan Eq i j := by
  cases i with
  | var x =>
    cases j with
    | var y => exact .var (h.var hi hj)
    | global y span =>
      have htext := congrArg String.toList h.text
      simp [Item.outline, VarDef.outline, Outline.text] at htext
  | global x span =>
    cases j with
    | var y =>
      have htext := congrArg String.toList h.text
      simp [Item.outline, VarDef.outline, Outline.text] at htext
    | global y span' =>
      cases h.inner_same with
      | cons var _ =>
        exact .global (var.var (hi.child List.mem_cons_self) (hj.child List.mem_cons_self)) trivial

theorem toList_func (f : FuncDef) : ((Decl.func f).outline.text printable).toList =
    "FuncDef ".toList ++
      (f.name.path.toList ++ '(' :: paramChars printable (f.params.map (·.path))) := by
  simp [Decl.outline, Outline.text, Outline.inlineAll, paramChars, Function.comp_def]

theorem Outline.Same.func {f g : FuncDef} (hf : (Node.func f).Plain) (hg : (Node.func g).Plain)
    (h : Outline.Same printable d (Decl.func f).outline (Decl.func g).outline) :
    FuncAlike AnySpan Eq f g := by
  have hname (f : FuncDef) (hf : (Node.func f).Plain) : '(' ∉ f.name.path.toList :=
    (hf.child List.mem_cons_self).self.not_mem rfl (by decide)
  have hparams (f : FuncDef) (hf : (Node.func f).Plain) :
      ∀ p ∈ f.params.map (·.path), ')' ∉ p.toList := List.forall_mem_map.mpr fun n hn =>
    (hf.child (by simp [Node.children, hn])).self.not_mem rfl (by decide)
  have hitem (f : FuncDef) (hf : (Node.func f).Plain) : ∀ i ∈ f.body.body, i.node.Plain :=
    fun i hi => (hf.child (c := .block f.body) (by simp [Node.children])).child
      (List.mem_map_of_mem hi)
  have hlist := congrArg String.toList h.text
  rw [toList_func, toList_func] at hlist
  obtain ⟨hnames, hlist⟩ :=
    append_cons_injective (hname f hf) (hname g hg) (List.append_cancel_left hlist)
  have hpaths := paramChars_injective (hparams f hf) (hparams g hg) hlist
  cases h.inner_same with
  | cons block _ =>
    refine ⟨⟨(String.toList_inj.mp hnames).symm, trivial⟩, ?_, ⟨?_, trivial⟩, trivial⟩
    · exact (forall₂_of_map_eq hpaths).imp fun _ _ hpath => ⟨hpath.symm, trivial⟩
    · exact forall₂_of_same block.inner_same fun i hi j hj hij =>
        hij.item (hitem f hf i hi) (hitem g hg j hj)

theorem Outline.Same.decl {x y : Decl} (hx : x.node.Plain) (hy : y.node.Plain)
    (h : Outline.Same printable d x.outline y.outline) : DeclAlike AnySpan Eq x y := by
  cases x with
  | item i =>
    cases y with
    | item j => exact .item (h.item hx hy)
    | func g =>
      have htext := congrArg String.toList h.text
      cases i <;> simp [Decl.outline, Item.outline, VarDef.outline, Outline.text] at htext
  | func f =>
    cases y with
    | item j =>
      have htext := congrArg String.toList h.text
      cases j <;> simp [Decl.outline, Item.outline, VarDef.outline, Outline.text] at htext
    | func g => exact .func (h.func hx hy)

/-! ## Rows -/

/-- The lines of the node have no line break in them. -/
def Outline.Unbroken (printable : Char → Bool) (o : Outline) : Prop :=
  ∀ d, ∀ row ∈ rows printable d o, ScripCheck.Unbroken row.toList

theorem unbroken_indented {s : String} (h : Unbroken s.toList) (d : Nat) :
    Unbroken (Outline.indented d s).toList := by
  have hblank : ∀ c ∈ List.replicate (2 * d) ' ', c ≠ '\r' ∧ c ≠ '\n' := fun c hc => by
    rw [List.eq_of_mem_replicate hc]
    decide
  rw [Outline.toList_indented]
  exact unbroken_append.mpr ⟨hblank, h⟩

theorem unbroken_rowsAll {os : List Outline} (h : ∀ o ∈ os, o.Unbroken printable) (d : Nat) :
    ∀ row ∈ Outline.rowsAll printable d os, Unbroken row.toList := by
  induction os with
  | nil => simp [Outline.rowsAll]
  | cons o os ih =>
    obtain ⟨ho, hos⟩ := List.forall_mem_cons.mp h
    exact List.forall_mem_append.mpr ⟨ho d, ih hos⟩

theorem Outline.Unbroken.intro {o : Outline} (text : ScripCheck.Unbroken (o.text printable).toList)
    (inner : ∀ o' ∈ o.inner, o'.Unbroken printable) : o.Unbroken printable := fun d => by
  rw [rows_eq]
  exact List.forall_mem_cons.mpr ⟨unbroken_indented text d, unbroken_rowsAll inner (d + 1)⟩

theorem unbroken_var {x : VarDef} (h : (Node.var x).Plain) : x.outline.Unbroken printable := by
  have htype := (h.child (c := .name x.type) (by simp [Node.children])).self.unbroken
  have hname := (h.child (c := .name x.name) (by simp [Node.children])).self.unbroken
  refine .intro ?_ (List.forall_mem_singleton.mpr (.intro x.value.value.unbroken_display nofun))
  have hword : Unbroken "VarDef ".toList := by simp [Unbroken]
  have hblank : Unbroken " ".toList := by simp [Unbroken]
  simp only [VarDef.outline, Outline.text, String.toList_append, unbroken_append]
  exact ⟨⟨⟨hword, htype⟩, hblank⟩, hname⟩

theorem unbroken_item {i : Item} (h : i.node.Plain) : i.outline.Unbroken printable := by
  cases i with
  | var x => exact unbroken_var h
  | global x span =>
    refine .intro (by simp [Item.outline, Outline.text, Unbroken]) ?_
    exact List.forall_mem_singleton.mpr (unbroken_var (h.child List.mem_cons_self))

theorem unbroken_paramChars {paths : List String} (h : ∀ p ∈ paths, Unbroken p.toList) :
    Unbroken (paramChars printable paths) := by
  have hword : Unbroken "Name(".toList := by simp [Unbroken]
  have hcomma : Unbroken ", ".toList := by simp [Unbroken]
  have hend : Unbroken [')'] := by simp [Unbroken]
  induction paths with
  | nil => simpa [paramChars] using hend
  | cons p ps ih =>
    obtain ⟨hp, hps⟩ := List.forall_mem_cons.mp h
    have hafter : Unbroken (afterParam printable ps) := by
      cases ps with
      | nil => exact hend
      | cons q qs => exact unbroken_append.mpr ⟨hcomma, ih hps⟩
    rw [paramChars_cons]
    exact unbroken_append.mpr ⟨hword, unbroken_append.mpr ⟨hp,
      unbroken_cons.mpr ⟨by decide, hafter⟩⟩⟩

theorem unbroken_decl {x : Decl} (h : x.node.Plain) : x.outline.Unbroken printable := by
  cases x with
  | item i => exact unbroken_item h
  | func f =>
    have hbody := h.child (c := .block f.body) (by simp [Decl.node, Node.children])
    have hparams : ∀ p ∈ f.params.map (·.path), Unbroken p.toList :=
      List.forall_mem_map.mpr fun n hn =>
        (h.child (c := .name n) (by simp [Decl.node, Node.children, hn])).self.unbroken
    refine .intro ?_ (List.forall_mem_singleton.mpr (.intro ?_ (List.forall_mem_map.mpr fun i hi =>
      unbroken_item (hbody.child (List.mem_map_of_mem hi)))))
    · have hword : Unbroken "FuncDef ".toList := by simp [Unbroken]
      have hname := (h.child (c := .name f.name) List.mem_cons_self).self.unbroken
      rw [toList_func]
      exact unbroken_append.mpr ⟨hword, unbroken_append.mpr ⟨hname,
        unbroken_cons.mpr ⟨by decide, unbroken_paramChars hparams⟩⟩⟩
    · simp [Outline.text, Unbroken]

/-- Two programs whose names are plain have the same dump only if they are the same, spans apart. -/
theorem bare_of_dumpBy {p q : Program} (hp : ∀ x ∈ p.declarations, x.node.Plain)
    (hq : ∀ x ∈ q.declarations, x.node.Plain) (h : p.dumpBy printable = q.dumpBy printable) :
    p.declarations.map Decl.bare = q.declarations.map Decl.bare := by
  have hunbroken (p : Program) (hp : ∀ x ∈ p.declarations, x.node.Plain) : ∀ row ∈ "Program" ::
      Outline.rowsAll printable 1 (p.declarations.map Decl.outline), Unbroken row.toList :=
    List.forall_mem_cons.mpr ⟨by simp [Unbroken], unbroken_rowsAll (List.forall_mem_map.mpr
      fun x hx => unbroken_decl (hp x hx)) 1⟩
  have hrows := (List.cons.inj (unlines_injective (hunbroken p hp) (hunbroken q hq) h)).2
  have halike : List.Forall₂ (DeclAlike AnySpan Eq) p.declarations q.declarations :=
    forall₂_of_same (Outline.rowsAll_injective hrows) fun x hx y hy hxy =>
      hxy.decl (hp x hx) (hq y hy)
  exact (forall₂_map_eq halike fun _ _ hxy => hxy.bare_eq).symm

end

end ScripCheck
