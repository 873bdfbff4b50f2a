import ScripCheck.Proofs.Token.Lexemes
import ScripCheck.Proofs.Tree.Recovered

/-!
# The tokens of a node

Every node of a tree is read from a run of tokens. The nodes that it is made of are read from runs
inside this one, which come one after another.

* `Node`: any node, with its span and its children. `Node.Within`: a node, its children, and so on.
* `NodePhrase`: the tokens of a node, from its first to its last.
* `Laid`: the phrases of nodes, one after another. `NodePhrase.laid`: those of the children of a
  node lie in its phrase. `Node.Stands.within`: whatever a node is made of has its phrase among the
  same tokens.
* `NodePhrase.spans`: among tokens that do not overlap, the span of a node runs from its first token
  to its last.
* `NodePhrase.children_before`, `NodePhrase.children_inside`: where the children of a node are.
* `Node.At`: the indices of the first and the last token of a node.
-/

namespace ScripCheck

/-- A node of a tree. -/
inductive Node where
  | name (n : Name)
  | literal (l : Literal)
  | var (d : VarDef)
  | global (d : VarDef) (span : Span)
  | block (b : Block)
  | func (f : FuncDef)

def Item.node : Item → Node
  | var d => .var d
  | global d span => .global d span

def Decl.node : Decl → Node
  | item i => i.node
  | func f => .func f

namespace Node

def span : Node → Span
  | name n => n.span
  | literal l => l.span
  | var d => d.span
  | global _ span => span
  | block b => b.span
  | func f => f.span

/-- The nodes that a node is made of, in the order of the text. -/
def children : Node → List Node
  | name _ | literal _ => []
  | var d => [.name d.type, .name d.name, .literal d.value]
  | global d _ => [.var d]
  | block b => b.body.map Item.node
  | func f => .name f.name :: (f.params.map .name ++ [.block f.body])

/-- The node itself, its children, their children, and so on. -/
inductive Within : Node → Node → Prop where
  | self (n : Node) : Within n n
  | child {n c p : Node} (mem : c ∈ p.children) (within : Within n c) : Within n p

/-- A line break has to follow the node. -/
def EndsLine : Node → Prop
  | var _ | global _ _ => True
  | _ => False

/-- The tokens `ts` can follow the node. -/
def Followed (n : Node) (ts : List Token) : Prop := n.EndsLine → Starts [.newline] ts

/-- The node ends where the other one starts, or before. -/
def Before (n m : Node) : Prop := n.span.hi ≤ m.span.lo

/-- The node is in the text of the other one. -/
def Inside (n m : Node) : Prop := m.span.lo ≤ n.span.lo ∧ n.span.hi ≤ m.span.hi

end Node

/-- The tokens of a node: a name from its first word to its last, a variable from its type to its
literal, a body from one brace to the other, a function from the word `func` to the end of its
body. -/
inductive NodePhrase : List Token → Node → Prop where
  | name {us : List Token} {n : Name} (name : NamePhrase us n) : NodePhrase us (.name n)
  | literal {t : Token} {v : Value} (value : Denotes t v) : NodePhrase [t] (.literal ⟨v, t.span⟩)
  | var {us : List Token} {d : VarDef} (var : VarPhrase us d) : NodePhrase us (.var d)
  | global {g : Token} {us : List Token} {d : VarDef} (word : g.kind = .globalWord)
    (var : VarPhrase us d) : NodePhrase (g :: us) (.global d (cover (g :: us)))
  | block {us : List Token} {b : Block} (body : BodyRead us b) : NodePhrase us (.block b)
  | func {us : List Token} {f : FuncDef} (func : FuncRead us f) : NodePhrase us (.func f)

/-- The phrases of the nodes lie in the tokens one after another. The tokens `post` follow. -/
inductive Laid (post : List Token) : List Token → List Node → Prop where
  | nil (us : List Token) : Laid post us []
  | cons {gap us vs : List Token} {n : Node} {ns : List Node} (phrase : NodePhrase us n)
    (followed : n.Followed (vs ++ post)) (rest : Laid post vs ns) :
    Laid post (gap ++ (us ++ vs)) (n :: ns)

section Layout

variable {α : Type} {us vs post : List Token} {n m : Node} {ns ms : List Node}

/-! ## Rules -/

theorem Laid.skip (h : Laid post us ns) (gap : List Token) : Laid post (gap ++ us) ns := by
  cases h with
  | nil us => exact .nil _
  | cons phrase followed rest =>
    rw [← List.append_assoc]
    exact .cons phrase followed rest

theorem Laid.append (h : Laid (vs ++ post) us ns) (h' : Laid post vs ms) :
    Laid post (us ++ vs) (ns ++ ms) := by
  induction h with
  | nil us => exact h'.skip us
  | @cons gap us ws n ns phrase followed rest ih =>
    have hassoc : gap ++ (us ++ ws) ++ vs = gap ++ (us ++ (ws ++ vs)) := by
      simp only [List.append_assoc]
    rw [hassoc]
    exact .cons phrase (by rwa [List.append_assoc]) ih

theorem Laid.followed_by (h : Laid (vs ++ post) us ns) : Laid post (us ++ vs) ns :=
  List.append_nil ns ▸ h.append (.nil vs)

theorem NodePhrase.laid_self (h : NodePhrase us n) (hpost : n.Followed post) :
    Laid post us [n] := by
  have hlaid : Laid post ([] ++ (us ++ [])) [n] := .cons h hpost (.nil [])
  simpa using hlaid

theorem laid_star {L : List Token → α → Prop} {f : α → List Node} {as : List α}
    (hL : ∀ us a post, L us a → Laid post us (f a)) (h : Star L us as) :
    Laid post us (as.flatMap f) := by
  induction h with
  | nil => exact .nil []
  | cons head tail ih => exact (hL _ _ _ head).append ih

/-- Where a round of a loop gave no node, there is nothing to lay out. -/
theorem laid_star_option {L : List Token → Option α → Prop} {f : α → Node} {as : List (Option α)}
    (hL : ∀ us a post, L us (some a) → Laid post us [f a]) (h : Star L us as) :
    Laid post us ((as.filterMap id).map f) := by
  induction h with
  | nil => exact .nil []
  | @cons us vs a as head tail ih =>
    cases a with
    | none => exact ih.skip us
    | some a => exact (hL us a _ head).append ih

/-! ## One lemma for each kind of node -/

theorem laid_part {i : Item} (h : PartRead us (some i)) : Laid post us [i.node] := by
  cases h with
  | item part =>
    cases part with
    | @item us _ t item newline =>
      have hnode : NodePhrase us i.node := by
        cases item with
        | var var => exact .var var
        | global word var => exact .global word var
      exact Laid.followed_by (hnode.laid_self fun _ => by simp [newline])

theorem laid_body {b : Block} (h : BodyRead us b) : Laid post us (b.body.map Item.node) := by
  cases h with
  | @intro l r us ws is lbrace parts balanced rbrace widened =>
    exact Laid.skip (Laid.followed_by (laid_star_option (fun _ _ _ => laid_part) parts)) [l]

theorem laid_name {n : Name} (h : NamePhrase us n) : Laid post us [.name n] :=
  NodePhrase.laid_self (.name h) nofun

theorem laid_params {ps : List Name} (h : ParamsPhrase us ps) : Laid post us (ps.map .name) := by
  have hnext (us : List Token) (n : Name) (post : List Token) (h : NextParamPhrase us n) :
      Laid post us [.name n] := by
    cases h with
    | @intro c us n comma name => exact (laid_name name).skip [c]
  cases h with
  | none => exact .nil []
  | some first more =>
    rw [List.map_cons, List.map_eq_flatMap]
    exact (laid_name first).append (laid_star hnext more)

theorem laid_header {n : Name} {ps : List Name} (h : HeaderPhrase us n ps) :
    Laid post us (.name n :: ps.map .name) := by
  cases h with
  | @intro f l r us vs _ _ word name lparen params rparen =>
    exact Laid.skip ((laid_name name).append ((laid_params params).followed_by.skip [l])) [f]

theorem laid_var {d : VarDef} (h : VarPhrase us d) : Laid post us (Node.var d).children := by
  cases h with
  | @intro t e v us n x type name equals value =>
    have htype : NamePhrase [t] ⟨t.text, t.span⟩ := .intro type .nil
    have hvalue : NodePhrase [v] (.literal ⟨x, v.span⟩) := .literal value
    have hlast : Laid post [e, v] [.literal ⟨x, v.span⟩] := (hvalue.laid_self nofun).skip [e]
    exact (laid_name htype).append ((laid_name name).append hlast)

/-- The phrases of the children of a node lie in its phrase. -/
theorem NodePhrase.laid (h : NodePhrase us n) (hpost : n.Followed post) :
    Laid post us n.children := by
  cases h with
  | name name => exact .nil us
  | literal value => exact .nil _
  | var var => exact laid_var var
  | @global g us d word var => exact (NodePhrase.laid_self (.var var) hpost).skip [g]
  | block body => exact laid_body body
  | func func =>
    cases func with
    | intro header body =>
      have hbody : NodePhrase _ (.block _) := .block body
      exact (laid_header header).append (hbody.laid_self nofun)

/-! ## What a node is made of -/

/-- The phrase of the node is somewhere among the tokens. -/
def Node.Stands (ts : List Token) (n : Node) : Prop :=
  ∃ pre us post, ts = pre ++ (us ++ post) ∧ NodePhrase us n ∧ n.Followed post

theorem Node.Stands.after (h : n.Stands us) (pre : List Token) : n.Stands (pre ++ us) := by
  obtain ⟨ws, us, post, rfl, phrase, followed⟩ := h
  exact ⟨pre ++ ws, us, post, (List.append_assoc ..).symm, phrase, followed⟩

theorem Laid.stands (h : Laid post us ns) (hn : n ∈ ns) : n.Stands (us ++ post) := by
  induction h with
  | nil us => cases hn
  | @cons gap us vs m ns phrase followed rest ih =>
    rw [List.append_assoc, List.append_assoc]
    rcases List.mem_cons.mp hn with rfl | hn
    · exact ⟨gap, us, vs ++ post, rfl, phrase, followed⟩
    · exact ((ih hn).after us).after gap

theorem Node.Stands.child (h : n.Stands us) (hm : m ∈ n.children) : m.Stands us := by
  obtain ⟨pre, us, post, rfl, phrase, followed⟩ := h
  exact ((phrase.laid followed).stands hm).after pre

/-- Whatever a node is made of, its phrase is among the same tokens. -/
theorem Node.Stands.within (h : n.Stands us) (hm : m.Within n) : m.Stands us := by
  induction hm with
  | self => exact h
  | child mem within ih => exact ih (h.child mem)

end Layout

/-! ## Spans of tokens in order -/

/-- The span runs from the start of the first token to the end of the last. -/
def Spans (us : List Token) (x : Span) : Prop :=
  ∃ t r, us.head? = some t ∧ us.getLast? = some r ∧ x = ⟨t.span.lo, r.span.hi⟩

section Order

variable {us vs post : List Token} {x : Span} {t r : Token} {n m : Node} {ns : List Node}

theorem cover_hi_le {k : Int} (hus : ∀ u ∈ t :: us, u.span.hi ≤ k) : (cover (t :: us)).hi ≤ k := by
  rw [List.forall_mem_cons] at hus
  obtain ⟨ht, hus⟩ := hus
  have h (a : Span) (ha : a.hi ≤ k) :
      (us.foldl (fun span u => span.reach u.span.hi) a).hi ≤ k := by
    induction us generalizing a with
    | nil => exact ha
    | cons u us ih =>
      obtain ⟨hu, hus⟩ := List.forall_mem_cons.mp hus
      exact ih hus (a.reach u.span.hi) (Int.max_le.mpr ⟨ha, hu⟩)
  exact h t.span ht

/-- None of the tokens ends behind `k`, so their cover that reaches to `k` ends there. -/
theorem cover_reach {k : Int} (hus : ∀ u ∈ t :: us, u.span.hi ≤ k) :
    (cover (t :: us)).reach k = ⟨t.span.lo, k⟩ := by
  rw [Span.reach, cover_lo, Int.max_eq_right (cover_hi_le hus)]

/-- The tokens between the first and the last do not matter to the cover. -/
theorem InOrder.spans_cover_concat (h : InOrder (t :: (us ++ [r]))) (hvs : vs ⊆ us) :
    Spans (t :: (us ++ [r])) (cover (t :: (vs ++ [r]))) := by
  have hlast : (t :: (us ++ [r])).getLast? = some r := by
    rw [← List.cons_append, List.getLast?_concat]
  refine ⟨t, r, rfl, hlast, ?_⟩
  rw [cover_concat]
  refine cover_reach fun u hu => h.le_last hlast ?_
  rcases List.mem_cons.mp hu with rfl | hu
  · exact List.mem_cons_self
  · exact List.mem_cons_of_mem t (List.mem_append_left [r] (hvs hu))

theorem InOrder.spans_cover (h : InOrder us) (hne : us ≠ []) : Spans us (cover us) := by
  obtain ⟨t, us, rfl⟩ := List.exists_cons_of_ne_nil hne
  rcases List.eq_nil_or_concat us with rfl | ⟨us, r, rfl⟩
  · exact ⟨t, t, rfl, rfl, rfl⟩
  · rw [List.concat_eq_append] at h ⊢
    exact h.spans_cover_concat (List.Subset.refl us)

/-! ## Spans of nodes -/

theorem BodyRead.spans {b : Block} (h : BodyRead us b) (hus : InOrder us) : Spans us b.span := by
  cases h with
  | intro lbrace parts balanced rbrace widened => exact hus.spans_cover_concat widened

theorem FuncRead.spans {f : FuncDef} (h : FuncRead us f) (hus : InOrder us) : Spans us f.span := by
  cases h with
  | @intro us vs n ns b header body =>
    obtain ⟨l, r, -, hr, hspan⟩ := body.spans hus.right
    obtain ⟨t, us, rfl⟩ := List.exists_cons_of_ne_nil header.ne_nil
    have hlast : (t :: us ++ vs).getLast? = some r := by
      rw [List.getLast?_append, hr]; rfl
    refine ⟨t, r, rfl, hlast, ?_⟩
    rw [hspan]
    exact cover_reach fun u hu => hus.le_last hlast (List.mem_append_left vs hu)

/-- The span of a node runs from its first token to its last. -/
theorem NodePhrase.spans (h : NodePhrase us n) (hus : InOrder us) : Spans us n.span := by
  cases h with
  | name name =>
    cases name with
    | intro => exact hus.spans_cover (List.cons_ne_nil _ _)
  | @literal t => exact ⟨t, t, rfl, rfl, rfl⟩
  | var var =>
    cases var with
    | intro => exact hus.spans_cover (List.cons_ne_nil _ _)
  | global => exact hus.spans_cover (List.cons_ne_nil _ _)
  | block body => exact body.spans hus
  | func func => exact func.spans hus

theorem Laid.between (h : Laid post us ns) (hus : InOrder us) (hn : n ∈ ns) :
    ∃ t ∈ us, ∃ r ∈ us, n.span = ⟨t.span.lo, r.span.hi⟩ := by
  induction h with
  | nil us => cases hn
  | @cons gap us vs m ns phrase followed rest ih =>
    rcases List.mem_cons.mp hn with rfl | hn
    · obtain ⟨t, r, ht, hr, hspan⟩ := phrase.spans hus.right.left
      exact ⟨t, by simp [List.mem_of_mem_head? ht], r, by simp [List.mem_of_getLast? hr], hspan⟩
    · obtain ⟨t, ht, r, hr, hspan⟩ := ih hus.right.right hn
      exact ⟨t, by simp [ht], r, by simp [hr], hspan⟩

/-- Nodes that are laid out come one after another. -/
theorem Laid.before (h : Laid post us ns) (hus : InOrder us) : ns.Pairwise Node.Before := by
  induction h with
  | nil us => exact .nil
  | @cons gap us vs n ns phrase followed rest ih =>
    refine .cons (fun m hm => ?_) (ih hus.right.right)
    obtain ⟨_, r, -, hr, hn⟩ := phrase.spans hus.right.left
    obtain ⟨t, ht, _, -, hm⟩ := rest.between hus.right.right hm
    rw [Node.Before, hn, hm]
    exact hus.right.le (List.mem_of_getLast? hr) ht

theorem NodePhrase.children_before (h : NodePhrase us n) (hpost : n.Followed post)
    (hus : InOrder us) : n.children.Pairwise Node.Before := (h.laid hpost).before hus

theorem NodePhrase.children_inside (h : NodePhrase us n) (hpost : n.Followed post)
    (hus : InOrder us) (hm : m ∈ n.children) : m.Inside n := by
  obtain ⟨t, r, ht, hr, hn⟩ := h.spans hus
  obtain ⟨t', ht', r', hr', hm⟩ := (h.laid hpost).between hus hm
  rw [Node.Inside, hn, hm]
  exact ⟨hus.first_le ht ht', hus.le_last hr hr'⟩

/-! ## Places of nodes -/

/-- The tokens of the node are those with the indices from `i` to `j`. -/
structure Node.At (ts : List Token) (n : Node) (i j : Nat) : Prop where
  le : i ≤ j
  span : ∃ t r, ts[i]? = some t ∧ ts[j]? = some r ∧ n.span = ⟨t.span.lo, r.span.hi⟩
  phrase : NodePhrase ((ts.drop i).take (j + 1 - i)) n
  followed : n.Followed (ts.drop (j + 1))

theorem Node.Stands.exists_at (h : n.Stands vs) (hvs : InOrder vs) : ∃ i j, n.At vs i j := by
  obtain ⟨pre, us, post, rfl, phrase, followed⟩ := h
  obtain ⟨t, r, ht, hr, hspan⟩ := phrase.spans hvs.right.left
  have hpos : 0 < us.length := List.length_pos_of_mem (List.mem_of_mem_head? ht)
  refine ⟨pre.length, pre.length + (us.length - 1), by omega, ⟨t, r, ?_, ?_, hspan⟩, ?_, ?_⟩
  · rw [List.getElem?_append_right (Nat.le_refl _), Nat.sub_self, List.getElem?_append_left hpos,
      ← List.head?_eq_getElem?, ht]
  · rw [List.getElem?_append_right (by omega), Nat.add_sub_cancel_left,
      List.getElem?_append_left (by omega), ← List.getLast?_eq_getElem?, hr]
  · have hlength : pre.length + (us.length - 1) + 1 - pre.length = us.length := by omega
    rwa [hlength, List.drop_left, List.take_left]
  · have hlength : pre.length + (us.length - 1) + 1 = (pre ++ us).length := by
      rw [List.length_append]
      omega
    rwa [hlength, ← List.append_assoc, List.drop_left]

end Order

end ScripCheck
