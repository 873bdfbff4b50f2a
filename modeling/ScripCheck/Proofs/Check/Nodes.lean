import ScripCheck.Proofs.Tree.Node

/-!
# Where nodes are in a text

Whether or not a text has syntax errors, each node that was read has the span of its tokens, lies
inside the node that it is a part of, and ends before the next one starts.

* `laid_decl`: what is read of a program, laid out over its tokens.
* `lex_parse_nodes`: where every node of what was read is.
-/

namespace ScripCheck

variable {src : List Char} {ts us post : List Token} {n : Node}

theorem laid_decl {d : Decl} (h : DeclRead us (some d)) : Laid post us [d.node] := by
  generalize hd : some d = o at h
  cases h with
  | @part i part =>
    cases i with
    | none => cases hd
    | some i => cases hd; exact laid_part part
  | func func =>
    cases hd
    exact NodePhrase.laid_self (.func func) nofun

/-- In a text that lexes, each node of what was read stands for a run of tokens, and its span runs
from the first of them to the last. Its children lie inside it, one after another, as the
declarations do in the text. -/
theorem lex_parse_nodes (hlex : lex src = .ok ts) : ∃ p, parse src ts = .ok p ∧
    (p.declarations.map Decl.node).Pairwise Node.Before ∧
    ∀ d ∈ p.declarations, ∀ n : Node, n.Within d.node → (∃ i j, n.At ts i j) ∧
      n.children.Pairwise Node.Before ∧ ∀ m ∈ n.children, m.Inside n := by
  have horder := lex_inOrder hlex
  obtain ⟨ds, es, hparse, hread⟩ := parse_reads src (lex_booleansSpelled hlex)
  have hlaid : Laid [] ts ((ds.filterMap id).map Decl.node) :=
    laid_star_option (fun _ _ _ => laid_decl) hread
  refine ⟨_, hparse, hlaid.before horder, fun d hd n hn => ?_⟩
  have hdecl : d.node.Stands ts := List.append_nil ts ▸ hlaid.stands (List.mem_map_of_mem hd)
  have hstands : n.Stands ts := hdecl.within hn
  have hat := hstands.exists_at horder
  obtain ⟨pre, us, post, rfl, phrase, followed⟩ := hstands
  have hus : InOrder us := horder.right.left
  exact ⟨hat, phrase.children_before followed hus,
    fun m hm => phrase.children_inside followed hus hm⟩

/-- The body of `func f(){x` with `T y=1` on its next line is read from brace to brace, although
`x` is an error. -/
theorem lex_parse_nodes_garbled : ∃ ts f e,
    lex "func f()\x7bx\nT y=1\n\x7d".toList = .ok ts ∧
    parse "func f()\x7bx\nT y=1\n\x7d".toList ts = .ok ⟨[.func f], [e]⟩ ∧
    f.body.span = ⟨8, 18⟩ ∧ ∃ i j, (Node.block f.body).At ts i j := by
  let ts : List Token := [⟨.funcWord, "func", ⟨0, 4⟩⟩, ⟨.ident, "f", ⟨5, 6⟩⟩,
    ⟨.lparen, "(", ⟨6, 7⟩⟩, ⟨.rparen, ")", ⟨7, 8⟩⟩, ⟨.lbrace, "\x7b", ⟨8, 9⟩⟩,
    ⟨.ident, "x", ⟨9, 10⟩⟩, ⟨.newline, "\n", ⟨10, 11⟩⟩, ⟨.ident, "T", ⟨11, 12⟩⟩,
    ⟨.ident, "y", ⟨13, 14⟩⟩, ⟨.equals, "=", ⟨14, 15⟩⟩, ⟨.intLit, "1", ⟨15, 16⟩⟩,
    ⟨.newline, "\n", ⟨16, 17⟩⟩, ⟨.rbrace, "\x7d", ⟨17, 18⟩⟩]
  let y : VarDef := ⟨⟨"T", ⟨11, 12⟩⟩, ⟨"y", ⟨13, 14⟩⟩, ⟨.int 1, ⟨15, 16⟩⟩, ⟨11, 16⟩⟩
  let f : FuncDef := ⟨⟨"f", ⟨5, 6⟩⟩, [], ⟨[.var y], ⟨8, 18⟩⟩, ⟨0, 18⟩⟩
  have hlex : lex "func f()\x7bx\nT y=1\n\x7d".toList = .ok ts := by decide +kernel
  have hparse : parse "func f()\x7bx\nT y=1\n\x7d".toList ts =
      .ok ⟨[.func f], [⟨.expected [.ident] .lineBreak, ⟨10, 11⟩⟩]⟩ := by decide +kernel
  obtain ⟨p, hp, -, hnodes⟩ := lex_parse_nodes hlex
  obtain rfl := Except.ok.inj (hparse.symm.trans hp)
  have hbody : (Node.block f.body).Within (Decl.func f).node :=
    .child (by simp [Decl.node, Node.children]) (.self _)
  exact ⟨ts, f, _, hlex, hparse, rfl,
    (hnodes (.func f) List.mem_cons_self (.block f.body) hbody).1⟩

end ScripCheck
