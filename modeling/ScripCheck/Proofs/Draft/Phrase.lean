import ScripCheck.Proofs.Draft.Basic
import ScripCheck.Proofs.Draft.Cut
import ScripCheck.Proofs.Tree.Alike

/-!
# The tokens of a draft

The text of each part of a draft is cut into a phrase for a node, and the node is what the draft
says.

* `Path.matches_of_path`: a path gives its words back.
* `cuts_path`, `cuts_constant`, `cuts_statement`, `cuts_declaration`: one lemma for each part.
* `cuts_draft`: a whole draft.
-/

namespace ScripCheck

namespace Draft

variable {last : Option Kind}

/-! ## Names -/

theorem Word.ofWord_eq (w : Word) : Kind.ofWord (String.ofList w.chars) = .ident := by
  refine (Kind.ofWord_source _).resolve_right fun hmem => w.plain ?_
  exact List.mem_map_of_mem (f := (·.1)) hmem

theorem Word.point_not_mem (w : Word) : '.' ∉ w.chars := by
  rintro hmem
  rcases List.mem_cons.mp hmem with h | h
  · exact absurd (h ▸ w.starts) (by decide)
  · exact absurd (w.goesOn _ h) (by decide)

theorem Path.chars_eq (p : Path) : p.chars = ['.'].intercalate (p.words.map Word.chars) := by
  have hmore (w : Word) (ws : List Word) : ['.'].intercalate ((w :: ws).map Word.chars) =
      w.chars ++ ws.flatMap fun w => '.' :: w.chars := by
    induction ws generalizing w with
    | nil => simp
    | cons w' ws ih => simpa using ih w'
  exact (hmore p.first p.more).symm

/-- The words of a dotted path are found again. -/
theorem Path.matches_of_path {p : Path} {n : Name}
    (h : n.path = String.intercalate "." (p.words.map fun w => String.ofList w.chars)) :
    p.Matches n := by
  have hpath : n.path.toList = p.chars := by
    rw [h, String.toList_intercalate, p.chars_eq, List.map_map]
    simp [Function.comp_def]
  have hpoint : ∀ l ∈ p.words.map Word.chars, '.' ∉ l := by
    intro l hl
    obtain ⟨w, -, rfl⟩ := List.mem_map.mp hl
    exact w.point_not_mem
  refine ⟨hpath, ?_⟩
  rw [Name.parts, pathParts, hpath, p.chars_eq,
    List.splitOn_intercalate '.' hpoint (List.cons_ne_nil _ _), List.map_map]
  rfl

theorem cuts_ident (w : Word) :
    Cuts last w.chars (OneToken .ident w.chars) (some .ident) endsWord :=
  cuts_word last w.first w.more w.starts w.goesOn w.ofWord_eq (by decide)

theorem cuts_dotted (w : Word) (last : Option Kind) : Cuts last ('.' :: w.chars)
    (fun us => ∃ t, DottedPhrase us t ∧ t.text = String.ofList w.chars) (some .ident) endsWord := by
  have hdot : Cuts last ['.'] (OneToken .dot ['.']) (some .dot) anyNext :=
    cuts_lone (by decide) (by decide +kernel) (by decide)
  refine (hdot.append_any (cuts_ident w)).mono ?_
  rintro _ ⟨⟨dot, -⟩, ⟨kind, text⟩⟩
  exact ⟨_, .intro dot kind, text⟩

theorem endsWord_of_head {d : Char} {cs : List Char} (hd : endsWord d = true) (v : List Char) :
    ∀ c ∈ (d :: cs ++ v).head?, endsWord c = true := by
  intro c hc
  obtain rfl : d = c := by simpa using hc
  exact hd

/-- A dotted name, before a character that is no part of a word. -/
theorem cuts_path (p : Path) (last : Option Kind) : ∃ last', Cuts last p.chars
    (fun us => ∃ n, NamePhrase us n ∧ p.Matches n) last' endsWord := by
  have hstart (w : Word) (v : List Char) (_ : ∀ c ∈ v.head?, endsWord c = true) :
      ∀ c ∈ ('.' :: w.chars ++ v).head?, endsWord c = true := endsWord_of_head rfl v
  obtain ⟨last', hmore⟩ := cuts_flatMap
    (fun w last => ⟨some .ident, cuts_dotted w last⟩) hstart p.more (some .ident)
  refine ⟨last', ((cuts_ident p.first).append hmore fun _ => next_flatMap hstart p.more).mono ?_⟩
  rintro _ ⟨⟨kind, text⟩, ts, hts, htexts⟩
  refine ⟨_, .intro kind hts, Path.matches_of_path ?_⟩
  have hmap := forall₂_map_eq htexts fun w (t : Token) ht => ht
  simp only [List.map_cons, hmap, text, Path.words]

/-! ## Values -/

theorem head_ne_quote (s : Sign) {ds : List Char} (cs : List Char) (hne : ds ≠ [])
    (hds : ∀ c ∈ ds, c.isDigit = true) : (s.chars ++ (ds ++ cs)).head? ≠ some '"' := by
  obtain ⟨d, ds, rfl⟩ := List.exists_cons_of_ne_nil hne
  have hd := hds d List.mem_cons_self
  cases s with
  | none =>
    rintro h
    obtain rfl : d = '"' := by simpa [Sign.chars] using h
    cases hd
  | plus => simp [Sign.chars]
  | minus => simp [Sign.chars]

theorem cuts_int {n : Int} (short : (Nat.toDigits 10 n.natAbs).length ≤ 4300) :
    Cuts last (toString n).toList (fun us => ∃ t, us = [t] ∧ Denotes t (.int n)) (some .intLit)
      isBreak := by
  obtain ⟨s, hchars, hvalue⟩ := toList_toString_int n
  have hne := Nat.toDigits_ne_nil (b := 10) (n := n.natAbs)
  have hds : ∀ c ∈ Nat.toDigits 10 n.natAbs, c.isDigit = true := fun c hc =>
    Nat.isDigit_of_mem_toDigits (by decide) (by decide) hc
  have hquote := head_ne_quote s [] hne hds
  rw [List.append_nil] at hquote
  rw [hchars]
  refine (cuts_number (List.append_ne_nil_of_right_ne_nil _ hne) hquote
    (longestLexeme_intLit hne hds) (by decide)).mono ?_
  rintro _ ⟨kind, text⟩
  have hdenotes := denotes_int kind text hne hds short
  rw [digitsValue_toDigits, hvalue] at hdenotes
  exact ⟨_, rfl, hdenotes⟩

theorem cuts_float (f : Fraction) : Cuts last f.chars (fun us => ∃ t x, us = [t] ∧
    Denotes t (.float x) ∧ Binary64.read? (String.ofList f.chars) = some x) (some .floatLit)
      isBreak := by
  refine (cuts_number (by simp) (head_ne_quote f.sign _ f.whole.nonempty f.whole.digits)
    (longestLexeme_floatLit f.whole.nonempty f.whole.digits f.part.nonempty f.part.digits)
    (by decide)).mono ?_
  rintro _ ⟨kind, text⟩
  have hdenotes := denotes_float kind text f.whole.nonempty f.whole.digits f.part.digits
  generalize Binary64.ofNumeral _ = x at hdenotes
  cases hdenotes with
  | float _ reads => exact ⟨_, x, rfl, .float kind reads, text ▸ reads⟩

theorem endsWord_of_isBreak {c : Char} (hc : isBreak c = true) : endsWord c = true := by
  have hcases : c = '\n' ∨ c = '\r' := by simpa [isBreak] using hc
  rcases hcases with rfl | rfl <;> rfl

/-- A value, before a line break. -/
theorem cuts_constant (c : Constant) (last : Option Kind) : ∃ k, k.absorbsNewline = false ∧
    Cuts last c.chars (fun us => ∃ t v, us = [t] ∧ Denotes t v ∧ c.Matches v) (some k) isBreak := by
  cases c with
  | int n short =>
    refine ⟨.intLit, rfl, (cuts_int short).mono ?_⟩
    rintro _ ⟨t, rfl, hdenotes⟩
    exact ⟨t, _, rfl, hdenotes, .int⟩
  | float f =>
    refine ⟨.floatLit, rfl, (cuts_float f).mono ?_⟩
    rintro _ ⟨t, x, rfl, hdenotes, reads⟩
    exact ⟨t, _, rfl, hdenotes, .float reads⟩
  | bool b =>
    cases b with
    | true =>
      have hword := cuts_word last 'T' ['r', 'u', 'e'] rfl
        (by simp [isWordPart, isWordStart]) (k := .boolLit) (by decide +kernel) (by decide)
      refine ⟨.boolLit, rfl, (hword.before fun _ => endsWord_of_isBreak).mono ?_⟩
      rintro _ ⟨kind, text⟩
      exact ⟨_, _, rfl, .yes kind text, .bool⟩
    | false =>
      have hword := cuts_word last 'F' ['a', 'l', 's', 'e'] rfl
        (by simp [isWordPart, isWordStart]) (k := .boolLit) (by decide +kernel) (by decide)
      refine ⟨.boolLit, rfl, (hword.before fun _ => endsWord_of_isBreak).mono ?_⟩
      rintro _ ⟨kind, text⟩
      exact ⟨_, _, rfl, .no kind text, .bool⟩
  | str cs unquoted =>
    refine ⟨.strLit, rfl, ((cuts_quoted unquoted).before fun _ _ => rfl).mono ?_⟩
    rintro _ ⟨kind, text⟩
    refine ⟨_, _, rfl, .str kind, ?_⟩
    rw [text, unquote_quoted]
    exact .str

/-! ## Variables -/

theorem cuts_equals : Cuts last " = ".toList (OneToken .equals ['=']) (some .equals) anyNext := by
  have hequals : Cuts last ['='] (OneToken .equals ['=']) (some .equals) anyNext :=
    cuts_lone (by decide) (by decide +kernel) (by decide)
  refine (cuts_space.append_any (hequals.append_any cuts_space)).mono ?_
  rintro _ ⟨rfl, ⟨h, rfl⟩⟩
  simpa using h

/-- A variable with its line break. -/
theorem cuts_variable (v : Variable) (last : Option Kind) : Cuts last v.chars (fun us => ∃ vs t d,
    us = vs ++ [t] ∧ VarPhrase vs d ∧ t.kind = .newline ∧ v.Matches d) (some .newline) anyNext := by
  obtain ⟨last', hname⟩ := cuts_path v.name (some .ident)
  obtain ⟨k, hk, hvalue⟩ := cuts_constant v.value (some .equals)
  have hnewline : Cuts (some k) ['\n'] (OneToken .newline ['\n']) (some .newline) anyNext :=
    cuts_newline hk
  have hline := hvalue.append hnewline fun _ _ c hc => by
    obtain rfl : '\n' = c := by simpa using hc
    rfl
  have hrest := hname.append (cuts_equals.append_any hline) fun _ _ => endsWord_of_head rfl _
  refine ((cuts_ident v.type).append (cuts_space.append_any hrest)
    fun _ _ => endsWord_of_head rfl _).mono ?_
  rintro _ ⟨⟨type, text⟩, ⟨rfl, ⟨⟨n, name, hn⟩, ⟨⟨equals, -⟩, ⟨⟨t, x, rfl, value, hx⟩,
    ⟨newline, -⟩⟩⟩⟩⟩⟩
  refine ⟨_, _, _, ?_, .intro type name equals value, newline, ?_, hn, hx⟩
  · simp
  · exact Path.matches_of_path (by simp [Path.words, text])

theorem cuts_statement (s : Statement) (last : Option Kind) : Cuts last s.chars
    (fun us => ∃ i, PartPhrase us (some i) ∧ s.Matches i) (some .newline) anyNext := by
  cases s with
  | var v =>
    refine (cuts_variable v last).mono ?_
    rintro _ ⟨vs, t, d, rfl, var, newline, hd⟩
    exact ⟨_, .item (.var var) newline, .var hd⟩
  | global v =>
    have hword := cuts_word last 'g' ['l', 'o', 'b', 'a', 'l'] rfl
      (by simp [isWordPart, isWordStart]) (k := .globalWord) (by decide +kernel) (by decide)
    refine (hword.append (cuts_space.append_any (cuts_variable v _))
      fun _ _ => endsWord_of_head rfl _).mono ?_
    rintro _ ⟨⟨word, -⟩, ⟨rfl, ⟨vs, t, d, rfl, var, newline, hd⟩⟩⟩
    exact ⟨_, .item (.global word var) newline, .global hd _⟩

/-! ## Functions -/

theorem cuts_nextParam (p : Path) (last : Option Kind) : ∃ last', Cuts last (", ".toList ++ p.chars)
    (fun us => ∃ n, NextParamPhrase us n ∧ p.Matches n) last' endsWord := by
  have hcomma : Cuts last [','] (OneToken .comma [',']) (some .comma) anyNext :=
    cuts_lone (by decide) (by decide +kernel) (by decide)
  obtain ⟨last', hname⟩ := cuts_path p (some .comma)
  refine ⟨last', (hcomma.append_any (cuts_space.append_any hname)).mono ?_⟩
  rintro _ ⟨⟨comma, -⟩, ⟨rfl, n, name, hn⟩⟩
  exact ⟨n, .intro comma name, hn⟩

theorem cuts_params (ps : List Path) (last : Option Kind) : ∃ last', Cuts last (listChars ps)
    (fun us => ∃ ns, ParamsPhrase us ns ∧ List.Forall₂ Path.Matches ps ns) last' endsWord := by
  cases ps with
  | nil => exact ⟨last, cuts_nil ⟨[], .none, .nil⟩⟩
  | cons p ps =>
    have hstart (p : Path) (v : List Char) (_ : ∀ c ∈ v.head?, endsWord c = true) :
        ∀ c ∈ (", ".toList ++ p.chars ++ v).head?, endsWord c = true := endsWord_of_head rfl v
    obtain ⟨last₁, hfirst⟩ := cuts_path p last
    obtain ⟨last₂, hmore⟩ := cuts_flatMap cuts_nextParam hstart ps last₁
    refine ⟨last₂, (hfirst.append hmore fun _ => next_flatMap hstart ps).mono ?_⟩
    rintro _ ⟨⟨n, first, hn⟩, ns, more, hns⟩
    exact ⟨n :: ns, .some first more, .cons hn hns⟩

theorem star_map {α β : Type} {L : List Token → β → Prop} {f : α → β} {us : List Token}
    {as : List α} (h : Star (fun us a => L us (f a)) us as) : Star L us (as.map f) := by
  induction h with
  | nil => exact .nil
  | cons head _ ih => exact .cons head ih

theorem cuts_body (ss : List Statement) (last : Option Kind) : ∃ last',
    Cuts last (ss.flatMap Statement.chars) (fun us => ∃ is, Star PartPhrase us (is.map some) ∧
      List.Forall₂ Statement.Matches ss is) last' anyNext := by
  obtain ⟨last', h⟩ := cuts_flatMap (fun s last => ⟨_, cuts_statement s last⟩)
    (fun _ _ _ _ _ => rfl) ss last
  exact ⟨last', h.mono fun _ ⟨is, his, hmatches⟩ => ⟨is, star_map his, hmatches⟩⟩

/-- The brackets of a function. The line breaks after its braces end no statement. -/
theorem cuts_lparen : Cuts last "(".toList (OneToken .lparen ['(']) (some .lparen) anyNext :=
  cuts_lone (by decide) (by decide +kernel) (by decide)

theorem cuts_lbrace (last : Option Kind) : Cuts last ") \x7b\n".toList
    (Both (OneToken .rparen [')']) (OneToken .lbrace ['\x7b'])) (some .lbrace) anyNext := by
  have hrparen : Cuts last [')'] (OneToken .rparen [')']) (some .rparen) anyNext :=
    cuts_lone (by decide) (by decide +kernel) (by decide)
  have hlbrace : Cuts (some .rparen) ['\x7b'] (OneToken .lbrace ['\x7b']) (some .lbrace) anyNext :=
    cuts_lone (by decide) (by decide +kernel) (by decide)
  refine (hrparen.append_any (cuts_space.append_any
    (hlbrace.append_any (cuts_absorbed rfl)))).mono ?_
  rintro _ ⟨h, ⟨rfl, ⟨h', rfl⟩⟩⟩
  exact .intro h (by simpa using h')

theorem cuts_rbrace : Cuts last "\x7d\n".toList (OneToken .rbrace ['\x7d']) (some .rbrace)
    anyNext := by
  have hrbrace : Cuts last ['\x7d'] (OneToken .rbrace ['\x7d']) (some .rbrace) anyNext :=
    cuts_lone (by decide) (by decide +kernel) (by decide)
  refine (hrbrace.append_any (cuts_absorbed rfl)).mono ?_
  rintro _ ⟨h, rfl⟩
  simpa using h

theorem cuts_declaration (d : Declaration) (last : Option Kind) : ∃ last', Cuts last d.chars
    (fun us => ∃ x, DeclPhrase us (some x) ∧ d.Matches x) last' anyNext := by
  cases d with
  | statement s =>
    refine ⟨_, (cuts_statement s last).mono ?_⟩
    rintro us ⟨i, part, hi⟩
    exact ⟨.item i, .part part, .statement hi⟩
  | func n ps ss =>
    have hword := cuts_word last 'f' ['u', 'n', 'c'] rfl
      (by simp [isWordPart, isWordStart]) (k := .funcWord) (by decide +kernel) (by decide)
    obtain ⟨last₁, hname⟩ := cuts_path n (some .funcWord)
    obtain ⟨last₂, hparams⟩ := cuts_params ps (some .lparen)
    obtain ⟨last₃, hbody⟩ := cuts_body ss (some .lbrace)
    have hblock := (cuts_lbrace last₂).append_any (hbody.append_any cuts_rbrace)
    have hlist := hparams.append hblock fun _ _ => endsWord_of_head rfl _
    have hrest := hname.append (cuts_lparen.append_any hlist) fun _ _ => endsWord_of_head rfl _
    refine ⟨_, Cuts.mono (hword.append (cuts_space.append_any hrest) fun _ _ =>
      endsWord_of_head rfl _) ?_⟩
    rintro _ ⟨⟨word, -⟩, ⟨rfl, ⟨⟨n, name, hn⟩, ⟨⟨lparen, -⟩, ⟨⟨ns, params, hns⟩,
      ⟨⟨⟨rparen, -⟩, ⟨lbrace, -⟩⟩, ⟨⟨is, body, his⟩, ⟨rbrace, -⟩⟩⟩⟩⟩⟩⟩⟩
    have hfunc := FuncPhrase.intro (.intro word name lparen params rparen) lbrace body rbrace
    refine ⟨_, .func (by simpa using hfunc), .func hn hns ?_⟩
    simpa using his

/-- A draft is cut into the tokens of a program that is what the draft says. -/
theorem cuts_draft (ds : List Declaration) (last : Option Kind) : ∃ last',
    Cuts last (ds.flatMap Declaration.chars) (fun us => ∃ xs, Star DeclPhrase us (xs.map some) ∧
      List.Forall₂ Declaration.Matches ds xs) last' anyNext := by
  obtain ⟨last', h⟩ := cuts_flatMap cuts_declaration (fun _ _ _ _ _ => rfl) ds last
  exact ⟨last', h.mono fun _ ⟨xs, hxs, hmatches⟩ => ⟨xs, star_map hxs, hmatches⟩⟩

end Draft

end ScripCheck
