import ScripCheck.Proofs.Tree.Body
import ScripCheck.Proofs.Tree.Keeping

/-!
# What is read in spite of errors

Each round of a loop takes some tokens from the front. Where it gives a node, also after errors or
with errors in its body, they are the tokens of this node; where it gives none, they may be any.

* `PartRead`, `BodyRead`, `FuncRead`, `DeclRead`: what is taken for a node. Only the statements of a
  body may be other than in the grammar, and the braces of the body belong together.
* `parts_closes`: the loop of a body never goes past the brace that closes the body, and never stops
  at another one.
* `statement_reads`, `funcDef_reads`, `declaration_reads`: one lemma for each production.
* `parse_reads`: the tokens of a program, cut into what each round takes.
-/

namespace ScripCheck

open Production

/-- An item with its line break; or any tokens, for which no item is kept. -/
inductive PartRead : List Token → Option Item → Prop where
  | item {us : List Token} {i : Item} (part : PartPhrase us (some i)) : PartRead us (some i)
  | skipped (us : List Token) : PartRead us none

/-- Two braces that belong together, and the items that are kept of what stands between them. The
span is widened by some of the tokens there. -/
inductive BodyRead : List Token → Block → Prop where
  | intro {l r : Token} {us vs : List Token} {is : List (Option Item)} (lbrace : l.kind = .lbrace)
    (parts : Star PartRead us is) (balanced : Balanced us) (rbrace : r.kind = .rbrace)
    (widened : vs ⊆ us) :
    BodyRead (l :: (us ++ [r])) ⟨is.filterMap id, cover (l :: (vs ++ [r]))⟩

/-- A function, with or without errors in its body. -/
inductive FuncRead : List Token → FuncDef → Prop where
  | intro {us vs : List Token} {n : Name} {ns : List Name} {b : Block}
    (header : HeaderPhrase us n ns) (body : BodyRead vs b) :
    FuncRead (us ++ vs) ⟨n, ns, b, (cover us).reach b.span.hi⟩

/-- A function, or a part as in a body. -/
inductive DeclRead : List Token → Option Decl → Prop where
  | part {us : List Token} {i : Option Item} (part : PartRead us i) : DeclRead us (i.map .item)
  | func {us : List Token} {f : FuncDef} (func : FuncRead us f) : DeclRead us (some (.func f))

/-! ## Braces -/

/-- How many more groups the tokens open than they close. -/
def rise : List Token → Int
  | [] => 0
  | t :: ts => t.kind.nesting + rise ts

theorem rise_append (us vs : List Token) : rise (us ++ vs) = rise us + rise vs := by
  induction us with
  | nil => exact (Int.zero_add _).symm
  | cons t us ih => rw [List.cons_append, rise, rise, ih, Int.add_assoc]

/-- Opening braces count for one, closing ones against it. -/
theorem rise_eq_counts (us : List Token) :
    rise us = (us.map (·.kind)).count .lbrace - (us.map (·.kind)).count .rbrace := by
  induction us with
  | nil => rfl
  | cons t us ih => rw [rise, ih, count_cons_nesting]

theorem rise_flat {us : List Token} (h : Flat us) : rise us = 0 := by
  induction us with
  | nil => rfl
  | cons t us ih =>
    obtain ⟨ht, hus⟩ := List.forall_mem_cons.mp h
    rw [rise, ht, ih hus, Int.zero_add]

theorem rise_replicate {r : Token} (hr : r.kind = .rbrace) (n : Nat) :
    rise (List.replicate n r) = -n := by
  induction n with
  | zero => rfl
  | succ n ih =>
    rw [List.replicate_succ, rise, ih, hr]
    simp only [Kind.nesting]
    omega

/-- Where more groups are closed than opened, some brace is the first that closes none. -/
theorem exists_closes {d : Int} {ts : List Token} (hd : 0 ≤ d) (h : d + rise ts < 0) :
    ∃ us r vs, ts = us ++ r :: vs ∧ Closes d us ∧ r.kind = .rbrace := by
  induction ts generalizing d with
  | nil =>
    rw [rise] at h
    omega
  | cons t ts ih =>
    rw [rise] at h
    by_cases hfirst : d = 0 ∧ t.kind = .rbrace
    · exact ⟨[], t, ts, rfl, hfirst.1, hfirst.2⟩
    · have hdepth : 0 ≤ d + t.kind.nesting := by
        cases hk : t.kind <;> simp [hk, Kind.nesting] at hfirst ⊢ <;> omega
      obtain ⟨us, r, vs, rfl, hclose, hr⟩ := ih hdepth (by omega)
      exact ⟨t :: us, r, vs, rfl, ⟨hd, hclose⟩, hr⟩

section Reading

variable {α β : Type} {src : List Char} {s s' : Cursor} {us ts : List Token} {r : Token} {b : Bool}
  {kinds : List Kind} {starts : List Kind}

theorem BooleansSpelled.replicate (hr : r.kind = .rbrace) (n : Nat) :
    BooleansSpelled (List.replicate n r) := fun t ht hk => by
  rw [List.eq_of_mem_replicate ht, hr] at hk
  cases hk

/-- The loop of a body that ends before a closing brace took balanced tokens. -/
theorem parts_closes {is : List (Option Item)} (hspelled : BooleansSpelled s.rest)
    (hrun : parts src s = .found is s') (hs : s.rest = us ++ s'.rest) (hrest : s'.rest = r :: ts)
    (hr : r.kind = .rbrace) : Closes 0 us := by
  -- with enough closing braces behind the tokens, one of all these braces ends the body
  let n := (rise s.rest).toNat + 1
  let more := List.replicate n r
  have hrise : 0 + rise (s.rest ++ more) < 0 := by
    rw [rise_append, rise_replicate hr]
    omega
  obtain ⟨vs, r', ws, hsplit, hclose, hr'⟩ := exists_closes (Int.le_refl 0) hrise
  have hstart : InBody r' ws (s.append more) := ⟨vs, hclose, hsplit⟩
  have hspelled' : BooleansSpelled (s.append more).rest := hspelled.append (.replicate hr n)
  obtain ⟨is', s₁, hparts, hrest₁, -⟩ := parts_inBody src hr' hstart hspelled'
  -- the loop ended before, and it still ends there
  have hleaves : (parts src s).Leaves := by
    rw [hrun, Outcome.Leaves, hrest]
    exact List.cons_ne_nil r ts
  have hsame := local_parts.run s more hleaves
  rw [hrun, hparts] at hsame
  obtain ⟨-, rfl⟩ : is' = is ∧ s₁ = s'.append more := by simpa [Outcome.append] using hsame
  have hends : us ++ (s'.append more).rest = vs ++ (s'.append more).rest :=
    calc us ++ (s'.rest ++ more)
      _ = s.rest ++ more := by rw [hs, List.append_assoc]
      _ = vs ++ (s'.append more).rest := by rw [hsplit, hrest₁]
  exact List.append_cancel_right hends ▸ hclose

/-! ## From an outcome back to the steps -/

theorem closeSpan_rest {span : Span} (h : closeSpan s = .found span s') : s'.rest = s.rest := by
  unfold closeSpan at h
  split at h
  · cases h
  · cases h; rfl

theorem spanned_found {p : Production α} {x : α × Span} (h : spanned src p s = .found x s') :
    ∃ s₁, p (s.opened src) = .found x.1 s₁ ∧ s'.rest = s₁.rest := by
  obtain ⟨_, _, hopen, h⟩ := bind_found h
  cases hopen
  obtain ⟨a, s₁, hp, h⟩ := bind_found h
  obtain ⟨span, s₂, hclose, h⟩ := bind_found h
  cases h
  exact ⟨s₁, hp, closeSpan_rest hclose⟩

theorem expect_found {t : Token} (h : expect src kinds s = .found t s') :
    ∃ ts, s.rest = t :: ts ∧ t.kind ∈ kinds ∧ s' = s.past [t] ts := by
  by_cases hstarts : Starts kinds s.rest
  · cases hs : s.rest with
    | nil => rw [hs] at hstarts; exact hstarts.elim
    | cons u us =>
      rw [hs] at hstarts
      rw [expect_run src hs hstarts] at h
      cases h
      exact ⟨us, rfl, hstarts, rfl⟩
  · rw [expect_missing src hstarts] at h
    cases h

theorem orResync_found {p : Production α} {a : α} (h : orResync b p s = .found (some a) s') :
    p s = .found a s' := by
  unfold orResync at h
  cases hp : p s with
  | found a s₁ => rw [hp] at h; cases h; rfl
  | abandoned s₁ => rw [hp] at h; cases h
  | faulted e => rw [hp] at h; cases h

theorem orResync_none {p : Production α} (h : orResync b p s = .found none s') :
    ∃ s₁, p s = .abandoned s₁ := by
  unfold orResync at h
  cases hp : p s with
  | found a s₁ => rw [hp] at h; cases h
  | abandoned s₁ => exact ⟨s₁, rfl⟩
  | faulted e => rw [hp] at h; cases h

theorem KeptOutcome.rest {L : List Token → List Token → Prop} {a : α}
    (h : KeptOutcome src L s (.found a s')) : ∃ us, s.rest = us ++ s'.rest := by
  cases h with
  | found takes => exact ⟨_, takes.rest⟩

/-- What each round of a repetition takes, the repetition takes in a row. -/
theorem whileAt_star {go : Cursor → Bool} {p : Production α} {L : List Token → α → Prop}
    {as : List α} (progress : Advances go p)
    (hp : ∀ s a s', go s = true → BooleansSpelled s.rest → p s = .found a s' →
      ∃ us, s.rest = us ++ s'.rest ∧ L us a)
    (hspelled : BooleansSpelled s.rest) (hrun : whileAt go p progress s = .found as s') :
    ∃ us, s.rest = us ++ s'.rest ∧ Star L us as := by
  induction s using whileAt_induction progress generalizing as with
  | stop s hgo =>
    rw [whileAt_stop progress hgo] at hrun
    cases hrun
    exact ⟨[], rfl, .nil⟩
  | round s hgo ih =>
    obtain ⟨a, s₁, bs, hround, hrec, rfl⟩ := whileAt_found progress hgo hrun
    obtain ⟨us, hs, ha⟩ := hp s a s₁ hgo hspelled hround
    obtain ⟨vs, hs₁, hbs⟩ := ih a s₁ hround (hs ▸ hspelled).right hrec
    exact ⟨us ++ vs, by rw [hs, hs₁, List.append_assoc], .cons ha hbs⟩

/-! ## Items -/

theorem LineOutcome.part {q : Expectation} {i : Item} (h : LineOutcome src q s (.found i s')) :
    ∃ us, s.rest = us ++ s'.rest ∧ PartPhrase us (some i) := by
  cases h with
  | @found _ us ts t rest inline item newline =>
    exact ⟨us ++ [t], by rw [rest, List.append_assoc]; rfl, .item item newline⟩

/-- An item that is kept is an item of the grammar. -/
theorem item?_part {i : Item} (hspelled : BooleansSpelled s.rest)
    (hrun : item? src b (reported src starts b) s = .found (some i) s') :
    ∃ us, s.rest = us ++ s'.rest ∧ PartPhrase us (some i) := by
  unfold item? at hrun
  split at hrun
  · next hat =>
    have hline : LineOutcome src (.start b) s (terminated (varItem src) s) :=
      (reads_varItem (Cursor.at?_iff.mp hat)).terminated hspelled
    rw [orResync_found hrun] at hline
    exact hline.part
  · split at hrun
    · next hat =>
      have hline : LineOutcome src (.start b) s (terminated (globalItem src) s) :=
        (reads_globalItem (Cursor.at?_iff.mp hat)).terminated hspelled
      rw [orResync_found hrun] at hline
      exact hline.part
    · obtain ⟨_, _, -, hnone⟩ := bind_found hrun
      cases hnone

theorem orEmptyLine_found {p : Production (Option α)} {a : α}
    (h : orEmptyLine p s = .found (some a) s') : p s = .found (some a) s' := by
  unfold orEmptyLine at h
  split at h
  · obtain ⟨_, _, -, hnone⟩ := bind_found h
    cases hnone
  · exact h

/-- What one round of the loop of a body takes. -/
theorem statement_reads {i : Option Item} (hgo : inBlock s = true)
    (hspelled : BooleansSpelled s.rest) (hrun : orEmptyLine (statement src) s = .found i s') :
    ∃ us, s.rest = us ++ s'.rest ∧ PartRead us i := by
  cases i with
  | none =>
    have hkept : KeptOutcome src AnyTokens s (orEmptyLine (statement src) s) :=
      (keeps_item? (keeps_reported _ (inBlock_iff.mp hgo).1)).orEmptyLine s rfl
    rw [hrun] at hkept
    obtain ⟨us, hs⟩ := hkept.rest
    exact ⟨us, hs, .skipped us⟩
  | some i =>
    obtain ⟨us, hs, hpart⟩ := item?_part hspelled (orEmptyLine_found hrun)
    exact ⟨us, hs, .item hpart⟩

/-! ## Functions -/

theorem bodyStart_spans {l : Token} {vs : List Token} (hs : s.rest = us ++ l :: vs)
    (hne : us ≠ []) : (bodyStart src s us l vs).spans = cover [l] :: cover us :: s.spans := by
  obtain ⟨u, us, rfl⟩ := List.exists_cons_of_ne_nil hne
  have hhere : s.here src = u.span := by simp [Cursor.here, hs]
  have hheader : ((s.opened src).past (u :: us) (l :: vs)).spans = cover (u :: us) :: s.spans := by
    rw [Cursor.past, Cursor.opened, Cursor.widenBy_cons, hhere, cover_cons]
  rw [bodyStart, Cursor.past, Cursor.opened, hheader, Cursor.widenBy_cons]
  exact congrArg (· :: _) (cover_cons l [])

/-- How the loop of a body ran that was read. -/
theorem block_found {b : Block} (hrun : block src s = .found b s') :
    ∃ l vs is s₁ r, s.rest = l :: vs ∧ l.kind = .lbrace ∧
      parts src ((s.opened src).past [l] vs) = .found is s₁ ∧
      s₁.rest = r :: s'.rest ∧ r.kind = .rbrace := by
  obtain ⟨⟨items, span⟩, s₁, hspanned, hrun⟩ := bind_found hrun
  cases hrun
  obtain ⟨s₂, hinner, hrest⟩ := spanned_found hspanned
  obtain ⟨l, _, hl, hinner⟩ := bind_found hinner
  obtain ⟨vs, hs, hlbrace, rfl⟩ := expect_found hl
  obtain ⟨is, s₃, hparts, hinner⟩ := bind_found hinner
  obtain ⟨r, _, hr, hinner⟩ := bind_found hinner
  obtain ⟨ts, hs₃, hrbrace, rfl⟩ := expect_found hr
  cases hinner
  exact ⟨l, vs, is, s₃, r, hs, List.mem_singleton.mp hlbrace, hparts, by rw [hs₃, hrest]; rfl,
    List.mem_singleton.mp hrbrace⟩

/-- The loop of a body that starts at the opening brace of a function. -/
theorem parts_reads {l : Token} {vs : List Token} {is : List (Option Item)}
    (hs : s.rest = us ++ l :: vs) (hne : us ≠ []) (hspelled : BooleansSpelled vs)
    (hrun : parts src (bodyStart src s us l vs) = .found is s') :
    ∃ bs ws, vs = bs ++ s'.rest ∧ Star PartRead bs is ∧ ws ⊆ bs ∧
      s'.spans = cover (l :: ws) :: cover us :: s.spans := by
  obtain ⟨bs, hbs, hstar⟩ :=
    whileAt_star _ (fun _ _ _ => statement_reads) hspelled hrun
  have hkept : KeptOutcome src AnyTokens (bodyStart src s us l vs)
      (parts src (bodyStart src s us l vs)) := keeps_parts _ rfl
  rw [hrun] at hkept
  cases hkept with
  | @found _ bs' _ takes =>
    obtain ⟨ws, hws, hspans⟩ := takes.widened
    have hsame : bs' ++ s'.rest = bs ++ s'.rest := takes.rest.symm.trans hbs
    rw [bodyStart_spans hs hne, Cursor.widenBy_cons] at hspans
    exact ⟨bs, ws, hbs, hstar, List.append_cancel_right hsame ▸ hws, hspans⟩

/-- How a function was read: its header, and the loop of its body. -/
theorem funcDef_found {f : FuncDef} (h : Starts [.funcWord] s.rest)
    (hspelled : BooleansSpelled s.rest) (hrun : funcDef src s = .found f s') :
    ∃ us n ns l vs is s₁ r, HeaderPhrase us n ns ∧ s.rest = us ++ l :: vs ∧ l.kind = .lbrace ∧
      parts src (bodyStart src s us l vs) = .found is s₁ ∧ s₁.rest = r :: s'.rest ∧
      r.kind = .rbrace := by
  rw [funcDef_eq] at hrun
  obtain ⟨⟨⟨_, _, _⟩, _⟩, s₁, hspanned, hpure⟩ := bind_found hrun
  cases hpure
  obtain ⟨s₂, hinner, hrest⟩ := spanned_found hspanned
  obtain ⟨⟨n, ns⟩, s₃, hheader, hinner⟩ := bind_found hinner
  obtain ⟨b, s₄, hblock, hpure⟩ := bind_found hinner
  cases hpure
  have hread : ReadOutcome src (.start false) _ (s.opened src) (header src (s.opened src)) :=
    reads_header h (s.opened src) rfl hspelled
  rw [hheader] at hread
  cases hread with
  | @found _ us ts hs _ header =>
    obtain ⟨l, vs, is, s₅, r, hts, hl, hparts, hs₅, hr⟩ := block_found hblock
    obtain rfl : ts = l :: vs := hts
    exact ⟨us, _, _, l, vs, is, s₅, r, header, hs, hl, hparts, hs₅.trans (hrest ▸ rfl), hr⟩

/-- What is taken for a function. -/
theorem funcDef_reads {f : FuncDef} (h : Starts [.funcWord] s.rest)
    (hspelled : BooleansSpelled s.rest) (hrun : funcDef src s = .found f s') :
    ∃ us, s.rest = us ++ s'.rest ∧ FuncRead us f := by
  obtain ⟨us, n, ns, l, vs, is, s₁, r, header, hs, hl, hparts, hs₁, hr⟩ :=
    funcDef_found h hspelled hrun
  have hvs : BooleansSpelled vs := fun t ht => hspelled t (by simp [hs, ht])
  obtain ⟨bs, ws, rfl, hstar, hws, hspans⟩ := parts_reads hs header.ne_nil hvs hparts
  have hclose : Closes 0 bs := parts_closes hvs hparts rfl hs₁ hr
  have hfound := funcDef_of_parts header hl hr hs hparts hs₁ hspans
  rw [hrun, ← cover_concat] at hfound
  obtain rfl := (Outcome.found.inj hfound).1
  refine ⟨us ++ l :: (bs ++ [r]), by simp [hs, hs₁], ?_⟩
  exact .intro header (.intro hl hstar hclose.balanced hr hws)

/-! ## Programs -/

/-- What one round of the loop of a program takes. -/
theorem declaration_reads {d : Option Decl} (hgo : inProgram s = true)
    (hspelled : BooleansSpelled s.rest) (hrun : orEmptyLine (declaration src) s = .found d s') :
    ∃ us, s.rest = us ++ s'.rest ∧ DeclRead us d := by
  cases d with
  | none =>
    have hkept : KeptOutcome src AnyTokens s (orEmptyLine (declaration src) s) :=
      (keeps_declaration (by simpa [inProgram] using hgo)).orEmptyLine s rfl
    rw [hrun] at hkept
    obtain ⟨us, hs⟩ := hkept.rest
    exact ⟨us, hs, .part (.skipped us)⟩
  | some d =>
    have hdecl := orEmptyLine_found hrun
    unfold declaration at hdecl
    split at hdecl
    · next hat =>
      obtain ⟨f, s₁, hfunc, hpure⟩ := bind_found (orResync_found hdecl)
      cases hpure
      obtain ⟨us, hs, hf⟩ := funcDef_reads (Cursor.at?_iff.mp hat) hspelled hfunc
      exact ⟨us, hs, .func hf⟩
    · obtain ⟨i, s₁, hitem, hpure⟩ := bind_found hdecl
      cases i with
      | none => cases hpure
      | some i =>
        cases hpure
        obtain ⟨us, hs, hpart⟩ := item?_part hspelled hitem
        exact ⟨us, hs, .part (.item hpart)⟩

/-- Any tokens are a row of declarations and of tokens that were skipped, and the declarations are
those that reading the tokens gives. -/
theorem parse_reads (src : List Char) {ts : List Token} (hts : BooleansSpelled ts) :
    ∃ ds es, parse src ts = .ok ⟨ds.filterMap id, es⟩ ∧ Star DeclRead ts ds := by
  obtain ⟨ds, s, hrun, hend⟩ := decls_found src (s := ⟨ts, [], []⟩) hts
  obtain ⟨us, hus, hstar⟩ := whileAt_star _ (fun _ _ _ => declaration_reads) hts hrun
  obtain rfl : ts = us := by simpa [hend] using hus
  exact ⟨ds, s.errors, parse_of_decls hrun, hstar⟩

end Reading

end ScripCheck
