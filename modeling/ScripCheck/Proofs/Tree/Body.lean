import ScripCheck.Proofs.Tree.Frame
import ScripCheck.Proofs.Tree.Local

/-!
# The end of a body

A body ends at its own closing brace, whatever stands between the braces, if only the braces there
are balanced.

* `Balanced`: the braces among some tokens. `Closes` is the same from a depth on.
* `InBody`: balanced tokens are left before the closing brace. Each round of the loop of a body
  keeps this: `statement_inBody`.
* `parts_inBody`: the loop ends right before the closing brace.
* `parse_function`: what follows a function is read as if the function were not there.
-/

namespace ScripCheck

open Production

/-- No brace closes a group that is not open, and all groups are closed. -/
structure Balanced (ts : List Token) : Prop where
  opened : ∀ us, us <+: ts → (us.map (·.kind)).count .rbrace ≤ (us.map (·.kind)).count .lbrace
  closed : (ts.map (·.kind)).count .rbrace = (ts.map (·.kind)).count .lbrace

/-- From the depth `d` on, no brace closes a group that is not open, and the depth at the end
is 0. -/
def Closes : Int → List Token → Prop
  | d, [] => d = 0
  | d, t :: ts => 0 ≤ d ∧ Closes (d + t.kind.nesting) ts

theorem Closes.nonneg {d : Int} {ts : List Token} (h : Closes d ts) : 0 ≤ d := by
  cases ts with
  | nil => exact Int.le_of_eq (Eq.symm h)
  | cons t ts => exact h.1

theorem count_cons_nesting (t : Token) (us : List Token) :
    (((t :: us).map (·.kind)).count .lbrace : Int) - ((t :: us).map (·.kind)).count .rbrace =
      t.kind.nesting + ((us.map (·.kind)).count .lbrace - (us.map (·.kind)).count .rbrace) := by
  cases hk : t.kind <;> simp [hk, Kind.nesting] <;> omega

theorem Closes.of_counts {d : Int} {ts : List Token}
    (opened : ∀ us, us <+: ts → ((us.map (·.kind)).count .rbrace : Int) ≤
      d + (us.map (·.kind)).count .lbrace)
    (closed : ((ts.map (·.kind)).count .rbrace : Int) = d + (ts.map (·.kind)).count .lbrace) :
    Closes d ts := by
  induction ts generalizing d with
  | nil => simpa [Closes] using closed.symm
  | cons t ts ih =>
    refine ⟨?_, ih (fun us hus => ?_) ?_⟩
    · simpa using opened [] List.nil_prefix
    · have hcons := opened (t :: us) (List.cons_prefix_cons.mpr ⟨rfl, hus⟩)
      have := count_cons_nesting t us
      omega
    · have := count_cons_nesting t ts
      omega

theorem Balanced.closes {ts : List Token} (h : Balanced ts) : Closes 0 ts := by
  refine .of_counts (fun us hus => ?_) ?_
  · have := h.opened us hus
    omega
  · have := h.closed
    omega

theorem Closes.counts {d : Int} {us : List Token} (h : Closes d us) :
    (∀ vs, vs <+: us → ((vs.map (·.kind)).count .rbrace : Int) ≤
      d + (vs.map (·.kind)).count .lbrace) ∧
    ((us.map (·.kind)).count .rbrace : Int) = d + (us.map (·.kind)).count .lbrace := by
  induction us generalizing d with
  | nil =>
    obtain rfl : d = 0 := h
    exact ⟨fun vs hvs => by rw [List.prefix_nil.mp hvs]; simp, rfl⟩
  | cons t us ih =>
    obtain ⟨hd, hclose⟩ := h
    obtain ⟨hopened, hclosed⟩ := ih hclose
    refine ⟨fun vs hvs => ?_, ?_⟩
    · rcases List.prefix_cons_iff.mp hvs with rfl | ⟨ws, rfl, hws⟩
      · simpa using hd
      · have := count_cons_nesting t ws
        have := hopened ws hws
        omega
    · have := count_cons_nesting t us
      omega

theorem Closes.balanced {us : List Token} (h : Closes 0 us) : Balanced us := by
  obtain ⟨hopened, hclosed⟩ := h.counts
  refine ⟨fun vs hvs => ?_, by omega⟩
  have := hopened vs hvs
  omega

/-! ## Skipping inside a body -/

/-- Before the closing brace `r`, which the tokens `ts` follow, balanced tokens are left. -/
def InBody (r : Token) (ts : List Token) (s : Cursor) : Prop :=
  ∃ us, Closes 0 us ∧ s.rest = us ++ r :: ts

section Body

variable {src : List Char} {r : Token} {ts us : List Token} {s s' : Cursor} {d : Int}

theorem closesGroup_iff {k : Kind} : closesGroup true d k = true ↔ d = 0 ∧ k = .rbrace := by
  simp [closesGroup]

/-- Skipping from the depth `d` on ends at the depth 0. -/
theorem resync_inBody (hr : r.kind = .rbrace) (hus : Closes d us) (hs : s.rest = us ++ r :: ts) :
    InBody r ts (resync true d s) := by
  induction us generalizing s d with
  | nil =>
    have hd : d = 0 := hus
    rw [resync_cons hs, if_neg (by simp [hr]), if_pos (closesGroup_iff.mpr ⟨hd, hr⟩)]
    exact ⟨[], rfl, hs⟩
  | cons t us ih =>
    obtain ⟨hd, hclose⟩ := hus
    rw [resync_cons hs]
    split
    · next h =>
      obtain ⟨rfl, hk⟩ := h
      rw [hk] at hclose
      exact ⟨us, hclose, rfl⟩
    · split
      · next h =>
        obtain ⟨rfl, -⟩ := closesGroup_iff.mp h
        exact ⟨t :: us, ⟨hd, hclose⟩, hs⟩
      · split
        · next h =>
          have hdepth : d + t.kind.nesting = 0 := (closesGroup_iff.mp h).1
          rw [hdepth] at hclose
          exact ⟨us, hclose, rfl⟩
        · exact ih hclose rfl

/-- A run that is skipped ends before the closing brace, at a depth that the rest closes. -/
theorem skipRun_inBody (hr : r.kind = .rbrace) (hus : Closes d us) (hne : us ≠ [])
    (hs : s.rest = us ++ r :: ts) :
    ∃ t d' us' vs, Skips true d s t d' us' (vs ++ r :: ts) ∧ Closes d' vs := by
  induction us generalizing s d with
  | nil => exact absurd rfl hne
  | cons t us ih =>
    have hclose : Closes (d + t.kind.nesting) us := hus.2
    by_cases hend : EndsRun true (depthAfter true d t.kind) t.kind (us ++ r :: ts)
    · exact ⟨_, _, _, us, .last hs hend, hclose⟩
    · -- at the depth 0 the closing brace would have stopped the run
      have hnil : us ≠ [] := by
        rintro rfl
        exact hend (.inr (.inr (.inr ⟨rfl, hclose, List.mem_singleton.mpr hr⟩)))
      obtain ⟨u, d', us', vs, hskips, hvs⟩ := ih (s := s.pass t (us ++ r :: ts)) hclose hnil rfl
      exact ⟨u, d', _, vs, hskips.cons hs hend, hvs⟩

theorem unexpected_inBody {starts : List Kind} (hr : r.kind = .rbrace) (hus : Closes 0 us)
    (hne : us ≠ []) (hs : s.rest = us ++ r :: ts)
    (hrun : unexpected src starts true s = .found () s') : InBody r ts s' := by
  obtain ⟨t, d', us', vs, hskips, hvs⟩ := skipRun_inBody (s := s.opened src) hr hus hne hs
  rw [unexpected_run src starts hskips, report] at hrun
  split at hrun
  · next h =>
    obtain ⟨rfl, -⟩ := closesGroup_iff.mp h
    cases hrun
    exact ⟨vs, hvs, rfl⟩
  · cases hrun
    exact resync_inBody hr hvs rfl

/-- There are no braces among the tokens. -/
def Flat (ts : List Token) : Prop := ∀ t ∈ ts, t.kind.nesting = 0

theorem Inline.flat {vs : List Token} (h : Inline vs) : Flat vs := by
  intro t ht
  have hk := h t ht
  cases ht : t.kind <;> simp_all [enders, Kind.nesting]

/-- Tokens that are no braces are taken from the body. -/
theorem InBody.after_flat {vs : List Token} (h : InBody r ts s) (hr : r.kind = .rbrace)
    (hs : s.rest = vs ++ s'.rest) (hvs : Flat vs) : InBody r ts s' := by
  obtain ⟨us, hus, hrest⟩ := h
  rw [hs] at hrest
  clear hs
  induction vs generalizing us with
  | nil => exact ⟨us, hus, hrest⟩
  | cons v vs ih =>
    have hv : v.kind.nesting = 0 := hvs v List.mem_cons_self
    cases us with
    | nil =>
      obtain ⟨rfl, -⟩ := List.cons.inj hrest
      rw [hr] at hv
      cases hv
    | cons u us =>
      obtain ⟨rfl, htail⟩ := List.cons.inj hrest
      refine ih (fun t ht => hvs t (List.mem_cons_of_mem v ht)) us ?_ htail
      have hclose := hus.2
      rwa [hv] at hclose

/-! ## The loop of a body -/

theorem orResync_inBody {q : Expectation} {p : Production Item} {o : Option Item}
    (hr : r.kind = .rbrace) (h : InBody r ts s) (hp : LineOutcome src q s (p s))
    (hrun : orResync true p s = .found o s') : InBody r ts s' := by
  unfold orResync at hrun
  generalize p s = o at hp hrun
  cases hp with
  | @found i vs rest' t rest inline item newline =>
    cases hrun
    have hflat : Flat (vs ++ [t]) :=
      List.forall_mem_append.mpr ⟨inline.flat, List.forall_mem_singleton.mpr (newline ▸ rfl)⟩
    exact h.after_flat hr (by simpa using rest) hflat
  | @abandoned vs e s₁ rest inline =>
    cases hrun
    obtain ⟨us, hus, hs₁⟩ := h.after_flat hr rest inline.flat
    exact resync_inBody hr hus hs₁

/-- Each round of the loop of a body ends inside the body. -/
theorem statement_inBody {i : Option Item} (hr : r.kind = .rbrace) (h : InBody r ts s)
    (hspelled : BooleansSpelled s.rest) (hgo : inBlock s = true)
    (hrun : orEmptyLine (statement src) s = .found i s') : InBody r ts s' := by
  unfold orEmptyLine statement item? at hrun
  split at hrun
  · next hat =>
    obtain ⟨t, vs, hs⟩ := List.exists_cons_of_ne_nil (inBlock_iff.mp hgo).1
    have hsplit : s.rest = [t] ++ vs := hs
    rw [Cursor.at?_iff, hs] at hat
    rw [bind_run (advance_run hs)] at hrun
    cases hrun
    refine h.after_flat hr hsplit fun u hu => ?_
    obtain rfl := List.mem_singleton.mp hu
    rw [List.mem_singleton.mp hat]; rfl
  · split at hrun
    · next hat =>
      have hline : LineOutcome src (.start true) s (terminated (varItem src) s) :=
        (reads_varItem (Cursor.at?_iff.mp hat)).terminated hspelled
      exact orResync_inBody hr h hline hrun
    · split at hrun
      · next hat =>
        have hline : LineOutcome src (.start true) s (terminated (globalItem src) s) :=
          (reads_globalItem (Cursor.at?_iff.mp hat)).terminated hspelled
        exact orResync_inBody hr h hline hrun
      · obtain ⟨us, hus, hs⟩ := h
        have hne : us ≠ [] := by
          rintro rfl
          refine (inBlock_iff.mp hgo).2 ?_
          rw [hs]
          exact List.mem_singleton.mpr hr
        obtain ⟨_, s₁, hskipped, hpure⟩ := bind_found hrun
        cases hpure
        exact unexpected_inBody hr hus hne hs hskipped

/-- The loop of a body ends right before the closing brace. -/
theorem parts_inBody (src : List Char) (hr : r.kind = .rbrace) (h : InBody r ts s)
    (hspelled : BooleansSpelled s.rest) : ∃ is s', parts src s = .found is s' ∧
      s'.rest = r :: ts ∧ s'.spans.length = s.spans.length := by
  have hkeeps (s : Cursor) (i : Option Item) (s' : Cursor) (hgo : inBlock s = true)
      (h : InBody r ts s ∧ BooleansSpelled s.rest)
      (hrun : orEmptyLine (statement src) s = .found i s') :
      InBody r ts s' ∧ BooleansSpelled s'.rest := by
    refine ⟨statement_inBody hr h.1 h.2 hgo hrun, ?_⟩
    obtain ⟨hts, hend⟩ := inBlock_iff.mp hgo
    have hround : (orEmptyLine (statement src) s).GoesOn s [] :=
      (checks_statement hts hend s rfl h.2).goesOn
    rw [hrun] at hround
    cases hround with
    | found after => exact h.2.after after
  have hgoes : (parts src s).GoesOn s [] := (checks_parts s rfl hspelled).goesOn
  generalize ho : parts src s = o at hgoes
  cases hgoes with
  | @found is s' after depth =>
    obtain ⟨⟨⟨us, hus, hs'⟩, -⟩, hstop⟩ := whileAt_ends _ hkeeps ⟨h, hspelled⟩ ho
    refine ⟨is, s', rfl, ?_, depth⟩
    rw [← Bool.not_eq_true, inBlock_iff, hs'] at hstop
    cases us with
    | nil => exact hs'
    | cons t us =>
      -- a closing brace at the depth 0 would close no group
      exfalso
      refine hstop ⟨nofun, fun hk => ?_⟩
      have hnonneg := hus.2.nonneg
      rw [List.mem_singleton.mp hk] at hnonneg
      exact absurd hnonneg (by decide)
  | abandoned => exact absurd ho (Settles.whileAt _ settles_statement _ _)

/-! ## Functions -/

/-- Where the loop of a body starts, if a function starts at `s`: `us` and `l` are taken, and the
function and its body are open. -/
def bodyStart (src : List Char) (s : Cursor) (us : List Token) (l : Token) (vs : List Token) :
    Cursor :=
  (((s.opened src).past us (l :: vs)).opened src).past [l] vs

/-- A function whose body is read up to its closing brace, with or without errors. -/
theorem funcDef_of_parts {l : Token} {vs : List Token} {n : Name} {ns : List Name}
    {is : List (Option Item)} {x y : Span} {outer : List Span} (header : HeaderPhrase us n ns)
    (hl : l.kind = .lbrace) (hr : r.kind = .rbrace) (hs : s.rest = us ++ l :: vs)
    (hparts : parts src (bodyStart src s us l vs) = .found is s') (hrest : s'.rest = r :: ts)
    (hspans : s'.spans = x :: y :: outer) : funcDef src s =
      .found ⟨n, ns, ⟨is.filterMap id, x.reach r.span.hi⟩, y.reach (x.reach r.span.hi).hi⟩
        ⟨ts, Cursor.widen (y.reach (x.reach r.span.hi).hi).hi outer, s'.errors⟩ := by
  have hopened : (s.opened src).rest = us ++ l :: vs := hs
  let before : Cursor := (s.opened src).past us (l :: vs)
  have hlbrace : expect src [.lbrace] (before.opened src) = .found l (bodyStart src s us l vs) :=
    expect_run src rfl (List.mem_singleton.mpr hl)
  have hrbrace : expect src [.rbrace] s' = .found r (s'.past [r] ts) :=
    expect_run src hrest (List.mem_singleton.mpr hr)
  have htop : (s'.past [r] ts).spans = x.reach r.span.hi :: y :: outer := by
    rw [Cursor.past, hspans]; rfl
  have hblock : block src before = .found ⟨is.filterMap id, x.reach r.span.hi⟩
      ⟨ts, y.reach (x.reach r.span.hi).hi :: outer, s'.errors⟩ := by
    refine bind_run (a := (is.filterMap id, _)) (spanned_of_run src ?_ htop)
    exact (bind_run hlbrace).trans ((bind_run hparts).trans (bind_run hrbrace))
  have hinner := (bind_run (f := fun x => do return (x.1, x.2, ← block src))
    (header_run src header hopened)).trans (bind_run hblock)
  rw [funcDef_eq]
  exact bind_run (spanned_of_run src hinner rfl)

theorem bodyStart_append {l : Token} (hne : us ≠ []) (vs more : List Token) :
    bodyStart src ⟨us ++ l :: (vs ++ more), [], []⟩ us l (vs ++ more) =
      (bodyStart src ⟨us ++ l :: vs, [], []⟩ us l vs).append more := by
  obtain ⟨u, us, rfl⟩ := List.exists_cons_of_ne_nil hne
  rfl

/-- A function with any balanced body ends at its closing brace, and it is the same function with
the same errors whatever follows. -/
theorem funcDef_balanced (src : List Char) {l : Token} {body : List Token} {n : Name}
    {ns : List Name} (header : HeaderPhrase us n ns) (hl : l.kind = .lbrace)
    (hbody : Balanced body) (hr : r.kind = .rbrace) (hspelled : BooleansSpelled body) :
    ∃ f es, ∀ ts, funcDef src ⟨us ++ l :: (body ++ [r] ++ ts), [], []⟩ =
      .found f ⟨ts, [], es⟩ := by
  have hstart : InBody r [] (bodyStart src ⟨us ++ l :: (body ++ [r]), [], []⟩ us l (body ++ [r])) :=
    ⟨body, hbody.closes, rfl⟩
  have hspelled' : BooleansSpelled (body ++ [r]) :=
    hspelled.append (booleansSpelled_cons hr (by decide) booleansSpelled_nil)
  obtain ⟨is, s', hparts, hrest, hdepth⟩ := parts_inBody src hr hstart hspelled'
  have hleaves : (parts src (bodyStart src ⟨us ++ l :: (body ++ [r]), [], []⟩ us l
      (body ++ [r]))).Leaves := by
    rw [hparts, Outcome.Leaves, hrest]
    exact List.cons_ne_nil _ _
  -- the function and its body are open
  obtain ⟨x, y, hspans⟩ : ∃ x y, s'.spans = [x, y] := by
    refine List.length_eq_two.mp (hdepth.trans ?_)
    simp [bodyStart, Cursor.past, Cursor.opened, Cursor.length_widenBy]
  refine ⟨⟨n, ns, ⟨is.filterMap id, x.reach r.span.hi⟩, y.reach (x.reach r.span.hi).hi⟩, s'.errors,
    fun ts => ?_⟩
  have hparts' := local_parts.run _ ts hleaves
  rw [← bodyStart_append header.ne_nil, hparts] at hparts'
  have hrest' : (s'.append ts).rest = r :: ts := by rw [Cursor.append, hrest]; rfl
  exact funcDef_of_parts header hl hr rfl hparts' hrest' hspans

/-- A program that starts with a function goes on after it. -/
theorem decls_function {f : FuncDef} {es : List SyntaxError} (h : Starts [.funcWord] us)
    (hf : funcDef src ⟨us, [], []⟩ = .found f ⟨ts, [], es⟩) :
    decls src ⟨us, [], []⟩ = (decls src ⟨ts, [], es⟩).map (some (.func f) :: ·) := by
  have hnewline : ¬ Starts [.newline] us := h.disjoint (by decide)
  have hgo : inProgram ⟨us, [], []⟩ = true := by
    cases us with
    | nil => exact h.elim
    | cons t us => rfl
  have hround : orEmptyLine (declaration src) ⟨us, [], []⟩ =
      .found (some (.func f)) ⟨ts, [], es⟩ := by
    rw [orEmptyLine, if_neg (Cursor.at?_of_not_starts rfl hnewline), declaration,
      if_pos (Cursor.at?_of_starts rfl h)]
    exact orResync_run false (bind_run hf)
  rw [decls, whileAt_go _ hgo, hround]; rfl

/-- A function with any balanced body is read as one declaration, and what follows it is read as if
the function were not there. -/
theorem parse_function (src : List Char) {l : Token} {body : List Token} {n : Name}
    {ns : List Name} (header : HeaderPhrase us n ns) (hl : l.kind = .lbrace)
    (hbody : Balanced body) (hr : r.kind = .rbrace) (hspelled : BooleansSpelled body) :
    ∃ f es, parse src (us ++ [l] ++ body ++ [r]) = .ok ⟨[.func f], es⟩ ∧
      ∀ ts, BooleansSpelled ts → ∃ p, parse src ts = .ok p ∧
        parse src (us ++ [l] ++ body ++ [r] ++ ts) =
          .ok ⟨.func f :: p.declarations, es ++ p.errors⟩ := by
  obtain ⟨f, es, hf⟩ := funcDef_balanced src header hl hbody hr hspelled
  have hdecls (ts : List Token) : decls src ⟨us ++ [l] ++ body ++ [r] ++ ts, [], []⟩ =
      (decls src ⟨ts, [], es⟩).map (some (.func f) :: ·) := by
    have hrun := decls_function header.starts (hf ts)
    simpa using hrun
  have hend : decls src ⟨[], [], es⟩ = .found [] ⟨[], [], es⟩ := whileAt_stop _ rfl
  have hnil := hdecls []
  rw [List.append_nil, hend] at hnil
  refine ⟨f, es, parse_of_decls hnil, fun ts hts => ?_⟩
  obtain ⟨ds, s', hds, -⟩ := decls_found src (s := ⟨ts, [], []⟩) hts
  obtain ⟨s'', hbehind, herrors⟩ := decls_behind es hds
  have hafter := hdecls ts
  rw [hbehind] at hafter
  refine ⟨_, parse_of_decls hds, ?_⟩
  rw [parse_of_decls hafter, herrors]; rfl

end Body

/-- In `func f() { x } }` the first closing brace ends the function, although its body is no
statement. -/
theorem parse_function_garbled :
    let f : Token := ⟨.funcWord, "func", ⟨0, 4⟩⟩
    let n : Token := ⟨.ident, "f", ⟨5, 6⟩⟩
    let x : Token := ⟨.ident, "x", ⟨11, 12⟩⟩
    let r (lo : Int) : Token := ⟨.rbrace, "\x7d", ⟨lo, lo + 1⟩⟩
    let header : List Token := [f, n, ⟨.lparen, "(", ⟨6, 7⟩⟩, ⟨.rparen, ")", ⟨7, 8⟩⟩]
    let l : Token := ⟨.lbrace, "\x7b", ⟨9, 10⟩⟩
    (∃ n ns, HeaderPhrase header n ns) ∧ Balanced [x] ∧ BooleansSpelled [x] ∧
      ∃ f es p, parse [] (header ++ [l] ++ [x] ++ [r 13]) = .ok ⟨[.func f], es⟩ ∧
        parse [] [r 15] = .ok p ∧
        parse [] (header ++ [l] ++ [x] ++ [r 13] ++ [r 15]) =
          .ok ⟨.func f :: p.declarations, es ++ p.errors⟩ := by
  intro f n x r header l
  have hheader : HeaderPhrase header ⟨"f", ⟨5, 6⟩⟩ [] := .intro rfl (.intro rfl .nil) rfl .none rfl
  have hbalanced : Balanced [x] := Closes.balanced ⟨Int.le_refl 0, rfl⟩
  have hspelled : BooleansSpelled [x] := by simp [BooleansSpelled, x]
  have hrest : BooleansSpelled [r 15] := by simp [BooleansSpelled, r]
  have hl : l.kind = .lbrace := rfl
  have hr : (r 13).kind = .rbrace := rfl
  obtain ⟨f, es, hfunc, hall⟩ := parse_function [] hheader hl hbalanced hr hspelled
  obtain ⟨p, hp, happend⟩ := hall [r 15] hrest
  exact ⟨⟨_, _, hheader⟩, hbalanced, hspelled, f, es, p, hfunc, hp, happend⟩

end ScripCheck
