import ScripCheck.Proofs.Token.Gaps
import ScripCheck.Proofs.Tree.ErrorOrder
import ScripCheck.Proofs.Tree.Frame

/-!
# What errors report

* `SyntaxError.Arises.spans`: an error is about the end of the text, or about a run of tokens.
* `SyntaxError.Told`: how the text in a message belongs to the span. `decls_told`: it does for all
  errors of a program.
* `skips_top`: outside of bodies, tokens are skipped up to the next identifier or line break.
  `round_reported`: they are reported together.
* `RaisedAt`: the round of a program's loop that an error comes from. `mem_errors_iff`: every error
  comes from one.
-/

namespace ScripCheck

open Production

variable {src : List Char} {ts us vs : List Token} {t u : Token} {e : SyntaxError} {s s' : Cursor}

/-! ## Spans of errors -/

/-- An error is about the end of the text, or about a run of tokens. -/
theorem SyntaxError.Arises.spans (h : e.Arises src ts) (hts : InOrder ts) :
    e.span = .atEnd src ∨ ∃ us vs ws, ts = us ++ (vs ++ ws) ∧ vs ≠ [] ∧ Spans vs e.span := by
  cases h with
  | missing kinds us vs =>
    cases vs with
    | nil => exact .inl rfl
    | cons t vs => exact .inr ⟨us, [t], vs, rfl, List.cons_ne_nil t [], t, t, rfl, rfl, rfl⟩
  | @numeral _ t mem =>
    obtain ⟨us, ws, rfl⟩ := List.append_of_mem mem
    exact .inr ⟨us, [t], ws, rfl, List.cons_ne_nil t [], t, t, rfl, rfl, rfl⟩
  | skipped kinds us ws nonempty =>
    exact .inr ⟨us, _, ws, rfl, nonempty, hts.right.left.spans_cover nonempty⟩

/-- Only at the end of the text an error has an empty span. -/
theorem SyntaxError.Arises.nonempty (h : e.Arises src ts) (hts : InOrder ts) :
    e.span = .atEnd src ∨ e.span.lo < e.span.hi := by
  refine (h.spans hts).imp_right ?_
  rintro ⟨us, vs, ws, rfl, -, t, r, ht, hr, hspan⟩
  have hvs : InOrder vs := hts.right.left
  have htr := hvs.le_last hr (List.mem_of_mem_head? ht)
  have hpos := hvs.nonempty t (List.mem_of_mem_head? ht)
  rw [hspan]
  dsimp only
  omega

/-! ## Spans and messages -/

/-- How the span of an error and what its message says it found belong together. -/
inductive SyntaxError.Told (src : List Char) (ts : List Token) : SyntaxError → Prop where
  | missing (kinds : List Kind) {t : Token} (mem : t ∈ ts) :
    Told src ts ⟨.expected kinds t.found, t.span⟩
  | missingEnd (kinds : List Kind) : Told src ts ⟨.expected kinds .endOfInput, .atEnd src⟩
  | numeral {t : Token} (mem : t ∈ ts) : Told src ts ⟨.numeral, t.span⟩
  /-- The tokens `us` were skipped behind the token `t`, which is no line break. -/
  | skipped (kinds : List Kind) {t : Token} (us : List Token) (mem : t ∈ ts)
    (kind : t.kind ≠ .newline) : Told src ts
      ⟨.expected kinds (.text (String.ofList ((cover (t :: us)).slice src))), cover (t :: us)⟩

theorem forall_mem_concat {P : SyntaxError → Prop} {es : List SyntaxError} (h : ∀ e ∈ es, P e)
    (he : P e) : ∀ e' ∈ es ++ [e], P e' :=
  List.forall_mem_append.mpr ⟨h, List.forall_mem_singleton.mpr he⟩

/-- Reading the tokens `ts` beside itself, to keep what holds of each error. -/
def Likeness.told (src : List Char) (ts : List Token) : Likeness src src where
  span _ _ := True
  value := Eq
  token t u := u = t ∧ t ∈ ts
  errors es es' := es' = es ∧ ∀ e ∈ es, e.Told src ts
  kind h := h.1 ▸ rfl
  place _ := trivial
  text h _ := h.1 ▸ rfl
  same _ := rfl
  unquoted h _ := h.1 ▸ rfl
  reach _ _ := trivial
  atEnd := trivial
  missing := by
    rintro _ es t _ kinds ⟨rfl, hes⟩ ⟨rfl, ht⟩
    exact ⟨rfl, forall_mem_concat hes (.missing kinds ht)⟩
  missingEnd := by
    rintro _ es kinds ⟨rfl, hes⟩
    exact ⟨rfl, forall_mem_concat hes (.missingEnd kinds)⟩
  numeral := by
    rintro _ es t _ ⟨rfl, hes⟩ ⟨rfl, ht⟩ -
    exact ⟨rfl, forall_mem_concat hes (.numeral ht)⟩
  skipped := by
    rintro _ es us vs kinds ⟨rfl, hes⟩ hus hne hline
    have hsame : vs = us ∧ ∀ t ∈ us, t ∈ ts := by
      clear hne hline
      induction hus with
      | nil => exact ⟨rfl, fun _ ht => absurd ht List.not_mem_nil⟩
      | cons htu hus ih =>
        obtain ⟨rfl, ht⟩ := htu
        obtain ⟨rfl, hus⟩ := ih
        exact ⟨rfl, List.forall_mem_cons.mpr ⟨ht, hus⟩⟩
    obtain ⟨rfl, hmem⟩ := hsame
    obtain ⟨t, us, rfl⟩ := List.exists_cons_of_ne_nil hne
    exact ⟨rfl, forall_mem_concat hes
      (.skipped kinds us (hmem t List.mem_cons_self) (hline t List.mem_cons_self))⟩

theorem decls_told {ds : List (Option Decl)} (h : decls src ⟨ts, [], []⟩ = .found ds s) :
    ∀ e ∈ s.errors, e.Told src ts := by
  have hstart : (Likeness.told src ts).Cursors NoneOpen ⟨ts, [], []⟩ ⟨ts, [], []⟩ :=
    ⟨List.forall₂_same.mpr fun _ ht => ⟨rfl, ht⟩, ⟨rfl, rfl⟩, rfl, nofun⟩
  have hrun := Likeness.decls NoneOpen (widens_noneOpen _) _ _ hstart
  rw [h] at hrun
  cases hrun with
  | found value cursors => exact cursors.errors.2

/-! ## Runs of tokens outside of bodies -/

/-- Outside of bodies, skipping goes on up to the next identifier or line break. -/
theorem skips_top (hs : s.rest = t :: vs) : ∃ last us ts, Skips false 0 s last 0 (t :: us) ts ∧
    (∀ u ∈ us, u.kind ∉ [.ident, .newline]) ∧ (ts = [] ∨ Starts [.ident, .newline] ts) := by
  have hends (k : Kind) (ts : List Token) :
      EndsRun false 0 k ts ↔ ts = [] ∨ Starts [.ident, .newline] ts := by
    simp [EndsRun, closesGroup]
  have hnone : ∀ u ∈ ([] : List Token), u.kind ∉ [Kind.ident, .newline] := fun _ hu =>
    absurd hu List.not_mem_nil
  induction s using Cursor.pass_induction generalizing t vs with
  | nil s hnil => rw [hnil] at hs; cases hs
  | cons s u ws hrest ih =>
    obtain ⟨rfl, rfl⟩ := List.cons.inj (hs.symm.trans hrest)
    have hlast (hend : vs = [] ∨ Starts [.ident, .newline] vs) : Skips false 0 s t 0 [t] vs :=
      .last hs ((hends _ _).mpr hend)
    cases vs with
    | nil => exact ⟨t, [], [], hlast (.inl rfl), hnone, .inl rfl⟩
    | cons u vs =>
      by_cases hu : u.kind ∈ [Kind.ident, .newline]
      · exact ⟨t, [], u :: vs, hlast (.inr hu), hnone, .inr hu⟩
      · have hpass : (s.pass t (u :: vs)).rest = u :: vs := rfl
        obtain ⟨last, us, ts, hskips, hus, hts⟩ := ih hpass
        have hmore : ¬ EndsRun false (depthAfter false 0 t.kind) t.kind (u :: vs) := by
          rw [depthAfter, if_neg Bool.false_ne_true, hends]
          rintro (hnil | hstarts)
          · cases hnil
          · exact hu hstarts
        exact ⟨last, u :: us, ts, .cons hs hmore hskips, List.forall_mem_cons.mpr ⟨hu, hus⟩, hts⟩

theorem item?_other {b : Bool} {other : Production (Option Item)}
    (h : ¬ Starts [.ident, .globalWord] s.rest) : item? src b other s = other s := by
  have hident : ¬ Starts [.ident] s.rest := fun h' => h (h'.mono (by simp))
  have hglobal : ¬ Starts [.globalWord] s.rest := fun h' => h (h'.mono (by simp))
  unfold item?
  rw [if_neg (mt Cursor.at?_iff.mp hident), if_neg (mt Cursor.at?_iff.mp hglobal)]

/-- The round of a program at a token that starts no declaration and ends no line. -/
theorem round_other (h : ¬ Starts (.newline :: declarationStarts) s.rest) :
    orEmptyLine (declaration src) s = (unexpected src declarationStarts false s).map
      fun _ => none := by
  have hnewline : ¬ Starts [.newline] s.rest := fun h' => h (h'.mono (by simp))
  have hfunc : ¬ Starts [.funcWord] s.rest := fun h' => h (h'.mono (by decide))
  have hitem : ¬ Starts [.ident, .globalWord] s.rest := fun h' => h (h'.mono (by decide))
  rw [orEmptyLine, if_neg (mt Cursor.at?_iff.mp hnewline), declaration,
    if_neg (mt Cursor.at?_iff.mp hfunc), bind_apply, item?_other hitem, reported, bind_apply]
  cases unexpected src declarationStarts false s <;> rfl

/-- A token that starts no declaration is reported with all tokens up to the next identifier or line
break. -/
theorem round_reported (src : List Char) (hs : s.rest = t :: vs)
    (ht : t.kind ∉ .newline :: declarationStarts) :
    ∃ us ws s', vs = us ++ ws ∧ (∀ u ∈ us, u.kind ∉ [.ident, .newline]) ∧
      (ws = [] ∨ Starts [.ident, .newline] ws) ∧
      orEmptyLine (declaration src) s = .found none s' ∧
      s'.errors = s.errors ++ [⟨.expected declarationStarts
        (.text (String.ofList ((cover (t :: us)).slice src))), cover (t :: us)⟩] := by
  obtain ⟨last, us, ws, hskips, hus, hws⟩ := skips_top (s := s.opened src) hs
  obtain rfl : vs = us ++ ws := (List.cons.inj (hs.symm.trans hskips.rest)).2
  let e : SyntaxError := ⟨.expected declarationStarts
    (.text (String.ofList ((cover (t :: us)).slice src))), cover (t :: us)⟩
  obtain ⟨us', ws', -, hresync⟩ := resync_past false 0 ((s.past (t :: us) ws).record e)
  have hrun : unexpected src declarationStarts false s =
      .found () (((s.past (t :: us) ws).record e).past us' ws') := by
    rw [unexpected_run src _ hskips, ← hresync]; rfl
  have hother : ¬ Starts (.newline :: declarationStarts) s.rest := by rwa [hs]
  exact ⟨us, ws, _, rfl, hus, hws, by rw [round_other hother, hrun]; rfl, rfl⟩

/-! ## Rounds of a program -/

/-- The loop of a program comes to `s`, and the round there adds the error. -/
def RaisedAt (src : List Char) (ts : List Token) (s : Cursor) (e : SyntaxError) : Prop :=
  Reaches src ⟨ts, [], []⟩ s ∧ ∃ d s' es, orEmptyLine (declaration src) s = .found d s' ∧
    s'.errors = s.errors ++ es ∧ e ∈ es

theorem round_takes {d : Option Decl} (hrun : orEmptyLine (declaration src) s = .found d s') :
    inProgram s = true ∧ ∃ us, s.Takes src s' us s'.spans := by
  have hne : s.rest ≠ [] := by
    intro hnil
    rw [round_other (by rw [hnil]; exact id), unexpected_nil src _ hnil] at hrun
    cases hrun
  have hkeeps : KeptOutcome src AnyTokens s (orEmptyLine (declaration src) s) :=
    (keeps_declaration hne).orEmptyLine s rfl
  rw [hrun] at hkeeps
  cases hkeeps with
  | found takes => exact ⟨by simpa [inProgram] using hne, _, takes⟩

/-- Where the loop comes to, some tokens are left. -/
theorem Reaches.suffix (h : Reaches src s s') : s'.rest <:+ s.rest := by
  induction h with
  | refl => exact List.suffix_rfl
  | round before run ih =>
    obtain ⟨-, us, htakes⟩ := round_takes run
    exact List.IsSuffix.trans ⟨us, htakes.rest.symm⟩ ih

/-- From where the loop comes to, it goes on to the same end. -/
theorem Reaches.decls {s₀ : Cursor} {ds : List (Option Decl)} (h : Reaches src s₀ s)
    (hrun : decls src s₀ = .found ds s') : ∃ ds', ScripCheck.decls src s = .found ds' s' := by
  induction h with
  | refl => exact ⟨ds, hrun⟩
  | round before run ih =>
    obtain ⟨ds', hloop⟩ := ih
    obtain ⟨_, s₃, bs, hround, hrec, -⟩ := whileAt_found _ (round_takes run).1 hloop
    rw [run] at hround
    cases hround
    exact ⟨bs, hrec⟩

theorem decls_keepsErrors {ds : List (Option Decl)} (hrun : decls src s = .found ds s') :
    s.errors <+: s'.errors := by
  have hkeeps : KeptOutcome src AnyTokens s (decls src s) := keeps_decls s rfl
  rw [hrun] at hkeeps
  cases hkeeps with
  | found takes =>
    obtain ⟨es, herrors, -⟩ := takes.errors
    exact ⟨es, herrors.symm⟩

theorem raisedAt_of_decls {ds : List (Option Decl)} (h : Reaches src ⟨ts, [], []⟩ s)
    (hrun : decls src s = .found ds s') (he : e ∈ s'.errors) :
    e ∈ s.errors ∨ ∃ s₁, RaisedAt src ts s₁ e := by
  have hadvances : Advances inProgram (orEmptyLine (declaration src)) :=
    advances_orEmptyLine fun s _ => advances_declaration src s rfl
  induction s using whileAt_induction hadvances generalizing ds with
  | stop s hgo =>
    rw [decls, whileAt_stop hadvances hgo] at hrun
    cases hrun
    exact .inl he
  | round s hgo ih =>
    obtain ⟨d, s₁, bs, hround, hrec, -⟩ := whileAt_found hadvances hgo hrun
    obtain ⟨-, us, htakes⟩ := round_takes hround
    obtain ⟨es, herrors, -⟩ := htakes.errors
    rcases ih d s₁ hround (h.round hround) hrec with he | he
    · rcases List.mem_append.mp (herrors ▸ he) with he | he
      · exact .inl he
      · exact .inr ⟨s, h, d, s₁, es, hround, herrors, he⟩
    · exact .inr he

/-- The errors of a program are those of the rounds of its loop. -/
theorem mem_errors_iff {ds : List (Option Decl)} (hrun : decls src ⟨ts, [], []⟩ = .found ds s') :
    e ∈ s'.errors ↔ ∃ s, RaisedAt src ts s e := by
  constructor
  · intro he
    exact (raisedAt_of_decls (.refl _) hrun he).resolve_left List.not_mem_nil
  · rintro ⟨s, hreaches, d, s₁, es, hround, herrors, he⟩
    obtain ⟨ds', hrun'⟩ := (hreaches.round hround).decls hrun
    refine (decls_keepsErrors hrun').subset ?_
    rw [herrors]
    exact List.mem_append_right _ he

end ScripCheck
