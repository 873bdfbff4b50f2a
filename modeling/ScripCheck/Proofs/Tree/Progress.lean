import ScripCheck.Proofs.Tree.OpenSpans
import ScripCheck.Proofs.Tree.Skipping

/-!
# Reading goes on

Where one of the two loops reads a declaration, at least one token is taken, whether the declaration
is kept, given up or reported. So a loop has at most as many rounds as there are tokens.

* `DeclarationAt`, `StatementAt`: where the loop of a program and the loops of bodies read
  declarations. `BodyAt`: where the loop of a body starts.
* `Cursor.MovesOn`: the cursor goes forward within some tokens.
* `whileAt_rounds_le`: each round of a loop takes a token.
* `reading_progresses`: reading goes on from each of these places, recovery in bodies keeps account
  of the braces, and both loops end.
-/

namespace ScripCheck

open Production

/-- While the tokens `ts` are read, the loop of the program reads a declaration at `s`. -/
structure DeclarationAt (src : List Char) (ts : List Token) (s : Cursor) : Prop where
  reached : Rounds inProgram (orEmptyLine (declaration src)) ⟨ts, [], []⟩ s
  goes : inProgram s = true
  line : ¬ Starts [.newline] s.rest

/-- While the tokens `ts` are read, the loop of a body starts at the cursor. The function starts at
`s`. -/
inductive BodyAt (src : List Char) (ts : List Token) : Cursor → Prop where
  | intro {s s₁ s' : Cursor} {x : Name × List Name} {l : Token} (func : DeclarationAt src ts s)
    (starts : Starts [.funcWord] s.rest) (header : header src (s.opened src) = .found x s₁)
    (lbrace : expect src [.lbrace] (s₁.opened src) = .found l s') : BodyAt src ts s'

/-- While the tokens `ts` are read, the loop of a body reads a statement at `s`. -/
structure StatementAt (src : List Char) (ts : List Token) (s : Cursor) : Prop where
  reached : ∃ s₀, BodyAt src ts s₀ ∧ Rounds inBlock (orEmptyLine (statement src)) s₀ s
  goes : inBlock s = true
  line : ¬ Starts [.newline] s.rest

/-- From `s` to `s'` the cursor goes forward from one place in the tokens `ts` to another. -/
def Cursor.MovesOn (ts : List Token) (s s' : Cursor) : Prop :=
  ∃ i j, s.rest = ts.drop i ∧ s'.rest = ts.drop j ∧ i < j ∧ j ≤ ts.length

section

variable {α : Type} {src : List Char} {ts : List Token} {s s' : Cursor} {p : Production α}
  {go : Cursor → Bool} {L : List Token → List Token → Prop}

/-! ## Rounds -/

/-- A loop has at most as many rounds as tokens are taken. -/
theorem whileAt_rounds_le {progress : Advances go p} {as : List α}
    (h : whileAt go p progress s = .found as s') : as.length + s'.rest.length ≤ s.rest.length := by
  induction s using whileAt_induction progress generalizing as with
  | stop s hgo =>
    rw [whileAt_stop progress hgo] at h
    cases h
    simp
  | round s hgo ih =>
    obtain ⟨a, s₁, bs, hround, hmore, rfl⟩ := whileAt_found progress hgo h
    have hless : s₁.rest.length < s.rest.length := by
      have hround' := progress s hgo
      rwa [hround] at hround'
    have hrest := ih a s₁ hround hmore
    rw [List.length_cons]
    omega

theorem Rounds.suffix (h : Rounds go p s s')
    (hp : ∀ s : Cursor, go s = true → Keeps src L p s.rest) : s'.rest <:+ s.rest := by
  induction h with
  | refl => exact List.suffix_rfl
  | @round s₁ _ _ before goes run ih =>
    have hkept := hp s₁ goes s₁ rfl
    rw [run] at hkept
    obtain ⟨us, hs₁⟩ := hkept.rest
    exact List.IsSuffix.trans ⟨us, hs₁.symm⟩ ih

theorem BooleansSpelled.suffix {us : List Token} (h : BooleansSpelled ts) (hus : us <:+ ts) :
    BooleansSpelled us := fun t ht => h t (hus.subset ht)

theorem DeclarationAt.suffix (h : DeclarationAt src ts s) : s.rest <:+ ts :=
  h.reached.suffix fun s hs => (keeps_declaration (by simpa [inProgram] using hs)).orEmptyLine

theorem BodyAt.suffix (h : BodyAt src ts s) (hspelled : BooleansSpelled ts) : s.rest <:+ ts := by
  cases h with
  | @intro s₀ s₁ _ x l func starts hheader lbrace =>
    have hread : ReadOutcome src (.start false) _ (s₀.opened src)
        (ScripCheck.header src (s₀.opened src)) :=
      reads_header starts (s₀.opened src) rfl (hspelled.suffix func.suffix)
    rw [hheader] at hread
    cases hread with
    | @found _ us ws rest =>
      obtain ⟨vs, hws, -, rfl⟩ := expect_found lbrace
      have hws : ws = l :: vs := hws
      have hafter : vs <:+ s₀.rest := ⟨us ++ [l], by
        rw [show s₀.rest = us ++ ws from rest, hws, List.append_assoc]; rfl⟩
      exact hafter.trans func.suffix

theorem StatementAt.suffix (h : StatementAt src ts s) (hspelled : BooleansSpelled ts) :
    s.rest <:+ ts := by
  obtain ⟨s₀, hbody, hrounds⟩ := h.reached
  have hafter : s.rest <:+ s₀.rest := hrounds.suffix fun s hs =>
    (keeps_statement (inBlock_iff.mp hs).1).orEmptyLine
  exact hafter.trans (hbody.suffix hspelled)

/-! ## Endings -/

/-- Where all boolean literals are spelled right, a production that keeps tokens has no fault. -/
theorem Keeps.ends (hp : Keeps src L p s.rest) (hspelled : BooleansSpelled s.rest) :
    (∃ a s', p s = .found a s' ∧ s'.rest <:+ s.rest) ∨
      ∃ s', p s = .abandoned s' ∧ s'.rest <:+ s.rest := by
  have h := hp s rfl
  generalize p s = o at h
  cases h with
  | found takes => exact .inl ⟨_, _, rfl, _, takes.rest.symm⟩
  | abandoned takes => exact .inr ⟨_, rfl, _, takes.rest.symm⟩
  | @faulted t mem misspelled =>
    rcases hspelled t mem misspelled.kind with htext | htext
    · exact absurd htext misspelled.text.1
    · exact absurd htext misspelled.text.2

theorem Keeps.ends_found (hp : Keeps src L p s.rest) (hsettles : Settles p)
    (hspelled : BooleansSpelled s.rest) : ∃ a s', p s = .found a s' ∧ s'.rest <:+ s.rest :=
  (hp.ends hspelled).resolve_right fun ⟨s', hrun, _⟩ => hsettles s s' hrun

/-- A production that never gives up, and takes a token wherever it starts, moves the cursor on. -/
theorem Keeps.movesOn (hp : Keeps src L p s.rest) (hsettles : Settles p)
    (hprogress : Advances (fun _ => true) p) (hspelled : BooleansSpelled ts)
    (hs : s.rest <:+ ts) : ∃ a s', p s = .found a s' ∧ s.MovesOn ts s' := by
  obtain ⟨a, s', hrun, hs'⟩ := hp.ends_found hsettles (hspelled.suffix hs)
  have hless : s'.rest.length < s.rest.length := by
    have h := hprogress s rfl
    rwa [hrun] at h
  have hle := hs.length_le
  exact ⟨a, s', hrun, ts.length - s.rest.length, ts.length - s'.rest.length,
    List.suffix_iff_eq_drop.mp hs, List.suffix_iff_eq_drop.mp (hs'.trans hs), by omega, by omega⟩

/-! ## Progress -/

/-- How the tokens `ts` are read. -/
structure ReadingProgresses (src : List Char) (ts : List Token) : Prop where
  /-- Where the loop of the program reads a declaration, the cursor moves on. -/
  declaration : ∀ s, DeclarationAt src ts s →
    ∃ d s', declaration src s = .found d s' ∧ s.MovesOn ts s'
  /-- So it does where the loop of a body reads a statement. What has no value is recovered from. -/
  statement : ∀ s, StatementAt src ts s → ∃ i s', statement src s = .found i s' ∧
    s.MovesOn ts s' ∧ (i = none → ∃ us m, Recovery.Begins src s us m)
  /-- At each moment, recovery of a statement has kept account of the braces. -/
  recovery : ∀ s us m vs m', StatementAt src ts s → Recovery.Begins src s us m →
    Recovery.Steps src m vs m' → Recovery.Accounted src s (us ++ vs) m'
  /-- The loop of the program ends behind the last token. -/
  program : ∃ ds s, decls src ⟨ts, [], []⟩ = .found ds s ∧ s.rest = [] ∧
    ds.length ≤ ts.length ∧ parse src ts = .ok ⟨ds.filterMap id, s.errors⟩
  /-- The loop of a body ends before a closing brace or behind the last token. -/
  body : ∀ s, BodyAt src ts s → ∃ is s', parts src s = .found is s' ∧ inBlock s' = false ∧
    is.length + s'.rest.length ≤ s.rest.length
  /-- A body is read or given up, wherever it starts. -/
  block : ∀ s : Cursor, s.rest <:+ ts →
    (∃ b s', block src s = .found b s' ∧ s'.rest <:+ s.rest) ∨
      ∃ s', block src s = .abandoned s' ∧ s'.rest <:+ s.rest

/-- Reading tokens goes on until all of them are taken. -/
theorem reading_progresses (src : List Char) (h : BooleansSpelled ts) :
    ReadingProgresses src ts where
  declaration s hs := by
    have hnext : s.rest ≠ [] := by simpa [inProgram] using hs.goes
    exact (keeps_declaration hnext).movesOn settles_declaration (advances_declaration src) h
      hs.suffix
  statement s hs := by
    have hsuffix := hs.suffix h
    have hsettles : Settles (statement src) := settles_item? (settles_reported _ _)
    obtain ⟨i, s', hrun, hmoves⟩ := (keeps_statement (inBlock_iff.mp hs.goes).1).movesOn hsettles
      (advances_statement src) h hsuffix
    refine ⟨i, s', hrun, hmoves, ?_⟩
    rintro rfl
    exact Recovery.exists_begins (h.suffix hsuffix) hrun
  recovery s us m vs m' hs hbegins hsteps :=
    hbegins.accounted hs.goes (h.suffix (hs.suffix h)) hsteps
  program := by
    obtain ⟨ds, s, hrun, hend⟩ := decls_found src (s := ⟨ts, [], []⟩) h
    have hrounds : ds.length + s.rest.length ≤ ts.length := whileAt_rounds_le hrun
    exact ⟨ds, s, hrun, hend, by omega, parse_of_decls hrun⟩
  body s hs := by
    have hsettles : Settles (parts src) := Settles.whileAt _ settles_statement
    obtain ⟨is, s', hrun, -⟩ := keeps_parts.ends_found hsettles (h.suffix (hs.suffix h))
    have hend := whileAt_ends (I := fun _ => True) _ (fun _ _ _ _ _ _ => trivial) trivial hrun
    exact ⟨is, s', hrun, hend.2, whileAt_rounds_le hrun⟩
  block s hs := keeps_block.ends (h.suffix hs)

/-- A function with a statement in its body that opens a group of braces and closes it. -/
theorem reading_progresses_group :
    let header : List Token := [⟨.funcWord, "func", ⟨0, 4⟩⟩, ⟨.ident, "f", ⟨5, 6⟩⟩,
      ⟨.lparen, "(", ⟨6, 7⟩⟩, ⟨.rparen, ")", ⟨7, 8⟩⟩]
    let l : Token := ⟨.lbrace, "\x7b", ⟨8, 9⟩⟩
    let body : List Token := [⟨.equals, "=", ⟨9, 10⟩⟩, ⟨.lbrace, "\x7b", ⟨10, 11⟩⟩,
      ⟨.ident, "x", ⟨11, 12⟩⟩, ⟨.rbrace, "\x7d", ⟨12, 13⟩⟩, ⟨.rbrace, "\x7d", ⟨13, 14⟩⟩]
    let src := "func f()\x7b=\x7bx\x7d\x7d".toList
    let ts := header ++ l :: body
    let s := bodyStart src ⟨ts, [], []⟩ header l body
    BooleansSpelled ts ∧ StatementAt src ts s ∧
      Recovery.Begins src s [] ⟨.collecting, 0, s.opened src⟩ ∧ ReadingProgresses src ts := by
  intro header l body src ts s
  have hspelled : BooleansSpelled ts := by simp [BooleansSpelled, ts, header, l, body]
  have hheader : HeaderPhrase header ⟨"f", ⟨5, 6⟩⟩ [] := .intro rfl (.intro rfl .nil) rfl .none rfl
  have hfunc : DeclarationAt src ts ⟨ts, [], []⟩ := ⟨.refl _, rfl, by decide⟩
  have hbody : BodyAt src ts s :=
    .intro hfunc (by decide) (header_run src hheader rfl) (expect_run src rfl (by decide))
  exact ⟨hspelled, ⟨⟨s, hbody, .refl s⟩, rfl, by decide⟩, .unexpected (by decide),
    reading_progresses src hspelled⟩

end

end ScripCheck
