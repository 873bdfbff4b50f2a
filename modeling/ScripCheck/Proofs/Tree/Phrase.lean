import ScripCheck.Proofs.Tree.Passing

/-!
# Reading a phrase

Where the tokens at a cursor start with a phrase, its production takes exactly the tokens of the
phrase and gives its node. What follows does not matter, but for a dot after a name, a comma after
parameters, and the line break that a variable looks for.

* `NamePhrase.starts`, ..., `FuncPhrase.starts`: how a phrase starts.
* `name_run`, ..., `decls_run`: one lemma for each production.
-/

namespace ScripCheck

open Production Cursor

section Phrases

variable {s : Cursor} {us ts : List Token} (src : List Char)

/-! ## How a phrase starts -/

theorem DottedPhrase.starts {t : Token} (h : DottedPhrase us t) : Starts [.dot] (us ++ ts) := by
  cases h with | intro dot => simp [dot]

theorem NamePhrase.starts {n : Name} (h : NamePhrase us n) : Starts [.ident] (us ++ ts) := by
  cases h with | intro word => simp [word]

theorem VarPhrase.starts {d : VarDef} (h : VarPhrase us d) : Starts [.ident] (us ++ ts) := by
  cases h with | intro type => simp [type]

theorem ItemPhrase.starts {i : Item} (h : ItemPhrase us i) :
    Starts [.globalWord, .ident] (us ++ ts) := by
  cases h with
  | var var => exact var.starts.mono (by simp)
  | global word => simp [word]

theorem PartPhrase.starts {i : Option Item} (h : PartPhrase us i) :
    Starts [.newline, .globalWord, .ident] (us ++ ts) := by
  cases h with
  | blank newline => simp [newline]
  | item item =>
    rw [List.append_assoc]
    exact item.starts.mono (by simp)

theorem NextParamPhrase.starts {n : Name} (h : NextParamPhrase us n) :
    Starts [.comma] (us ++ ts) := by
  cases h with | intro comma => simp [comma]

theorem HeaderPhrase.starts {n : Name} {ns : List Name} (h : HeaderPhrase us n ns) :
    Starts [.funcWord] (us ++ ts) := by
  cases h with | intro word => simp [word]

theorem FuncPhrase.starts {f : FuncDef} (h : FuncPhrase us f) : Starts [.funcWord] (us ++ ts) := by
  cases h with
  | intro header =>
    rw [List.append_assoc]
    exact header.starts

theorem VarPhrase.ne_nil {d : VarDef} (h : VarPhrase us d) : us ≠ [] := by
  cases h; exact List.cons_ne_nil _ _

theorem HeaderPhrase.ne_nil {n : Name} {ns : List Name} (h : HeaderPhrase us n ns) : us ≠ [] := by
  cases h; exact List.cons_ne_nil _ _

/-! ## Names and variables -/

theorem dottedWord_run {t : Token} (h : DottedPhrase us t) (hs : s.rest = us ++ ts) :
    dottedWord src s = .found t (s.past us ts) := by
  cases h with
  | @intro d t dot word =>
    have hs' : s.rest = d :: t :: ts := hs
    refine (bind_run (advance_run hs')).trans ?_
    rw [expect_run src rfl (by simp [word]), past_past]; rfl

theorem name_run {n : Name} (h : NamePhrase us n) (hs : s.rest = us ++ ts)
    (hdot : ¬ Starts [.dot] ts) : name src s = .found n (s.past us ts) := by
  cases h with
  | @intro t us ws word more =>
    have hfirst : expect src [.ident] (s.opened src) = .found t _ :=
      expect_run src (s := s.opened src) hs (by simp [word])
    have hmore : Production.whileAt (·.at? [.dot]) (dottedWord src) (advances_dottedWord src)
        ((s.opened src).past [t] (us ++ ts)) = .found ws ((s.opened src).past (t :: us) ts) := by
      refine whileAt_run_stop (P := fun _ => True) _ more
        (fun vs a h s ts hs _ => ⟨at?_of_starts hs h.starts, dottedWord_run src h hs⟩) (by simp)
        trivial rfl ?_
      simpa [← Bool.not_eq_true, at?_iff] using hdot
    refine bind_run (a := ((t, ws), _)) (spanned_run src hs (by simp) ?_)
    exact (bind_run hfirst).trans (bind_run hmore)

theorem typeName_run {t : Token} (ht : t.kind = .ident) (hs : s.rest = t :: ts) :
    typeName src s = .found ⟨t.text, t.span⟩ (s.past [t] ts) := by
  have hs' : s.rest = [t] ++ ts := hs
  refine bind_run (a := (t, _)) (spanned_run src hs' (by simp) ?_)
  exact expect_run src (s := s.opened src) hs (by simp [ht])

theorem literalValue_run {t : Token} {v : Value} (h : Denotes t v) :
    literalValue t s = .found v s := by
  cases h with
  | int kind reads => simp [literalValue, kind, reads, numberOr]
  | float kind reads => simp [literalValue, kind, reads, numberOr]
  | yes kind text => simp [literalValue, kind, boolean, text]
  | no kind text => simp [literalValue, kind, boolean, text]
  | str kind => simp [literalValue, kind, pure_apply]

theorem literal_run {t : Token} {v : Value} (h : Denotes t v) (hs : s.rest = t :: ts) :
    literal src s = .found ⟨v, t.span⟩ (s.past [t] ts) :=
  (bind_run (expect_run src hs h.kind_mem)).trans (bind_run (literalValue_run h))

theorem varDef_run {d : VarDef} (h : VarPhrase us d) (hs : s.rest = us ++ ts)
    (hnewline : Starts [.newline] ts) : varDef src s = .found d (s.past us ts) := by
  cases h with
  | @intro t e v us n x type nm equals value =>
    have hs' : s.rest = t :: (us ++ e :: v :: ts) := by simp [hs]
    refine bind_run (a := ((_, _, _), _)) (spanned_run src hs (by simp) ?_)
    refine (bind_run (typeName_run src (s := s.opened src) type hs')).trans ?_
    refine (bind_run (name_run src nm rfl (by simp [equals]))).trans ?_
    refine (bind_run (expect_run src rfl (by simp [equals]))).trans ?_
    refine (bind_run (literal_run src value rfl)).trans ?_
    refine (bind_run (require_run src hnewline)).trans ?_
    simp [pure_apply, past_past]

theorem terminated_run {α : Type} {p : Production α} {a : α} {t : Token}
    (hp : p s = .found a (s.past us (t :: ts))) :
    terminated p s = .found a (s.past (us ++ [t]) ts) :=
  (bind_run hp).trans ((bind_run (advance_run rfl)).trans (by rw [past_past]; rfl))

theorem orResync_run {α : Type} {p : Production α} {a : α} {s' : Cursor} (inBody : Bool)
    (hp : p s = .found a s') : orResync inBody p s = .found (some a) s' := by
  simp [orResync, hp]

theorem item?_run {i : Item} {t : Token} (inBody : Bool) {other : Production (Option Item)}
    (h : ItemPhrase us i) (ht : t.kind = .newline) (hs : s.rest = us ++ t :: ts) :
    item? src inBody other s = .found (some i) (s.past (us ++ [t]) ts) := by
  have hnewline : Starts [.newline] (t :: ts) := by simp [ht]
  unfold item?
  cases h with
  | @var us d var =>
    rw [if_pos (at?_of_starts hs var.starts)]
    exact orResync_run inBody (terminated_run (bind_run (varDef_run src var hs hnewline)))
  | @global g us d word var =>
    rw [if_neg (by simp [at?_iff, hs, word]), if_pos (by simp [at?_iff, hs, word])]
    refine orResync_run inBody (terminated_run ?_)
    refine bind_run (a := (d, _)) (spanned_run src hs (by simp) ?_)
    refine (bind_run (advance_run (s := s.opened src) hs)).trans ?_
    rw [varDef_run src var rfl hnewline, past_past]; rfl

theorem part_run {i : Option Item} (inBody : Bool) {other : Production (Option Item)}
    (h : PartPhrase us i) (hs : s.rest = us ++ ts) :
    orEmptyLine (item? src inBody other) s = .found i (s.past us ts) := by
  unfold orEmptyLine
  cases h with
  | @blank t newline =>
    rw [if_pos (by simp [at?_iff, hs, newline])]
    exact bind_run (advance_run hs)
  | @item us i t item newline =>
    rw [List.append_assoc] at hs
    rw [if_neg (at?_of_not_starts hs (item.starts.disjoint (by decide)))]
    exact item?_run src inBody item newline hs

/-! ## Functions -/

theorem nextParam_run {n : Name} (h : NextParamPhrase us n) (hs : s.rest = us ++ ts)
    (hdot : ¬ Starts [.dot] ts) : nextParam src s = .found n (s.past us ts) := by
  cases h with
  | @intro c us n comma nm =>
    refine (bind_run (advance_run hs)).trans ?_
    rw [name_run src nm rfl hdot, past_past]; rfl

theorem params_run {ns : List Name} (h : ParamsPhrase us ns) (hs : s.rest = us ++ ts)
    (hend : Starts [.rparen] ts) : params src s = .found ns (s.past us ts) := by
  unfold params
  cases h with
  | none =>
    rw [if_neg (at?_of_not_starts (hs.trans (List.nil_append ts)) (hend.disjoint (by decide))),
      past_nil (by simpa using hs)]
  | @some us vs n ns first more =>
    rw [List.append_assoc] at hs
    have hdot : ¬ Starts [.dot] (vs ++ ts) := by
      cases more with
      | nil => exact hend.disjoint (by decide)
      | cons head => rw [List.append_assoc]; exact head.starts.disjoint (by decide)
    have hmore : Production.whileAt (·.at? [.comma]) (nextParam src) (advances_nextParam src)
        (s.past us (vs ++ ts)) = .found ns ((s.past us (vs ++ ts)).past vs ts) := by
      refine whileAt_run_stop (P := (¬ Starts [.dot] ·)) _ more
        (fun vs a h s ts hs hnext => ⟨at?_of_starts hs h.starts, nextParam_run src h hs hnext⟩)
        (fun vs a h ts => h.starts.disjoint (by decide)) (hend.disjoint (by decide)) rfl ?_
      rw [← Bool.not_eq_true, at?_iff]
      exact hend.disjoint (by decide)
    rw [if_pos (at?_of_starts hs first.starts)]
    refine (bind_run (name_run src first hs hdot)).trans ((bind_run hmore).trans ?_)
    rw [past_past]; rfl

theorem inBlock_iff : inBlock s = true ↔ s.rest ≠ [] ∧ ¬ Starts [.rbrace] s.rest := by
  rw [inBlock, ← at?_iff]; simp

theorem advances_part : Advances inBlock (orEmptyLine (statement src)) :=
  advances_orEmptyLine fun s _ => advances_statement src s rfl

/-- The loop of a body. -/
abbrev parts : Cursor → Outcome (List (Option Item)) :=
  whileAt inBlock (orEmptyLine (statement src)) (advances_part src)

theorem parts_run {is : List (Option Item)} (h : Star PartPhrase us is) (hs : s.rest = us ++ ts) :
    parts src s = (parts src (s.past us ts)).map (is ++ ·) := by
  refine whileAt_run (P := fun _ => True) _ h
    (fun vs a h s ts hs _ => ⟨inBlock_iff.mpr ⟨?_, ?_⟩, part_run src true h hs⟩)
    (by simp) trivial hs
  · intro hnil
    have hstart : Starts _ (vs ++ ts) := h.starts
    rw [← hs, hnil] at hstart
    exact hstart
  · rw [hs]; exact h.starts.disjoint (by decide)

/-- A function up to its body. -/
def header (src : List Char) : Production (Name × List Name) := do
  let _ ← advance
  let name ← name src
  let _ ← expect src [.lparen]
  let params ← params src
  let _ ← expect src [.rparen]
  return (name, params)

theorem funcDef_eq (src : List Char) : funcDef src = do
    let ((name, params, body), span) ← spanned src do
      let (name, params) ← header src
      let body ← block src
      return (name, params, body)
    return ⟨name, params, body, span⟩ := by
  simp [funcDef, header]

theorem header_run {n : Name} {ns : List Name} (h : HeaderPhrase us n ns) (hs : s.rest = us ++ ts) :
    header src s = .found (n, ns) (s.past us ts) := by
  cases h with
  | @intro w l r us vs n ns word nm lparen pms rparen =>
    have hs' : s.rest = w :: (us ++ l :: (vs ++ r :: ts)) := by simp [hs]
    refine (bind_run (advance_run hs')).trans ?_
    refine (bind_run (name_run src nm rfl (by simp [lparen]))).trans ?_
    refine (bind_run (expect_run src rfl (by simp [lparen]))).trans ?_
    refine (bind_run (params_run src pms rfl (by simp [rparen]))).trans ?_
    refine (bind_run (expect_run src rfl (by simp [rparen]))).trans ?_
    simp [past_past, pure_apply]

theorem block_run {l r : Token} {is : List (Option Item)} (hl : l.kind = .lbrace)
    (h : Star PartPhrase us is) (hr : r.kind = .rbrace) (hs : s.rest = l :: (us ++ [r]) ++ ts) :
    block src s = .found ⟨is.filterMap id, cover (l :: (us ++ [r]))⟩
      (s.past (l :: (us ++ [r])) ts) := by
  have hs' : s.rest = l :: (us ++ r :: ts) := by simp [hs]
  have hloop : parts src ((s.opened src).past [l] (us ++ r :: ts)) =
      .found is ((s.opened src).past (l :: us) (r :: ts)) := by
    rw [parts_run src h rfl, past_past, parts, whileAt_stop]
    · simp [Outcome.map]
    · simp [← Bool.not_eq_true, inBlock_iff, hr]
  refine bind_run (a := (is.filterMap id, _)) (spanned_run src hs (by simp) ?_)
  refine (bind_run (expect_run src (s := s.opened src) hs' (by simp [hl]))).trans ?_
  refine (bind_run hloop).trans ?_
  refine (bind_run (expect_run src rfl (by simp [hr]))).trans ?_
  simp [pure_apply, past_past]

theorem funcDef_run {f : FuncDef} (h : FuncPhrase us f) (hs : s.rest = us ++ ts) :
    funcDef src s = .found f (s.past us ts) := by
  cases h with
  | @intro l r us vs n ns is header lbrace body rbrace =>
    have hs' : s.rest = us ++ (l :: (vs ++ [r]) ++ ts) := by simp [hs]
    rw [funcDef_eq]
    refine bind_run (a := ((_, _, _), _)) (spanned_run src hs (by simp) ?_)
    refine (bind_run (header_run src header (s := s.opened src) hs')).trans ?_
    refine (bind_run (block_run src lbrace body rbrace rfl)).trans ?_
    rw [past_past]; rfl

/-! ## Programs -/

theorem DeclPhrase.ne_nil {d : Option Decl} (h : DeclPhrase us d) : us ≠ [] := by
  have hstart : ∀ kinds, Starts kinds (us ++ []) → us ≠ [] := by
    rintro kinds hstart rfl
    exact hstart
  cases h with
  | part part => exact hstart _ part.starts
  | func func => exact hstart _ func.starts

theorem declaration_run {d : Option Decl} (h : DeclPhrase us d) (hs : s.rest = us ++ ts) :
    orEmptyLine (declaration src) s = .found d (s.past us ts) := by
  unfold orEmptyLine
  cases h with
  | part part =>
    cases part with
    | @blank t newline =>
      rw [if_pos (by simp [at?_iff, hs, newline])]
      exact bind_run (advance_run hs)
    | @item us i t item newline =>
      rw [List.append_assoc] at hs
      rw [if_neg (at?_of_not_starts hs (item.starts.disjoint (by decide))), declaration,
        if_neg (at?_of_not_starts hs (item.starts.disjoint (by decide)))]
      exact bind_run (item?_run src false item newline hs)
  | func func =>
    rw [if_neg (at?_of_not_starts hs (func.starts.disjoint (by decide))), declaration,
      if_pos (at?_of_starts hs func.starts)]
    exact orResync_run false (bind_run (funcDef_run src func hs))

theorem advances_decl : Advances inProgram (orEmptyLine (declaration src)) :=
  advances_orEmptyLine fun s _ => advances_declaration src s rfl

/-- The loop of a program. -/
abbrev decls : Cursor → Outcome (List (Option Decl)) :=
  whileAt inProgram (orEmptyLine (declaration src)) (advances_decl src)

/-- The loop of a program takes the declarations of a row, and goes on after them. -/
theorem decls_run {ds : List (Option Decl)} (h : Star DeclPhrase us ds) (hs : s.rest = us ++ ts) :
    decls src s = (decls src (s.past us ts)).map (ds ++ ·) := by
  refine whileAt_run (P := fun _ => True) _ h
    (fun vs a h s ts hs _ => ⟨?_, declaration_run src h hs⟩) (by simp) trivial hs
  simp [inProgram, hs, h.ne_nil]

end Phrases

end ScripCheck
