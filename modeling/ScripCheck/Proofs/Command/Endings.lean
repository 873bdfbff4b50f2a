import ScripCheck.Proofs.Command.Watching

/-!
# When a run has an exit code

* `Escapes`: the configuration or a checked input ends the run without an exit code.
* `Survives`: the run has an exit code, and tells about each file that cannot be used.
* `run_survives_iff`: a run survives exactly if nothing escapes.
-/

namespace ScripCheck.Command

open Files

variable {files : Snapshot} {later : List Snapshot} {words : List String} {a : Arguments}
  {s : Settings}

/-- A file ends the run without an exit code: the configuration, the input of a run that checks it
once, or the input of a watch at a moment at which it is checked. -/
inductive Escapes (files : Snapshot) (later : List Snapshot) (a : Arguments) : Prop where
  | config (escapes : ConfigEscapes files a.configPath)
  | once {s : Settings} (resolve : Settings.resolve files a = .ok s) (watch : a.watch = false)
    (escapes : InputEscapes s files)
  /-- A watch cannot even look at the input. -/
  | look {s : Settings} (resolve : Settings.resolve files a = .ok s) (watch : a.watch = true)
    (nul : s.input.hasNul = true)
  | poll {s : Settings} {earlier : List Snapshot} {now : Snapshot} {rest : List Snapshot}
    (resolve : Settings.resolve files a = .ok s) (watch : a.watch = true)
    (moments : files :: later = earlier ++ now :: rest)
    (checks : ChecksAt s (lastSeen s 0 earlier) now) (escapes : InputEscapes s now)

/-- A text is one error, told to the user. -/
def IsError (text : String) : Prop := ∃ line, text = "error: " ++ line ++ "\n"

/-- A run has an exit code, and tells about each file that cannot be used: about the configuration
and about the only input with the code 2, about the input of a watch at the moment at which it is
checked, and then it goes on. -/
structure Survives (files : Snapshot) (later : List Snapshot) (a : Arguments) (r : Report) :
    Prop where
  code : ∃ code, code ≤ 2 ∧ r.ending = .exit code
  config : (∀ s, Settings.resolve files a ≠ .ok s) → r.ending = .exit 2 ∧ IsError r.err
  input : ∀ s, Settings.resolve files a = .ok s → a.watch = false →
    (∀ raw, files.readText s.input ≠ .ok raw) → r.ending = .exit 2 ∧ IsError r.err
  watch : ∀ s, Settings.resolve files a = .ok s → a.watch = true →
    r.ending = .exit 0 ∧ r.polls.length = later.length + 1 ∧
      ∀ earlier now rest, files :: later = earlier ++ now :: rest →
        ChecksAt s (lastSeen s 0 earlier) now → (∀ raw, now.readText s.input ≠ .ok raw) →
          ∃ text, IsError text ∧
            r.polls[earlier.length]? = some (lead (watchLine s) earlier ++ text)

/-- An input that cannot be read is told about, if it does not escape. -/
theorem runOnce_unreadable (hraw : ∀ raw, files.readText s.input ≠ .ok raw)
    (h : ¬ InputEscapes s files) :
    (runOnce s files).ending = .exit 2 ∧ IsError (runOnce s files).err ∧
      IsError (onceText s files) := by
  unfold onceText
  have honce := runsOnce s files
  generalize runOnce s files = r at honce
  cases honce with
  | unreadable => exact ⟨rfl, ⟨_, rfl⟩, ⟨_, String.append_empty⟩⟩
  | passed text => exact absurd text (hraw _)
  | failed text => exact absurd text (hraw _)
  | escaped escapes => exact absurd escapes h

theorem runOnce_code (h : ¬ InputEscapes s files) :
    ∃ code, code ≤ 2 ∧ (runOnce s files).ending = .exit code := by
  have honce := runsOnce s files
  generalize runOnce s files = r at honce
  cases honce with
  | unreadable => exact ⟨2, by decide, rfl⟩
  | passed => exact ⟨0, by decide, rfl⟩
  | failed => exact ⟨1, by decide, rfl⟩
  | escaped escapes => exact absurd escapes h

/-- A watch that is not aborted tells about each input that it checks and cannot read. -/
theorem watch_unreadable {moments earlier rest : List Snapshot} {now : Snapshot}
    (habort : (watch s moments).abort = none) (hsplit : moments = earlier ++ now :: rest)
    (hchecks : ChecksAt s (lastSeen s 0 earlier) now)
    (hraw : ∀ raw, now.readText s.input ≠ .ok raw) : ∃ text, IsError text ∧
      (watch s moments).polls[earlier.length]? = some (lead (watchLine s) earlier ++ text) := by
  subst hsplit
  have hescapes := ((watch_abort_iff (by simp)).mp habort).2 earlier now rest rfl hchecks
  refine ⟨onceText s now, (runOnce_unreadable hraw hescapes).2.2, ?_⟩
  rw [← poll_text_of_checksAt hchecks]
  exact watchFrom_text habort

theorem not_escapes_once (stays : ¬ ConfigEscapes files a.configPath)
    (hresolve : Settings.resolve files a = .ok s) (hwatch : a.watch = false) :
    ¬ Escapes files later a ↔ ¬ InputEscapes s files := by
  refine ⟨fun h hinput => h (.once hresolve hwatch hinput), fun h hescapes => ?_⟩
  cases hescapes with
  | config escapes => exact stays escapes
  | once resolve _ escapes =>
    obtain rfl := Except.ok.inj (hresolve.symm.trans resolve)
    exact h escapes
  | look _ watch => cases hwatch.symm.trans watch
  | poll _ watch => cases hwatch.symm.trans watch

theorem not_escapes_watch (stays : ¬ ConfigEscapes files a.configPath)
    (hresolve : Settings.resolve files a = .ok s) (hwatch : a.watch = true) :
    ¬ Escapes files later a ↔ (watch s (files :: later)).abort = none := by
  rw [watch_abort_iff (List.cons_ne_nil _ _)]
  refine ⟨fun h => ⟨Bool.eq_false_iff.mpr fun nul => h (.look hresolve hwatch nul),
    fun earlier now rest hsplit checks escapes =>
      h (.poll hresolve hwatch hsplit checks escapes)⟩, fun ⟨hnul, hinput⟩ hescapes => ?_⟩
  cases hescapes with
  | config escapes => exact stays escapes
  | once _ watch => cases hwatch.symm.trans watch
  | look resolve _ nul =>
    obtain rfl := Except.ok.inj (hresolve.symm.trans resolve)
    cases hnul.symm.trans nul
  | poll resolve _ moments checks escapes =>
    obtain rfl := Except.ok.inj (hresolve.symm.trans resolve)
    exact hinput _ _ _ moments checks escapes

/-- A run that checks an input once survives, if the input does not escape. -/
theorem survives_once (hresolve : Settings.resolve files a = .ok s) (hwatch : a.watch = false)
    (h : ¬ InputEscapes s files) : Survives files later a (runOnce s files) where
  code := runOnce_code h
  config hno := absurd hresolve (hno s)
  input s' hs' _ hraw := by
    obtain rfl := Except.ok.inj (hresolve.symm.trans hs')
    obtain ⟨hcode, herror, -⟩ := runOnce_unreadable hraw h
    exact ⟨hcode, herror⟩
  watch s' _ hs' := by cases hwatch.symm.trans hs'

/-- A run that watches an input survives, if the watch is not aborted. -/
theorem survives_watch (hresolve : Settings.resolve files a = .ok s) (hwatch : a.watch = true)
    (h : (watch s (files :: later)).abort = none) :
    Survives files later a (runWatch s (files :: later)) := by
  rw [runWatch_of_left (List.cons_ne_nil _ _) h]
  constructor
  case code => exact ⟨0, by decide, rfl⟩
  case config => exact fun hno => absurd hresolve (hno s)
  case input =>
    intro s' _ hs'
    cases hwatch.symm.trans hs'
  case watch =>
    intro s' hs' _
    obtain rfl := Except.ok.inj (hresolve.symm.trans hs')
    refine ⟨rfl, (watchFrom_pauses h).1, ?_⟩
    exact fun earlier now rest hsplit checks hraw => watch_unreadable h hsplit checks hraw

/-! ## A run beside one input -/

/-- The arguments that name an input only. -/
def plainArguments : Arguments := ⟨"b.scr", none, none, false, false, false⟩

theorem read_plainArguments : Arguments.read ["b.scr"] = .ok plainArguments := by decide +kernel

theorem plainArguments_path : plainArguments.inputPath = ⟨.here, ["b.scr"]⟩ := by decide +kernel

theorem fits_plain : NameFits "b.scr" := ⟨by decide, by decide, by decide⟩

/-! ## Inputs that cannot be read -/

/-- A directory without the input that the arguments name. -/
def withoutInput : Snapshot := .single "a.scr" [] 1

theorem withoutInput_text : withoutInput.readText (plainArguments.settings []).input =
    .error (.denied .missing) := by
  rw [Arguments.settings_input, plainArguments_path]
  exact fits_plain.readText_missing 1 rfl

/-- A directory with a directory in the place of the input. -/
def directoryInput : Snapshot := (Tree.directory 1 [("m.scr", .directory 1 [])]).snapshot

theorem directoryInput_text : directoryInput.readText (watchArguments.settings []).input =
    .error (.denied .isDirectory) := by
  rw [Arguments.settings_input, watchArguments_path]
  exact fits_watched.readText_directory 1 List.lookup_cons_self

theorem directoryInput_time : timeAt? (watchArguments.settings []) directoryInput = some 1 := by
  rw [timeAt?, Arguments.settings_input, watchArguments_path, directoryInput,
    fits_watched.look 1 List.lookup_cons_self]
  rfl

theorem resolve_directoryInput :
    Settings.resolve directoryInput watchArguments = .ok (watchArguments.settings []) :=
  resolve_beside watchArguments_path rfl rfl 1

theorem not_escapes_directoryInput :
    ¬ Escapes directoryInput [.single "m.scr" [] 2] watchArguments := by
  obtain ⟨-, -, -, stays, -⟩ := configured_of_resolve resolve_directoryInput
  rw [not_escapes_watch stays resolve_directoryInput rfl, watch_abort_iff (List.cons_ne_nil _ _)]
  refine ⟨watched_hasNul, fun earlier now rest hsplit _ => ?_⟩
  have hnow : now ∈ [directoryInput, .single "m.scr" [] 2] := by simp [hsplit]
  rcases List.mem_pair.mp hnow with rfl | rfl
  · exact not_inputEscapes_denied directoryInput_text
  · exact not_inputEscapes (watched_text 2) nofun

/-! ## All runs -/

/-- A run survives exactly if nothing escapes. The stack is taken to be unbounded, as in
`ConfigEscapes`. -/
theorem run_survives_iff (hread : Arguments.read words = .ok a) (files : Snapshot)
    (later : List Snapshot) :
    Survives files later a (run words files later) ↔ ¬ Escapes files later a := by
  have hruns := runs hread files later
  generalize run words files later = r at hruns
  cases hruns with
  | once configured limit stays resolve watch =>
    rw [not_escapes_once stays resolve watch]
    refine ⟨fun h => ?_, survives_once resolve watch⟩
    obtain ⟨code, -, hcode⟩ := h.code
    exact runOnce_exit_iff.mp ⟨code, hcode⟩
  | watch configured limit stays resolve watch =>
    rw [not_escapes_watch stays resolve watch]
    exact ⟨fun h => abort_of_runWatch (h.watch _ resolve watch).1, survives_watch resolve watch⟩
  | wrong wrong stays resolve =>
    refine ⟨fun _ hescapes => ?_, fun _ => ⟨⟨2, by decide, rfl⟩, fun _ => ⟨rfl, _, rfl⟩,
      fun s hs => absurd hs (resolve s), fun s hs => absurd hs (resolve s)⟩⟩
    cases hescapes with
    | config escapes => exact stays escapes
    | once hs => exact resolve _ hs
    | look hs => exact resolve _ hs
    | poll hs => exact resolve _ hs
  | escapes escapes resolve =>
    refine ⟨fun h => ?_, fun h => absurd (.config escapes) h⟩
    obtain ⟨code, -, hcode⟩ := h.code
    cases hcode

/-- A run survives that its input is missing, and a watch that its input is a directory at first. -/
theorem run_survives_unreadable :
    Survives withoutInput [] plainArguments (run ["b.scr"] withoutInput []) ∧
      (run ["b.scr"] withoutInput []).ending = .exit 2 ∧
      Survives directoryInput [.single "m.scr" [] 2] watchArguments
        (run watchWords directoryInput [.single "m.scr" [] 2]) ∧
      ∃ text, IsError text ∧ (run watchWords directoryInput [.single "m.scr" [] 2]).polls[0]? =
        some (watchLine (watchArguments.settings []) ++ text) := by
  have hresolve : Settings.resolve withoutInput plainArguments = .ok (plainArguments.settings []) :=
    resolve_beside plainArguments_path rfl rfl 1
  obtain ⟨-, -, -, stays, -⟩ := configured_of_resolve hresolve
  have honce : Survives withoutInput [] plainArguments (run ["b.scr"] withoutInput []) := by
    refine (run_survives_iff read_plainArguments _ []).mpr ?_
    rw [not_escapes_once stays hresolve rfl]
    exact not_inputEscapes_denied withoutInput_text
  have hwatch := (run_survives_iff read_watchWords _ _).mpr not_escapes_directoryInput
  have hchecks : ChecksAt (watchArguments.settings []) 0 directoryInput :=
    ⟨1, directoryInput_time, by decide⟩
  refine ⟨honce, (honce.input _ hresolve rfl fun raw hraw => ?_).1, hwatch,
    (hwatch.watch _ resolve_directoryInput rfl).2.2 [] _ _ rfl hchecks fun raw hraw => ?_⟩
  · cases withoutInput_text.symm.trans hraw
  · cases directoryInput_text.symm.trans hraw

/-- A run does not survive an input that is the byte 255. -/
theorem run_survives_badByte :
    Arguments.read ["b.scr"] = .ok plainArguments ∧
      ¬ Survives (.single "b.scr" [0xFF] 1) [] plainArguments
        (run ["b.scr"] (.single "b.scr" [0xFF] 1) []) := by
  have hresolve : Settings.resolve (.single "b.scr" [0xFF] 1) plainArguments =
      .ok (plainArguments.settings []) := resolve_beside plainArguments_path rfl rfl 1
  have hfault : Utf8.decode [0xFF] = .error ⟨0, [0xFF], .start⟩ := by decide +kernel
  have htext := fits_plain.readText_single [0xFF] 1
  rw [← plainArguments_path, ← Arguments.settings_input _ [], hfault] at htext
  refine ⟨read_plainArguments, ?_⟩
  rintro ⟨⟨code, -, hcode⟩, -⟩
  exact InputEscapes.no_exit (.encoding htext) read_plainArguments rfl hresolve [] code hcode

end ScripCheck.Command
