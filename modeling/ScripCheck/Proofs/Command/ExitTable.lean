import ScripCheck.Proofs.Command.Configuration

/-!
# The exit codes of a run

* `ExitTable`: when a run that checks its input once has which exit code, and what it tells then.
* `run_exitTable_iff`: the table holds of a run unless its configuration or its input escapes.
-/

namespace ScripCheck.Command

open Files

variable {files : Snapshot} {later : List Snapshot} {words : List String} {a : Arguments}
  {t : Toml.Table} {r : Report}

/-- The number that limits the diagnostics: the argument, or else the one of the configuration. -/
def Arguments.limitInForce (a : Arguments) (t : Toml.Table) : Nat :=
  match a.maxErrors with
  | some (.count n) => n
  | _ => limitIn t

/-- What a run is to tell about the text `src` of its input, if the configuration has the
table `t`. -/
structure Tells (a : Arguments) (t : Toml.Table) (src : List Char) (r : Report) : Prop where
  failed : r.ending = .exit 1 ↔ ∃ f, check src = .error f ∧ f.diagnostics ≠ []
  failed_texts : ∀ f, check src = .error f → r.out = "" ∧
    r.err = tokenDump (configDebug t "tokens" || a.tokens) src ++
      (Batch.mk f.diagnostics a.inputPath.toString).render src "" (a.limitInForce t) ++ "\n"
  passed : ∀ p, check src = .ok p → r.ending = .exit 0 ∧
    r.out =
      a.inputPath.toString ++ ": ok (" ++ toString p.declarations.length ++ " declarations)\n" ∧
    r.err = tokenDump (configDebug t "tokens" || a.tokens) src ++
      dumpIf (configDebug t "ast" || a.debug) p.dump

/-- The exit codes of a run that checks its input once: 2 if the configuration is wrong or the input
cannot be read, 1 if there are diagnostics, and 0 otherwise. -/
structure ExitTable (files : Snapshot) (a : Arguments) (r : Report) : Prop where
  settled : ∃ code, r.ending = .exit code
  refused : r.ending = .exit 2 ↔
    ConfigWrong files a.configPath ∨ ∃ d, files.readText a.inputPath = .error (.denied d)
  refused_out : r.ending = .exit 2 → r.out = ""
  told : ∀ t raw, ¬ ConfigWrong files a.configPath → Configured files a.configPath t →
    files.readText a.inputPath = .ok raw → Tells a t (unifyBreaks raw) r

theorem Arguments.limitInForce_of_settings {n : Nat} (h : (a.settings t).maxErrors = .count n) :
    a.limitInForce t = n := by
  unfold settings at h
  unfold limitInForce
  cases hlimit : a.maxErrors with
  | none => simpa [hlimit] using h
  | some l =>
    cases l with
    | count m => simpa [hlimit] using h
    | blank => simp [hlimit] at h

/-- The table holds of a run with an input that can be read, if it has no exit code 2 and tells the
right thing about the input. -/
theorem exitTable_of_tells {raw : List Char} (configured : Configured files a.configPath t)
    (limit : ∀ v, ¬ WrongLimit t v) (text : files.readText a.inputPath = .ok raw)
    (settled : ∃ code, r.ending = .exit code) (hcode : r.ending ≠ .exit 2)
    (tells : Tells a t (unifyBreaks raw) r) : ExitTable files a r where
  settled := settled
  refused := by
    refine ⟨fun h => absurd h hcode, ?_⟩
    rintro (hwrong | ⟨d, hd⟩)
    · exact absurd hwrong (configured.not_wrong limit)
    · cases text.symm.trans hd
  refused_out h := absurd h hcode
  told t' raw' _ ht' htext := by
    obtain rfl := configured.unique ht'
    obtain rfl := Except.ok.inj (text.symm.trans htext)
    exact tells

/-- The table holds of a run that checks its input, if it has settings and the input does not
escape. -/
theorem exitTable_once (configured : Configured files a.configPath t)
    (limit : ∀ v, ¬ WrongLimit t v) (stays : ¬ InputEscapes (a.settings t) files) :
    ExitTable files a (runOnce (a.settings t) files) := by
  have honce := runsOnce (a.settings t) files
  generalize runOnce (a.settings t) files = r at honce
  cases honce with
  | unreadable text =>
    exact ⟨⟨2, rfl⟩, ⟨fun _ => .inr ⟨_, text⟩, fun _ => rfl⟩, fun _ => rfl,
      fun t' raw _ _ htext => by cases text.symm.trans htext⟩
  | passed text passes =>
    refine exitTable_of_tells configured limit text ⟨0, rfl⟩ nofun ⟨⟨nofun, ?_⟩, ?_, ?_⟩
    · rintro ⟨f, hf, -⟩
      cases passes.symm.trans hf
    · intro f hf
      cases passes.symm.trans hf
    · intro p hp
      obtain rfl := Except.ok.inj (passes.symm.trans hp)
      exact ⟨rfl, rfl, rfl⟩
  | failed text fails hn =>
    refine exitTable_of_tells configured limit text ⟨1, rfl⟩ nofun
      ⟨⟨fun _ => ?_, fun _ => rfl⟩, ?_, ?_⟩
    · exact ⟨_, fails, diagnostics_ne_nil fails⟩
    · intro f hf
      obtain rfl := Except.error.inj (fails.symm.trans hf)
      rw [Arguments.limitInForce_of_settings hn, String.append_assoc]
      exact ⟨rfl, rfl⟩
    · intro p hp
      cases fails.symm.trans hp
  | escaped escapes => exact absurd escapes stays

/-! ## A run that names its configuration -/

/-- A directory with an empty input only. -/
def emptyInput : Snapshot := .single "m.scr" [] 1

theorem path_input : Path.ofString "m.scr" = ⟨.here, ["m.scr"]⟩ := by decide +kernel

theorem fits_input : NameFits "m.scr" := ⟨by decide, by decide, by decide⟩

theorem emptyInput_text : emptyInput.readText (Path.ofString "m.scr") = .ok [] := by
  rw [path_input, emptyInput, fits_input.readText_single, Utf8.decode, Utf8.pieces]
  rfl

theorem ofString_plain {c : Char} {cs : List Char} (hc : c ≠ '-') :
    Word.ofString (String.ofList (c :: cs)) = .ok (.plain (String.ofList (c :: cs))) := by
  unfold Word.ofString
  rw [String.toList_ofList]
  split <;> simp_all

theorem read_config {name : String} (h : Word.ofString name = .ok (.plain name)) :
    Arguments.read ["m.scr", "--config", name] =
      .ok ⟨"m.scr", some name, none, false, false, false⟩ := by
  have hinput : Word.ofString "m.scr" = .ok (.plain "m.scr") := by rfl
  have hconfig : Word.ofString "--config" = .ok (.switch .config none) := by rfl
  have hwords : Word.ofStrings ["m.scr", "--config", name] =
      .ok [.plain "m.scr", .switch .config none, .plain name] := by
    simp only [Word.ofStrings, hinput, hconfig, h]
    rfl
  unfold Arguments.read
  simp only [hwords, Progress.readWords, bind, Except.bind]
  rfl

/-- A name that is longer than any file may have. -/
def overlongName : String := String.ofList ('n' :: List.replicate Tree.maxName 'n')

theorem overlongName_ne {cs : List Char} (h : cs.head? ≠ some 'n') :
    overlongName ≠ String.ofList cs :=
  fun heq => h (congrArg List.head? (String.ofList_injective heq)).symm

theorem configPath_overlongName :
    (Arguments.mk "m.scr" (some overlongName) none false false false).configPath =
      ⟨.here, [overlongName]⟩ := by
  have hne : overlongName.isEmpty = false :=
    String.isEmpty_eq_false_iff.mpr (overlongName_ne (by decide : [].head? ≠ some 'n'))
  simp only [Arguments.configPath, hne, Bool.false_eq_true, if_false]
  rw [overlongName, Path.ofString_name (by simp) (by simp) (by simp)]

theorem emptyInput_overlongName : emptyInput ⟨.here, [overlongName]⟩ = .error .nameTooLong := by
  have hlength := length_le_utf8ByteSize ('n' :: List.replicate Tree.maxName 'n')
  rw [List.length_cons, List.length_replicate] at hlength
  unfold emptyInput Snapshot.single
  have hdots : overlongName ≠ ".." := overlongName_ne (by decide : ['.', '.'].head? ≠ some 'n')
  exact Tree.snapshot_nameTooLong hdots hlength

/-! ## Runs with a configuration -/

/-- An input of two stray characters, and a configuration that limits the diagnostics. -/
def strayInput (limit : String) : Snapshot :=
  let config := "[diagnostics]\nmax_errors = " ++ limit ++ "\n"
  (Tree.directory 1 [("m.scr", .file [0x40, 0x0A, 0x40] 1),
    (configName, .file config.toUTF8.data.toList 1)]).snapshot

/-- The arguments that name this input only. -/
def strayArguments : Arguments := ⟨"m.scr", none, none, false, false, false⟩

theorem strayInput_text (limit : String) :
    (strayInput limit).readText strayArguments.inputPath = .ok ['@', '\n', '@'] := by
  have hdecode : Utf8.decode [0x40, 0x0A, 0x40] = .ok ['@', '\n', '@'] := by decide +kernel
  rw [Arguments.inputPath, strayArguments, path_input, strayInput,
    fits_input.readText_file 1 List.lookup_cons_self, hdecode]
  rfl

theorem lex_stray : lex ['@', '\n', '@'] = .error [⟨"@", ⟨0, 1⟩⟩, ⟨"@", ⟨2, 3⟩⟩] := by
  decide +kernel

theorem check_stray : check ['@', '\n', '@'] =
    .error (.lexical [⟨"@", ⟨0, 1⟩⟩, ⟨"@", ⟨2, 3⟩⟩]) := by
  rw [check, lex_stray]

theorem resolve_stray : Settings.resolve (strayInput "1") strayArguments =
    .ok ⟨strayArguments.inputPath, .count 1, false, false, false⟩ := by
  have hsettings : (Settings.resolve (strayInput "1") strayArguments).toOption =
      some ⟨strayArguments.inputPath, .count 1, false, false, false⟩ := by decide +kernel
  cases hresolve : Settings.resolve (strayInput "1") strayArguments with
  | ok s => rw [hresolve] at hsettings; rw [Option.some.inj hsettings]
  | error e => rw [hresolve] at hsettings; cases hsettings

theorem configWrong_stray : ConfigWrong (strayInput "true") strayArguments.configPath ∧
    ¬ ConfigEscapes (strayInput "true") strayArguments.configPath := by
  have hline : (match Settings.resolve (strayInput "true") strayArguments with
      | .ok _ => none
      | .error e => e.line?) =
      some "error: invalid diagnostics.max_errors in config: True\n" := by decide +kernel
  cases hresolve : Settings.resolve (strayInput "true") strayArguments with
  | ok s => rw [hresolve] at hline; cases hline
  | error e => rw [hresolve] at hline; exact wrong_of_line? hresolve hline

/-! ## The table -/

/-- The table holds of a run that checks its input once, unless its configuration or its input ends
it without an exit code. The stack is taken to be unbounded, as in `ConfigEscapes`. -/
theorem run_exitTable_iff (hread : Arguments.read words = .ok a) (hwatch : a.watch = false)
    (files : Snapshot) (later : List Snapshot) :
    ExitTable files a (run words files later) ↔ ¬ ConfigEscapes files a.configPath ∧
      ∀ s, Settings.resolve files a = .ok s → ¬ InputEscapes s files := by
  constructor
  · rintro ⟨⟨code, hcode⟩, -⟩
    exact ⟨fun h => h.no_exit hread later code hcode,
      fun s hs h => h.no_exit hread hwatch hs later code hcode⟩
  · rintro ⟨hconfig, hinput⟩
    have hruns := runs hread files later
    generalize run words files later = r at hruns
    cases hruns with
    | once configured limit stays resolve =>
      exact exitTable_once configured limit (hinput _ resolve)
    | watch _ _ _ _ watch => cases hwatch.symm.trans watch
    | wrong wrong stays resolve =>
      exact ⟨⟨2, rfl⟩, ⟨fun _ => .inl wrong, fun _ => rfl⟩, fun _ => rfl,
        fun t raw hnot => absurd wrong hnot⟩
    | escapes escapes => exact absurd escapes hconfig

/-- The table holds of a run whose configuration lets it show one of two diagnostics, and of a run
whose configuration is wrong. -/
theorem run_exitTable_stray :
    Arguments.read ["m.scr"] = .ok strayArguments ∧ strayArguments.watch = false ∧
      ExitTable (strayInput "1") strayArguments (run ["m.scr"] (strayInput "1") []) ∧
      (run ["m.scr"] (strayInput "1") []).ending = .exit 1 ∧
      (run ["m.scr"] (strayInput "1") []).err =
        "error: unexpected character `@`\n  --> m.scr:1:1\n  |\n1 | @\n  | ~\n\n" ++
          "... and 1 more error(s)\n" ∧
      ExitTable (strayInput "true") strayArguments (run ["m.scr"] (strayInput "true") []) ∧
      (run ["m.scr"] (strayInput "true") []).ending = .exit 2 := by
  have hread : Arguments.read ["m.scr"] = .ok strayArguments := by decide +kernel
  obtain ⟨t, configured, limit, stays, hsettings⟩ := configured_of_resolve resolve_stray
  obtain ⟨hwrong, stays'⟩ := configWrong_stray
  have htable : ExitTable (strayInput "1") strayArguments (run ["m.scr"] (strayInput "1") []) := by
    refine (run_exitTable_iff hread rfl _ _).mpr ⟨stays, fun s hs => ?_⟩
    obtain rfl := Except.ok.inj (resolve_stray.symm.trans hs)
    exact not_inputEscapes (strayInput_text "1") nofun
  have htells : Tells strayArguments t ['@', '\n', '@'] (run ["m.scr"] (strayInput "1") []) :=
    htable.told t _ (configured.not_wrong limit) configured (strayInput_text "1")
  have htable' : ExitTable (strayInput "true") strayArguments
      (run ["m.scr"] (strayInput "true") []) := by
    refine (run_exitTable_iff hread rfl _ _).mpr ⟨stays', fun s hs => ?_⟩
    obtain ⟨t', configured', limit', -⟩ := configured_of_resolve hs
    exact absurd hwrong (configured'.not_wrong limit')
  refine ⟨hread, rfl, htable, htells.failed.mpr ⟨_, check_stray, nofun⟩, ?_, htable',
    htable'.refused.mpr (.inl hwrong)⟩
  have hlimit : strayArguments.limitInForce t = 1 :=
    Arguments.limitInForce_of_settings (by rw [← hsettings])
  have hdump (wanted : Bool) : tokenDump wanted ['@', '\n', '@'] = "" := by
    rw [tokenDump, lex_stray]
  rw [(htells.failed_texts _ check_stray).2, hdump, hlimit]
  decide +kernel

/-- The table does not hold of a run that names a configuration by an overlong name, although there
can be no file there. -/
theorem run_exitTable_overlongName :
    ∃ a, Arguments.read ["m.scr", "--config", overlongName] = .ok a ∧ a.watch = false ∧
      emptyInput.readText a.inputPath = .ok [] ∧ (∀ e, emptyInput a.configPath ≠ .ok e) ∧
      ¬ ExitTable emptyInput a (run ["m.scr", "--config", overlongName] emptyInput []) := by
  have hread : Arguments.read ["m.scr", "--config", overlongName] = _ :=
    read_config (ofString_plain (by decide))
  have hpath := emptyInput_overlongName
  have hnul : Path.hasNul ⟨.here, [overlongName]⟩ = false := by simp [Path.hasNul, overlongName]
  rw [← configPath_overlongName] at hpath hnul
  have hconfig := Snapshot.readText_denied hnul hpath
  refine ⟨_, hread, rfl, emptyInput_text, by simp [hpath], ?_⟩
  rintro ⟨⟨code, hcode⟩, -⟩
  exact ConfigEscapes.no_exit (.nameTooLong hconfig) hread [] code hcode

end ScripCheck.Command
