import ScripCheck.Proofs.Command.Inspection
import ScripCheck.Proofs.Files.Reading

/-!
# What the configuration comes to

* `ConfigEscapes`: when the configuration ends a run without an exit code.
* `ConfigWrong`: when it is no document, or sets no possible limit.
* `Configured`: the table of the configuration otherwise; `Arguments.settings`: the settings for it.
* `Resolves`, `resolves`: what the settings of a run come to; `configured_of_resolve` and
  `wrong_of_line?`: what the configuration is then.
* `Runs`, `runs`: what a run with arguments comes to.
-/

namespace ScripCheck.Command

open Files

variable {files : Snapshot} {p : Path} {a : Arguments} {t u : Toml.Table} {v : Toml.Value}

/-- The limit in a configuration. -/
def limitEntry? (t : Toml.Table) : Option Toml.Value :=
  (section? t "diagnostics").get? "max_errors"

/-- The limit in the configuration is no number that is not negative. -/
def WrongLimit (t : Toml.Table) (v : Toml.Value) : Prop :=
  limitEntry? t = some v ∧ ∀ n : Nat, v ≠ .int n

/-- The number that limits the diagnostics, 0 if the configuration sets none. -/
def limitIn (t : Toml.Table) : Nat :=
  match limitEntry? t with
  | some (.int n) => n.toNat
  | _ => 0

theorem configLimit_error (h : WrongLimit t v) : configLimit t = .error (.ofLimit v) := by
  obtain ⟨hentry, hwrong⟩ := h
  unfold configLimit
  unfold limitEntry? at hentry
  rw [hentry]
  cases v with
  | int n =>
    have hneg : n < 0 := by
      refine Int.not_le.mp fun hn => hwrong n.toNat ?_
      rw [Int.toNat_of_nonneg hn]
    simp only [hneg, if_true]
  | _ => rfl

theorem configLimit_ok (h : ∀ v, ¬ WrongLimit t v) :
    ∃ n, configLimit t = .ok n ∧ n.getD 0 = limitIn t := by
  unfold configLimit limitIn limitEntry?
  cases hentry : (section? t "diagnostics").get? "max_errors" with
  | none => exact ⟨none, rfl, rfl⟩
  | some v =>
    by_cases hv : ∃ n : Nat, v = .int n
    · obtain ⟨n, rfl⟩ := hv
      have hneg : ¬ (n : Int) < 0 := by omega
      simp only [hneg, if_false]
      exact ⟨_, rfl, rfl⟩
    · exact absurd ⟨hentry, fun n hn => hv ⟨n, hn⟩⟩ (h v)

/-! ## The file -/

/-- The configuration ends a run without an exit code. The stack is taken to be unbounded here: that
a limit on recursion also ends a run, at a document whose arrays or inline tables nest some hundred
levels deep, or at the message about such a value, is left out. -/
inductive ConfigEscapes (files : Snapshot) (p : Path) : Prop where
  | nameTooLong (text : files.readText p = .error (.denied .nameTooLong))
  | encoding {f : Utf8.Fault} (text : files.readText p = .error (.encoding f))
  /-- An integer has more digits than can be read. -/
  | digits {cs : List Char} {r : Toml.Rejection} {count limit : Nat}
    (text : files.readText p = .ok cs) (parse : Toml.parse cs = .error r)
    (problem : r.problem = .digits count limit)
  /-- The limit is wrong, and has an integer with more digits than can be shown. -/
  | limit {cs : List Char} {t : Toml.Table} {v : Toml.Value} (text : files.readText p = .ok cs)
    (parse : Toml.parse cs = .ok t) (wrong : WrongLimit t v) (display : v.display = none)

/-- The configuration is no document, or its limit is wrong. -/
inductive ConfigWrong (files : Snapshot) (p : Path) : Prop where
  | malformed {cs : List Char} {r : Toml.Rejection} (text : files.readText p = .ok cs)
    (parse : Toml.parse cs = .error r)
  | limit {cs : List Char} {t : Toml.Table} {v : Toml.Value} (text : files.readText p = .ok cs)
    (parse : Toml.parse cs = .ok t) (wrong : WrongLimit t v)

/-- The table of the configuration, an empty one if the path leads to no file. -/
inductive Configured (files : Snapshot) (p : Path) : Toml.Table → Prop where
  | absent (text : ∀ cs, files.readText p ≠ .ok cs) : Configured files p []
  | document {cs : List Char} {t : Toml.Table} (text : files.readText p = .ok cs)
    (parse : Toml.parse cs = .ok t) : Configured files p t

theorem Configured.unique (ht : Configured files p t) (hu : Configured files p u) : t = u := by
  cases ht with
  | absent text =>
    cases hu with
    | absent => rfl
    | document text' => exact absurd text' (text _)
  | document text parse =>
    cases hu with
    | absent text' => exact absurd text (text' _)
    | document text' parse' =>
      obtain rfl := Except.ok.inj (text.symm.trans text')
      exact Except.ok.inj (parse.symm.trans parse')

theorem Configured.not_wrong (ht : Configured files p t) (h : ∀ v, ¬ WrongLimit t v) :
    ¬ ConfigWrong files p := by
  rintro (⟨text, parse⟩ | ⟨text, parse, wrong⟩)
  · cases ht with
    | absent text' => exact text' _ text
    | document text' parse' =>
      obtain rfl := Except.ok.inj (text.symm.trans text')
      cases parse.symm.trans parse'
  · obtain rfl := ht.unique (.document text parse)
    exact h _ wrong

/-- Loading a configuration is reading the text at its path. -/
theorem loadConfig_eq (files : Snapshot) (p : Path) : loadConfig files p =
    match files.readText p with
    | .ok cs => (Toml.parse cs).mapError .toml
    | .error (.encoding f) => .error (.encoding f)
    | .error (.denied .nameTooLong) => .error (.denied .nameTooLong p)
    | .error _ => .ok [] := by
  unfold loadConfig Snapshot.readText
  rcases files.look p with (_ | d) | ⟨content, m⟩ | m
  · rfl
  · cases d <;> rfl
  · dsimp only
    cases Utf8.decode content with
    | error f => rfl
    | ok cs => dsimp only; cases Toml.parse cs <;> rfl
  · rfl

/-! ## The settings -/

/-- The settings for some arguments with the table of a configuration. -/
def Arguments.settings (a : Arguments) (t : Toml.Table) : Settings where
  input := a.inputPath
  maxErrors := a.maxErrors.getD (.count (limitIn t))
  tokens := configDebug t "tokens" || a.tokens
  debug := configDebug t "ast" || a.debug
  watch := a.watch

@[simp] theorem Arguments.settings_input (a : Arguments) (t : Toml.Table) :
    (a.settings t).input = a.inputPath := rfl

/-- What the settings of a run come to. -/
inductive Resolves (files : Snapshot) (a : Arguments) : Except ConfigError Settings → Prop where
  | settings {t : Toml.Table} (configured : Configured files a.configPath t)
    (limit : ∀ v, ¬ WrongLimit t v) (stays : ¬ ConfigEscapes files a.configPath) :
    Resolves files a (.ok (a.settings t))
  | wrong {e : ConfigError} {line : String} (wrong : ConfigWrong files a.configPath)
    (stays : ¬ ConfigEscapes files a.configPath)
    (told : e.line? = some ("error: " ++ line ++ "\n")) :
    Resolves files a (.error e)
  | escapes {e : ConfigError} (escapes : ConfigEscapes files a.configPath) (told : e.line? = none) :
    Resolves files a (.error e)

theorem line?_toml_of_digits {r : Toml.Rejection} {count limit : Nat}
    (h : r.problem = .digits count limit) : (ConfigError.toml r).line? = none := by
  simp only [ConfigError.line?, h]

theorem line?_toml {r : Toml.Rejection} (h : ∀ count limit, r.problem ≠ .digits count limit) :
    (ConfigError.toml r).line? =
      some ("error: " ++ ("invalid config file: " ++ r.message) ++ "\n") := by
  have hline : "error: invalid config file: " = "error: " ++ "invalid config file: " := by decide
  unfold ConfigError.line?
  dsimp only
  split
  · next count limit hproblem => exact absurd hproblem (h count limit)
  · simp only [hline, String.append_assoc]

theorem resolve_of_load {e : ConfigError} (h : loadConfig files a.configPath = .error e) :
    Settings.resolve files a = .error e := by
  unfold Settings.resolve
  rw [h]
  rfl

theorem resolve_of_wrong (hload : loadConfig files a.configPath = .ok t) (h : WrongLimit t v) :
    Settings.resolve files a = .error (.ofLimit v) := by
  unfold Settings.resolve
  rw [hload]
  simp only [bind, Except.bind, configLimit_error h]

theorem resolve_of_right (hload : loadConfig files a.configPath = .ok t)
    (h : ∀ v, ¬ WrongLimit t v) : Settings.resolve files a = .ok (a.settings t) := by
  obtain ⟨n, hn, hlimit⟩ := configLimit_ok h
  unfold Settings.resolve Arguments.settings
  rw [hload, ← hlimit]
  simp only [bind, Except.bind, hn]
  rfl

/-- A configuration with a text escapes because of an integer. -/
theorem ConfigEscapes.of_text {cs : List Char} (h : ConfigEscapes files p)
    (htext : files.readText p = .ok cs) :
    (∃ r count limit, Toml.parse cs = .error r ∧ r.problem = .digits count limit) ∨
      ∃ t v, Toml.parse cs = .ok t ∧ WrongLimit t v ∧ v.display = none := by
  cases h with
  | nameTooLong text => cases htext.symm.trans text
  | encoding text => cases htext.symm.trans text
  | digits text parse problem =>
    obtain rfl := Except.ok.inj (htext.symm.trans text)
    exact .inl ⟨_, _, _, parse, problem⟩
  | limit text parse wrong display =>
    obtain rfl := Except.ok.inj (htext.symm.trans text)
    exact .inr ⟨_, _, parse, wrong, display⟩

theorem limit_empty (v : Toml.Value) : ¬ WrongLimit [] v := by
  rintro ⟨hentry, -⟩
  cases hentry

/-- A path without a text is an empty configuration, unless its name is too long or the text is no
UTF-8. -/
theorem not_configEscapes {e : ReadError} (htext : files.readText p = .error e)
    (hname : e ≠ .denied .nameTooLong) (hencoding : ∀ f, e ≠ .encoding f) :
    ¬ ConfigEscapes files p := by
  intro hescapes
  cases hescapes with
  | nameTooLong text => exact hname (Except.error.inj (htext.symm.trans text))
  | encoding text => exact hencoding _ (Except.error.inj (htext.symm.trans text))
  | digits text => cases htext.symm.trans text
  | limit text => cases htext.symm.trans text

theorem resolve_absent {e : ReadError} (htext : files.readText a.configPath = .error e)
    (hname : e ≠ .denied .nameTooLong) (hencoding : ∀ f, e ≠ .encoding f) :
    Settings.resolve files a = .ok (a.settings []) := by
  refine resolve_of_right ?_ limit_empty
  rw [loadConfig_eq, htext]
  cases e with
  | nul => rfl
  | encoding f => exact absurd rfl (hencoding f)
  | denied d =>
    cases d with
    | nameTooLong => exact absurd rfl hname
    | missing | notDirectory | isDirectory => rfl

/-- An input in the working directory has no configuration, if there is none beside it. -/
theorem resolve_beside {name : String} {entries : List (String × Tree)}
    (hinput : a.inputPath = ⟨.here, [name]⟩) (hconfig : a.config = none)
    (hlookup : entries.lookup configName = none) (m : Int) :
    Settings.resolve (Tree.directory m entries).snapshot a = .ok (a.settings []) := by
  have hpath : a.configPath = ⟨.here, [configName]⟩ := by
    simp [Arguments.configPath, hconfig, hinput, Path.parent, Path.child]
  have hfits : NameFits configName := ⟨by decide, by decide, by decide⟩
  have hmissing := hfits.readText_missing m hlookup
  rw [← hpath] at hmissing
  exact resolve_absent hmissing (by simp) (by simp)

theorem resolves_absent {e : ReadError} (htext : files.readText a.configPath = .error e)
    (hname : e ≠ .denied .nameTooLong) (hencoding : ∀ f, e ≠ .encoding f) :
    Resolves files a (Settings.resolve files a) := by
  rw [resolve_absent htext hname hencoding]
  exact .settings (.absent (by simp [htext])) limit_empty (not_configEscapes htext hname hencoding)

theorem resolves (files : Snapshot) (a : Arguments) :
    Resolves files a (Settings.resolve files a) := by
  have hload := loadConfig_eq files a.configPath
  cases htext : files.readText a.configPath with
  | error e =>
    rw [htext] at hload
    cases e with
    | nul => exact resolves_absent htext nofun nofun
    | encoding f => rw [resolve_of_load hload]; exact .escapes (.encoding htext) rfl
    | denied d =>
      cases d with
      | nameTooLong => rw [resolve_of_load hload]; exact .escapes (.nameTooLong htext) rfl
      | missing | notDirectory | isDirectory => exact resolves_absent htext nofun nofun
  | ok cs =>
    rw [htext] at hload
    dsimp only at hload
    cases hparse : Toml.parse cs with
    | error r =>
      rw [hparse] at hload
      rw [resolve_of_load hload]
      by_cases hdigits : ∃ count limit, r.problem = .digits count limit
      · obtain ⟨count, limit, hproblem⟩ := hdigits
        exact .escapes (.digits htext hparse hproblem) (line?_toml_of_digits hproblem)
      · refine .wrong (.malformed htext hparse) (fun hescapes => ?_)
          (line?_toml fun count limit h => hdigits ⟨count, limit, h⟩)
        rcases hescapes.of_text htext with ⟨r', count, limit, hr, hproblem⟩ | ⟨t, v, ht, -⟩
        · obtain rfl := Except.error.inj (hparse.symm.trans hr)
          exact hdigits ⟨count, limit, hproblem⟩
        · cases hparse.symm.trans ht
    | ok t =>
      rw [hparse] at hload
      have hescapes : ConfigEscapes files a.configPath →
          ∃ v, WrongLimit t v ∧ v.display = none := by
        intro h
        rcases h.of_text htext with ⟨r, _, _, hr, -⟩ | ⟨t', v, ht, hwrong, hdisplay⟩
        · cases hparse.symm.trans hr
        · obtain rfl := Except.ok.inj (hparse.symm.trans ht)
          exact ⟨v, hwrong, hdisplay⟩
      by_cases hwrong : ∃ v, WrongLimit t v
      · obtain ⟨v, hv⟩ := hwrong
        rw [resolve_of_wrong hload hv]
        unfold ConfigError.ofLimit
        cases hdisplay : v.display with
        | none => exact .escapes (.limit htext hparse hv hdisplay) rfl
        | some shown =>
          refine .wrong (.limit htext hparse hv) (fun h => ?_) rfl
          obtain ⟨w, hw, hnone⟩ := hescapes h
          obtain rfl := Option.some.inj (hv.1.symm.trans hw.1)
          cases hdisplay.symm.trans hnone
      · have hright : ∀ v, ¬ WrongLimit t v := fun v hv => hwrong ⟨v, hv⟩
        rw [resolve_of_right hload hright]
        refine .settings (.document htext hparse) hright fun h => ?_
        obtain ⟨v, hv, -⟩ := hescapes h
        exact hright v hv

/-- Settings come from the table of a configuration that sets no wrong limit. -/
theorem configured_of_resolve {s : Settings} (h : Settings.resolve files a = .ok s) :
    ∃ t, Configured files a.configPath t ∧ (∀ v, ¬ WrongLimit t v) ∧
      ¬ ConfigEscapes files a.configPath ∧ s = a.settings t := by
  have hresolves := resolves files a
  rw [h] at hresolves
  cases hresolves with
  | settings configured limit stays => exact ⟨_, configured, limit, stays, rfl⟩

/-- A configuration is wrong if there is a line to tell about it. -/
theorem wrong_of_line? {e : ConfigError} {line : String} (h : Settings.resolve files a = .error e)
    (hline : e.line? = some line) :
    ConfigWrong files a.configPath ∧ ¬ ConfigEscapes files a.configPath := by
  have hresolves := resolves files a
  rw [h] at hresolves
  cases hresolves with
  | wrong wrong stays => exact ⟨wrong, stays⟩
  | escapes _ told => cases hline.symm.trans told

/-! ## Runs -/

/-- What a run with some arguments comes to. -/
inductive Runs (files : Snapshot) (later : List Snapshot) (a : Arguments) : Report → Prop where
  | once {t : Toml.Table} (configured : Configured files a.configPath t)
    (limit : ∀ v, ¬ WrongLimit t v) (stays : ¬ ConfigEscapes files a.configPath)
    (resolve : Settings.resolve files a = .ok (a.settings t)) (watch : a.watch = false) :
    Runs files later a (runOnce (a.settings t) files)
  | watch {t : Toml.Table} (configured : Configured files a.configPath t)
    (limit : ∀ v, ¬ WrongLimit t v) (stays : ¬ ConfigEscapes files a.configPath)
    (resolve : Settings.resolve files a = .ok (a.settings t)) (watch : a.watch = true) :
    Runs files later a (runWatch (a.settings t) (files :: later))
  | wrong {line : String} (wrong : ConfigWrong files a.configPath)
    (stays : ¬ ConfigEscapes files a.configPath) (resolve : ∀ s, Settings.resolve files a ≠ .ok s) :
    Runs files later a ⟨"", "error: " ++ line ++ "\n", [], .exit 2⟩
  | escapes {abort : Abort} (escapes : ConfigEscapes files a.configPath)
    (resolve : ∀ s, Settings.resolve files a ≠ .ok s) :
    Runs files later a ⟨"", "", [], .abort abort⟩

theorem runs {words : List String} (hread : Arguments.read words = .ok a) (files : Snapshot)
    (later : List Snapshot) : Runs files later a (run words files later) := by
  have hresolves := resolves files a
  unfold run
  rw [hread]
  dsimp only
  generalize hresolve : Settings.resolve files a = r at hresolves
  cases hresolves with
  | settings configured limit stays =>
    dsimp only
    split
    · next hwatch => exact .watch configured limit stays hresolve hwatch
    · next hwatch => exact .once configured limit stays hresolve (Bool.eq_false_iff.mpr hwatch)
  | wrong wrong stays told =>
    simp only [ConfigError.report, told]
    exact .wrong wrong stays (by simp [hresolve])
  | escapes escapes told =>
    simp only [ConfigError.report, told]
    exact .escapes escapes (by simp [hresolve])

/-- A run has no exit code if its configuration escapes. -/
theorem ConfigEscapes.no_exit {words : List String} (h : ConfigEscapes files a.configPath)
    (hread : Arguments.read words = .ok a) (later : List Snapshot) (code : Nat) :
    (run words files later).ending ≠ .exit code := by
  have hruns := runs hread files later
  generalize run words files later = r at hruns
  cases hruns with
  | once _ _ stays => exact absurd h stays
  | watch _ _ stays => exact absurd h stays
  | wrong _ stays => exact absurd h stays
  | escapes => exact nofun

/-- A run that checks the input once has no exit code if its input escapes. -/
theorem InputEscapes.no_exit {words : List String} {s : Settings} (h : InputEscapes s files)
    (hread : Arguments.read words = .ok a) (hwatch : a.watch = false)
    (hresolve : Settings.resolve files a = .ok s) (later : List Snapshot) (code : Nat) :
    (run words files later).ending ≠ .exit code := by
  have hruns := runs hread files later
  generalize run words files later = r at hruns
  cases hruns with
  | once _ _ _ resolve =>
    obtain rfl := Except.ok.inj (resolve.symm.trans hresolve)
    exact fun hcode => runOnce_exit_iff.mp ⟨code, hcode⟩ h
  | watch _ _ _ _ watch => cases hwatch.symm.trans watch
  | wrong _ _ resolve => exact absurd hresolve (resolve s)
  | escapes => exact nofun

end ScripCheck.Command
