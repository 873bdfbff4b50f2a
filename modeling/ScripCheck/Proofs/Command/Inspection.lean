import ScripCheck.Command.Run
import ScripCheck.Proofs.Check.Diagnosed

/-!
# What one check of the input finds

* `InputEscapes`: when the input ends a run without an exit code.
* `Inspects`, `inspects`: what a check finds, by what can be read at the path of the input and
  whether it is a program.
* `RunsOnce`, `runsOnce`: what a run that checks the input once comes to.
* `runOnce_exit_iff`: it has an exit code exactly if the input does not escape.
* `onceText`: what it tells on its two streams.
-/

namespace ScripCheck.Command

open Files

variable {s : Settings} {files : Snapshot} {src : List Char}

/-- The dump of the tokens of a text, if it is asked for and the text has tokens. -/
def tokenDump (wanted : Bool) (src : List Char) : String :=
  match lex src with
  | .ok ts => dumpIf wanted (dumpTokens ts)
  | .error _ => ""

theorem inspectText_ok {p : Program} (h : check src = .ok p) : inspectText s src =
    ⟨tokenDump s.tokens src ++ dumpIf s.debug p.dump, .passed p.declarations.length⟩ := by
  unfold check at h
  unfold inspectText tokenDump
  cases hlex : lex src with
  | error es => rw [hlex] at h; cases h
  | ok ts =>
    rw [hlex] at h
    simp only [h]

theorem inspectText_error {f : Failure} (h : check src = .error f) :
    inspectText s src = ⟨tokenDump s.tokens src, s.failure src f.diagnostics⟩ := by
  have hne := diagnostics_ne_nil h
  unfold check at h
  unfold inspectText tokenDump
  cases hlex : lex src with
  | error es => rw [hlex] at h; cases h; rfl
  | ok ts =>
    rw [hlex] at h
    simp only [h]
    cases f with
    | fault f => exact absurd rfl hne
    | lexical es => rfl
    | syntactic es => rfl

/-! ## Verdicts -/

/-- The input ends a run without an exit code. -/
inductive InputEscapes (s : Settings) (files : Snapshot) : Prop where
  | nul (text : files.readText s.input = .error .nul)
  | encoding {f : Utf8.Fault} (text : files.readText s.input = .error (.encoding f))
  /-- There are diagnostics, and no number limits them. -/
  | blankLimit {raw : List Char} {f : Failure} (text : files.readText s.input = .ok raw)
    (fails : check (unifyBreaks raw) = .error f) (limit : s.maxErrors = .blank)

/-- An input with a text does not escape, if a number limits the diagnostics. -/
theorem not_inputEscapes {raw : List Char} (htext : files.readText s.input = .ok raw)
    (hlimit : s.maxErrors ≠ .blank) : ¬ InputEscapes s files := by
  intro hescapes
  cases hescapes with
  | nul text => cases htext.symm.trans text
  | encoding text => cases htext.symm.trans text
  | blankLimit _ _ limit => exact hlimit limit

/-- An input at a path that leads to nothing does not escape. -/
theorem not_inputEscapes_denied {d : Denial} (htext : files.readText s.input = .error (.denied d)) :
    ¬ InputEscapes s files := by
  intro hescapes
  cases hescapes with
  | nul text => cases htext.symm.trans text
  | encoding text => cases htext.symm.trans text
  | blankLimit text => cases htext.symm.trans text

/-- What a check of the input finds. -/
inductive Inspects (s : Settings) (files : Snapshot) : Inspection → Prop where
  | unreadable {d : Denial} (text : files.readText s.input = .error (.denied d)) :
    Inspects s files ⟨"", .unreadable d⟩
  | passed {raw : List Char} {p : Program} (text : files.readText s.input = .ok raw)
    (passes : check (unifyBreaks raw) = .ok p) : Inspects s files
      ⟨tokenDump s.tokens (unifyBreaks raw) ++ dumpIf s.debug p.dump, .passed p.declarations.length⟩
  | failed {raw : List Char} {f : Failure} {n : Nat} (text : files.readText s.input = .ok raw)
    (fails : check (unifyBreaks raw) = .error f) (limit : s.maxErrors = .count n) :
    Inspects s files
      ⟨tokenDump s.tokens (unifyBreaks raw), .failed (unifyBreaks raw) f.diagnostics n⟩
  | escaped {dumps : String} {a : Abort} (escapes : InputEscapes s files) :
    Inspects s files ⟨dumps, .aborted a⟩

theorem inspects (s : Settings) (files : Snapshot) : Inspects s files (inspect s files) := by
  unfold inspect
  split
  · next h => exact .escaped (.nul h)
  · next d h => exact .unreadable h
  · next f h => exact .escaped (.encoding h)
  · next raw h =>
    cases hcheck : check (unifyBreaks raw) with
    | ok p => rw [inspectText_ok hcheck]; exact .passed h hcheck
    | error f =>
      rw [inspectText_error hcheck, Settings.failure]
      cases hlimit : s.maxErrors with
      | count n => exact .failed h hcheck hlimit
      | blank => exact .escaped (.blankLimit h hcheck hlimit)

/-- An input that escapes has no verdict. -/
theorem InputEscapes.aborted (h : InputEscapes s files) :
    ∃ dumps a, inspect s files = ⟨dumps, .aborted a⟩ := by
  unfold inspect
  cases h with
  | nul text => rw [text]; exact ⟨_, _, rfl⟩
  | encoding text => rw [text]; exact ⟨_, _, rfl⟩
  | blankLimit text fails limit =>
    simp only [text, inspectText_error fails, Settings.failure, limit]
    exact ⟨_, _, rfl⟩

theorem abort?_eq_none_iff :
    (inspect s files).verdict.abort? = none ↔ ¬ InputEscapes s files := by
  constructor
  · intro hnone hescapes
    obtain ⟨dumps, a, h⟩ := hescapes.aborted
    rw [h] at hnone
    cases hnone
  · intro hescapes
    have h := inspects s files
    generalize inspect s files = i at h ⊢
    cases h with
    | unreadable | passed | failed => rfl
    | escaped escapes => exact absurd escapes hescapes

/-! ## Runs that check the input once -/

/-- What a run that checks the input once comes to. -/
inductive RunsOnce (s : Settings) (files : Snapshot) : Report → Prop where
  | unreadable {d : Denial} (text : files.readText s.input = .error (.denied d)) :
    RunsOnce s files ⟨"", "error: " ++ d.message s.input.toString ++ "\n", [], .exit 2⟩
  | passed {raw : List Char} {p : Program} (text : files.readText s.input = .ok raw)
    (passes : check (unifyBreaks raw) = .ok p) : RunsOnce s files
      ⟨s.input.toString ++ ": ok (" ++ toString p.declarations.length ++ " declarations)\n",
        tokenDump s.tokens (unifyBreaks raw) ++ dumpIf s.debug p.dump, [], .exit 0⟩
  | failed {raw : List Char} {f : Failure} {n : Nat} (text : files.readText s.input = .ok raw)
    (fails : check (unifyBreaks raw) = .error f) (limit : s.maxErrors = .count n) :
    RunsOnce s files ⟨"", tokenDump s.tokens (unifyBreaks raw) ++
        ((Batch.mk f.diagnostics s.input.toString).render (unifyBreaks raw) "" n ++ "\n"),
      [], .exit 1⟩
  | escaped {dumps : String} {a : Abort} (escapes : InputEscapes s files) :
    RunsOnce s files ⟨"", dumps, [], .abort a⟩

theorem runsOnce (s : Settings) (files : Snapshot) : RunsOnce s files (runOnce s files) := by
  have h := inspects s files
  unfold runOnce
  generalize inspect s files = i at h
  cases h with
  | unreadable text => exact .unreadable text
  | passed text passes => exact .passed text passes
  | failed text fails limit => exact .failed text fails limit
  | escaped escapes => exact .escaped escapes

theorem runOnce_exit_iff :
    (∃ code, (runOnce s files).ending = .exit code) ↔ ¬ InputEscapes s files := by
  rw [← abort?_eq_none_iff]
  unfold runOnce
  generalize inspect s files = i
  obtain ⟨dumps, verdict⟩ := i
  cases verdict <;> simp [Verdict.abort?]

/-- What a run that checks the input once tells: first what goes to the error stream. -/
def onceText (s : Settings) (files : Snapshot) : String :=
  (runOnce s files).err ++ (runOnce s files).out

theorem onceText_eq (s : Settings) (files : Snapshot) :
    onceText s files = (inspect s files).dumps ++ (inspect s files).verdict.text s := by
  unfold onceText runOnce
  generalize inspect s files = i
  obtain ⟨dumps, verdict⟩ := i
  cases verdict <;> simp [Verdict.text]

/-- A run with an exit code has something to tell. -/
theorem onceText_ne_empty (h : ¬ InputEscapes s files) : onceText s files ≠ "" := by
  rw [onceText_eq]
  have hinspects := inspects s files
  generalize inspect s files = i at hinspects ⊢
  cases hinspects with
  | unreadable | passed | failed => simp [Verdict.text]
  | escaped escapes => exact absurd escapes h

end ScripCheck.Command
