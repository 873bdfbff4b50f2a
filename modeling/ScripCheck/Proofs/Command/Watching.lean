import ScripCheck.Proofs.Command.Configuration

/-!
# What a watch does at each moment

* `seenTimes`, `lastSeen`: the times of modification that the looks at the input have shown.
* `Polls`, `polls`: what one look comes to.
* `watchFrom_abort_iff`, `watchFrom_text`: what a watch comes to, from what its looks come to.
* `Watches`: a watch checks its input at the first sight of it and after each modification, and
  tells what a run that checks the input once tells.
* `run_watches_iff`: so does a watch whose checks end, if the first time that it sees is not 0.
-/

namespace ScripCheck.Command

open Files

variable {s : Settings} {seen : Int} {before : String} {m now files : Snapshot}
  {moments earlier later : List Snapshot} {words : List String} {a : Arguments}

/-! ## Times -/

/-- The time of modification of the input, if it can be looked at. -/
def timeAt? (s : Settings) (m : Snapshot) : Option Int :=
  match m.look s.input with
  | .ok e => some e.modified
  | .error _ => none

/-- The times of modification that looks at some moments show. -/
def seenTimes (s : Settings) (moments : List Snapshot) : List Int := moments.filterMap (timeAt? s)

/-- The time seen last after looks at some moments, when it was `seen` before. -/
def lastSeen (s : Settings) (seen : Int) (moments : List Snapshot) : Int :=
  (seenTimes s moments).getLast?.getD seen

theorem lastSeen_cons (s : Settings) (seen : Int) (m : Snapshot) (ms : List Snapshot) :
    lastSeen s seen (m :: ms) = lastSeen s ((timeAt? s m).getD seen) ms := by
  unfold lastSeen seenTimes
  rw [List.filterMap_cons]
  cases timeAt? s m with
  | none => rfl
  | some t =>
    cases ms.filterMap (timeAt? s) with
    | nil => rfl
    | cons u us => simp [List.getLast?_eq_some_getLast]

/-! ## One look -/

/-- The input is checked at a moment, when the time seen last was `seen`. -/
def ChecksAt (s : Settings) (seen : Int) (m : Snapshot) : Prop :=
  ∃ t, timeAt? s m = some t ∧ t ≠ seen

/-- What one look at the input comes to. -/
inductive Polls (s : Settings) (seen : Int) (m : Snapshot) : Poll → Prop where
  | nul (nul : s.input.hasNul = true) : Polls s seen m ⟨seen, "", some .nul⟩
  | idle (nul : s.input.hasNul = false) (idle : ¬ ChecksAt s seen m) :
    Polls s seen m ⟨(timeAt? s m).getD seen, "", none⟩
  | checked (checks : ChecksAt s seen m) : Polls s seen m
      ⟨(timeAt? s m).getD seen, onceText s m, (inspect s m).verdict.abort?⟩

theorem look_eq_nul_iff : m.look s.input = .error .nul ↔ s.input.hasNul = true := by
  unfold Snapshot.look
  cases s.input.hasNul with
  | true => exact ⟨fun _ => rfl, fun _ => rfl⟩
  | false => simp only [Bool.false_eq_true, if_false]; cases m s.input <;> simp

theorem polls (s : Settings) (seen : Int) (m : Snapshot) : Polls s seen m (poll s seen m) := by
  have hnul (h : m.look s.input ≠ .error .nul) : s.input.hasNul = false :=
    Bool.eq_false_iff.mpr (mt look_eq_nul_iff.mpr h)
  have htime {e : Entry} (h : m.look s.input = .ok e) : timeAt? s m = some e.modified := by
    rw [timeAt?, h]
  unfold poll
  split
  · next h => exact .nul (look_eq_nul_iff.mp h)
  · next d h =>
    have hnone : timeAt? s m = none := by rw [timeAt?, h]
    have hidle : ¬ ChecksAt s seen m := by
      rintro ⟨t, ht, -⟩
      cases hnone.symm.trans ht
    have hpolls := Polls.idle (hnul (by simp [h])) hidle
    rwa [hnone] at hpolls
  · next e h =>
    split
    · next heq =>
      have hidle : ¬ ChecksAt s seen m := by
        rintro ⟨t, ht, hne⟩
        exact hne ((Option.some.inj ((htime h).symm.trans ht)).symm.trans heq)
      have hpolls := Polls.idle (hnul (by simp [h])) hidle
      rwa [htime h, Option.getD_some, heq] at hpolls
    · next hne =>
      have hchecks : ChecksAt s seen m := ⟨_, htime h, hne⟩
      have hpolls := Polls.checked hchecks
      rwa [htime h, Option.getD_some, onceText_eq] at hpolls

theorem poll_seen (h : (poll s seen m).abort = none) :
    (poll s seen m).seen = (timeAt? s m).getD seen := by
  have hpolls := polls s seen m
  generalize poll s seen m = p at h hpolls
  cases hpolls with
  | nul => cases h
  | idle | checked => rfl

theorem poll_text_of_checksAt (h : ChecksAt s seen m) : (poll s seen m).text = onceText s m := by
  have hpolls := polls s seen m
  generalize poll s seen m = p at hpolls
  cases hpolls with
  | nul nul =>
    obtain ⟨t, ht, -⟩ := h
    rw [timeAt?, look_eq_nul_iff.mpr nul] at ht
    cases ht
  | idle _ idle => exact absurd h idle
  | checked => rfl

theorem poll_text_of_not_checksAt (h : ¬ ChecksAt s seen m) : (poll s seen m).text = "" := by
  have hpolls := polls s seen m
  generalize poll s seen m = p at hpolls
  cases hpolls with
  | nul | idle => rfl
  | checked checks => exact absurd checks h

theorem poll_abort_iff : (poll s seen m).abort = none ↔
    s.input.hasNul = false ∧ (ChecksAt s seen m → ¬ InputEscapes s m) := by
  have hpolls := polls s seen m
  generalize poll s seen m = p at hpolls
  cases hpolls with
  | nul nul => simp [nul]
  | idle nul idle => simp [nul, idle]
  | checked checks =>
    have hnul : s.input.hasNul = false := by
      obtain ⟨t, ht, -⟩ := checks
      refine Bool.eq_false_iff.mpr fun hnul => ?_
      rw [timeAt?, look_eq_nul_iff.mpr hnul] at ht
      cases ht
    simp only [abort?_eq_none_iff, hnul, checks, true_and, forall_const]

/-! ## Successive looks -/

theorem watchFrom_cons (h : (poll s seen m).abort = none) (before : String) :
    let w := watchFrom s ((timeAt? s m).getD seen) "" moments
    watchFrom s seen before (m :: moments) =
      { w with polls := (before ++ (poll s seen m).text) :: w.polls } := by
  rw [watchFrom, ← poll_seen h]
  simp only [h]

theorem watchFrom_cons_abort {abort : Abort} (h : (poll s seen m).abort = some abort) :
    (watchFrom s seen before (m :: moments)).abort = some abort := by
  rw [watchFrom]
  simp only [h]

/-- A watch is not aborted exactly if none of its looks is. -/
theorem watchFrom_abort_iff : (watchFrom s seen before moments).abort = none ↔
    ∀ earlier now later, moments = earlier ++ now :: later →
      (poll s (lastSeen s seen earlier) now).abort = none := by
  induction moments generalizing seen before with
  | nil => simp [watchFrom]
  | cons m ms ih =>
    cases h : (poll s seen m).abort with
    | some abort =>
      rw [watchFrom_cons_abort h]
      exact ⟨nofun, fun hall => by cases h.symm.trans (hall [] m ms rfl)⟩
    | none =>
      rw [watchFrom_cons h]
      refine ⟨fun hrest earlier now later hsplit => ?_, fun hall => ?_⟩
      · cases earlier with
        | nil => cases hsplit; exact h
        | cons e earlier =>
          cases hsplit
          rw [lastSeen_cons]
          exact ih.mp hrest earlier now later rfl
      · refine ih.mpr fun earlier now later hsplit => ?_
        rw [← lastSeen_cons]
        exact hall (m :: earlier) now later (congrArg (m :: ·) hsplit)

theorem poll_abort_of_watchFrom (h : (watchFrom s seen before (m :: moments)).abort = none) :
    (poll s seen m).abort = none :=
  watchFrom_abort_iff.mp h [] m moments rfl

/-- What stands before the text of a look: the text `before`, if it is the first one. -/
def lead (before : String) (earlier : List Snapshot) : String :=
  if earlier.isEmpty then before else ""

/-- The text that a watch writes up to a pause is that of the look before the pause. -/
theorem watchFrom_text
    (h : (watchFrom s seen before (earlier ++ now :: later)).abort = none) :
    (watchFrom s seen before (earlier ++ now :: later)).polls[earlier.length]? =
      some (lead before earlier ++ (poll s (lastSeen s seen earlier) now).text) := by
  induction earlier generalizing seen before with
  | nil =>
    rw [List.nil_append] at h ⊢
    rw [watchFrom_cons (poll_abort_of_watchFrom h)]
    rfl
  | cons m earlier ih =>
    rw [List.cons_append] at h ⊢
    have hm := poll_abort_of_watchFrom h
    rw [watchFrom_cons hm] at h ⊢
    rw [lastSeen_cons, List.length_cons, List.getElem?_cons_succ, ih h]
    cases earlier <;> rfl

/-- There is a pause after each look, and nothing is written after the last one. -/
theorem watchFrom_pauses (h : (watchFrom s seen before moments).abort = none) :
    (watchFrom s seen before moments).polls.length = moments.length ∧
      (watchFrom s seen before moments).tail = if moments.isEmpty then before else "" := by
  induction moments generalizing seen before with
  | nil => exact ⟨rfl, rfl⟩
  | cons m ms ih =>
    have hm := poll_abort_of_watchFrom h
    rw [watchFrom_cons hm] at h ⊢
    obtain ⟨hlength, htail⟩ := ih h
    refine ⟨congrArg (· + 1) hlength, htail.trans ?_⟩
    cases ms <;> rfl

/-! ## The watch of a run -/

/-- The input is to be checked at a moment, after some earlier ones: it can be looked at, and no
earlier look has shown it, or the last of these has shown another time of modification. -/
def Due (s : Settings) (earlier : List Snapshot) (now : Snapshot) : Prop :=
  ∃ t, timeAt? s now = some t ∧ (seenTimes s earlier).getLast? ≠ some t

/-- A watch over some moments tells, at each of them, what a run that checks the input once tells
there, if the input is to be checked; it pauses after each moment, and ends when it is left. -/
structure Watches (s : Settings) (moments : List Snapshot) (r : Report) : Prop where
  ending : r.ending = .exit 0
  out : r.out = ""
  err : r.err = String.join r.polls
  pauses : r.polls.length = moments.length
  due : ∀ earlier now later, moments = earlier ++ now :: later → Due s earlier now →
    (∃ code, (runOnce s now).ending = .exit code) ∧ onceText s now ≠ "" ∧
      r.polls[earlier.length]? = some (lead (watchLine s) earlier ++ onceText s now)
  idle : ∀ earlier now later, moments = earlier ++ now :: later → ¬ Due s earlier now →
    r.polls[earlier.length]? = some (lead (watchLine s) earlier)

/-- A check is due wherever it is made. -/
theorem due_of_checksAt (h : ChecksAt s (lastSeen s 0 earlier) now) : Due s earlier now := by
  obtain ⟨t, ht, hne⟩ := h
  refine ⟨t, ht, fun hlast => hne ?_⟩
  rw [lastSeen, hlast, Option.getD_some]

/-- A check is made wherever it is due, if the first time seen is not 0. -/
theorem checksAt_of_due (hfirst : (seenTimes s (earlier ++ now :: later)).head? ≠ some 0)
    (h : Due s earlier now) : ChecksAt s (lastSeen s 0 earlier) now := by
  obtain ⟨t, ht, hne⟩ := h
  refine ⟨t, ht, ?_⟩
  unfold lastSeen
  cases hlast : (seenTimes s earlier).getLast? with
  | some u =>
    rintro rfl
    exact hne hlast
  | none =>
    have hnil : earlier.filterMap (timeAt? s) = [] := List.getLast?_eq_none_iff.mp hlast
    rintro rfl
    refine hfirst ?_
    rw [seenTimes, List.filterMap_append, hnil, List.filterMap_cons, ht]
    rfl

/-- The first look that shows the input is due. -/
theorem due_first {t : Int} (h : (seenTimes s moments).head? = some t) :
    ∃ earlier now later, moments = earlier ++ now :: later ∧ timeAt? s now = some t ∧
      seenTimes s earlier = [] := by
  induction moments with
  | nil => cases h
  | cons m ms ih =>
    cases hm : timeAt? s m with
    | some u =>
      rw [seenTimes, List.filterMap_cons, hm] at h
      obtain rfl := Option.some.inj h
      exact ⟨[], m, ms, rfl, hm, rfl⟩
    | none =>
      rw [seenTimes, List.filterMap_cons, hm] at h
      obtain ⟨earlier, now, later, rfl, hnow, hearlier⟩ := ih h
      refine ⟨m :: earlier, now, later, rfl, hnow, ?_⟩
      rw [seenTimes, List.filterMap_cons, hm]
      exact hearlier

/-- What a watch over some moments reports, if it is not aborted. -/
theorem runWatch_of_left (hne : moments ≠ []) (h : (watch s moments).abort = none) :
    runWatch s moments =
      ⟨"", String.join (watch s moments).polls, (watch s moments).polls, .exit 0⟩ := by
  have htail : (watch s moments).tail = "" := by
    refine (watchFrom_pauses h).2.trans (if_neg ?_)
    simpa using hne
  simp [runWatch, Watching.text, h, htail]

theorem abort_of_runWatch (h : (runWatch s moments).ending = .exit 0) :
    (watch s moments).abort = none := by
  unfold runWatch at h
  cases hw : (watch s moments).abort with
  | none => rfl
  | some abort =>
    simp only [hw] at h
    cases h

theorem run_of_watch (hread : Arguments.read words = .ok a) (hwatch : a.watch = true)
    (hresolve : Settings.resolve files a = .ok s) (later : List Snapshot) :
    run words files later = runWatch s (files :: later) := by
  have hruns := runs hread files later
  generalize run words files later = r at hruns ⊢
  cases hruns with
  | watch _ _ _ resolve =>
    obtain rfl := Except.ok.inj (resolve.symm.trans hresolve)
    rfl
  | once _ _ _ _ watch => cases hwatch.symm.trans watch
  | wrong _ _ resolve => exact absurd hresolve (resolve s)
  | escapes _ resolve => exact absurd hresolve (resolve s)

/-- A run with the settings of a watch, but without watching. -/
theorem run_unwatched (hread : Arguments.read words = .ok { a with watch := false })
    (hresolve : Settings.resolve now { a with watch := false } = .ok { s with watch := false }) :
    run words now [] = runOnce s now := by
  unfold run
  rw [hread]
  dsimp only
  rw [hresolve]
  rfl

/-- A watch over some moments is not aborted exactly if its input can be looked at, and escapes at
none of the moments at which it is checked. -/
theorem watch_abort_iff (hne : moments ≠ []) : (watch s moments).abort = none ↔
    s.input.hasNul = false ∧ ∀ earlier now later, moments = earlier ++ now :: later →
      ChecksAt s (lastSeen s 0 earlier) now → ¬ InputEscapes s now := by
  rw [watch, watchFrom_abort_iff]
  simp only [poll_abort_iff]
  obtain ⟨m, ms, rfl⟩ := List.exists_cons_of_ne_nil hne
  refine ⟨fun h => ⟨(h [] m ms rfl).1, fun earlier now later hsplit => ?_⟩,
    fun h earlier now later hsplit => ⟨h.1, h.2 earlier now later hsplit⟩⟩
  exact (h earlier now later hsplit).2

/-- A watch that checks its input at the first sight of it does not see the time 0 first. -/
theorem Watches.first (h : Watches s moments (runWatch s moments)) (hne : moments ≠ []) :
    (seenTimes s moments).head? ≠ some 0 := by
  intro hfirst
  have habort := abort_of_runWatch h.ending
  rw [runWatch_of_left hne habort] at h
  obtain ⟨earlier, now, rest, rfl, hnow, hnone⟩ := due_first hfirst
  obtain ⟨-, htext, hpoll⟩ := h.due earlier now rest rfl ⟨0, hnow, by simp [hnone]⟩
  have hidle : ¬ ChecksAt s (lastSeen s 0 earlier) now := by
    rintro ⟨t, ht, hchanged⟩
    obtain rfl := Option.some.inj (hnow.symm.trans ht)
    exact hchanged (by rw [lastSeen, hnone]; rfl)
  have htold := hpoll.symm.trans (watchFrom_text habort)
  rw [poll_text_of_not_checksAt hidle] at htold
  exact htext (by simpa using htold)

/-! ## The watch of an empty input -/

/-- The words that ask for a watch. -/
def watchWords : List String := ["--watch", "m.scr"]

/-- What they ask for. -/
def watchArguments : Arguments := ⟨"m.scr", none, none, false, false, true⟩

theorem read_watchWords : Arguments.read watchWords = .ok watchArguments := by decide +kernel

theorem watchArguments_path : watchArguments.inputPath = ⟨.here, ["m.scr"]⟩ := by decide +kernel

theorem fits_watched : NameFits "m.scr" := ⟨by decide, by decide, by decide⟩

theorem watched_hasNul : (watchArguments.settings []).input.hasNul = false := by
  rw [Arguments.settings_input, watchArguments_path]
  exact fits_watched.hasNul

theorem resolve_watchArguments (m : Int) :
    Settings.resolve (.single "m.scr" [] m) watchArguments = .ok (watchArguments.settings []) :=
  resolve_beside watchArguments_path rfl rfl 1

theorem watched_text (m : Int) :
    (Snapshot.single "m.scr" [] m).readText (watchArguments.settings []).input = .ok [] := by
  rw [Arguments.settings_input, watchArguments_path, fits_watched.readText_single, Utf8.decode,
    Utf8.pieces]
  rfl

theorem watched_time (m : Int) :
    timeAt? (watchArguments.settings []) (.single "m.scr" [] m) = some m := by
  rw [timeAt?, Arguments.settings_input, watchArguments_path, fits_watched.look_single]
  rfl

/-! ## All watches -/

/-- A watch checks its input at the first sight of it and after each modification, and only then,
exactly if the first time of modification that it sees is not 0 and each check which is due comes
to its end. What it tells at a check is what a run with the same settings tells that checks the
input once. -/
theorem run_watches_iff (hread : Arguments.read words = .ok a) (hwatch : a.watch = true)
    (hresolve : Settings.resolve files a = .ok s) (later : List Snapshot) :
    (Watches s (files :: later) (run words files later) ↔
      (seenTimes s (files :: later)).head? ≠ some 0 ∧ s.input.hasNul = false ∧
        ∀ earlier now rest, files :: later = earlier ++ now :: rest → Due s earlier now →
          ¬ InputEscapes s now) ∧
      ∀ words' now, Arguments.read words' = .ok { a with watch := false } →
        Settings.resolve now { a with watch := false } = .ok { s with watch := false } →
        run words' now [] = runOnce s now := by
  refine ⟨?_, fun words' now hread' hresolve' => run_unwatched hread' hresolve'⟩
  rw [run_of_watch hread hwatch hresolve]
  have hne : files :: later ≠ [] := List.cons_ne_nil _ _
  generalize files :: later = moments at hne ⊢
  constructor
  · intro h
    refine ⟨h.first hne, ((watch_abort_iff hne).mp (abort_of_runWatch h.ending)).1, ?_⟩
    exact fun earlier now rest hsplit hdue =>
      runOnce_exit_iff.mp (h.due earlier now rest hsplit hdue).1
  · rintro ⟨hfirst, hnul, hinput⟩
    have habort := (watch_abort_iff hne).mpr ⟨hnul, fun earlier now rest hsplit checks =>
      hinput earlier now rest hsplit (due_of_checksAt checks)⟩
    rw [runWatch_of_left hne habort]
    refine ⟨rfl, rfl, rfl, (watchFrom_pauses habort).1, ?_, ?_⟩
    · rintro earlier now rest rfl hdue
      have hescapes := hinput earlier now rest rfl hdue
      refine ⟨runOnce_exit_iff.mpr hescapes, onceText_ne_empty hescapes, ?_⟩
      rw [← poll_text_of_checksAt (checksAt_of_due hfirst hdue)]
      exact watchFrom_text habort
    · rintro earlier now rest rfl hidle
      have htext := poll_text_of_not_checksAt (mt due_of_checksAt hidle)
      refine (watchFrom_text habort).trans ?_
      rw [htext, String.append_empty]

/-- A watch of an input that is modified once checks it twice. -/
theorem run_watches_touched :
    Watches (watchArguments.settings []) [.single "m.scr" [] 1, .single "m.scr" [] 2]
      (run watchWords (.single "m.scr" [] 1) [.single "m.scr" [] 2]) := by
  refine (run_watches_iff read_watchWords rfl (resolve_watchArguments 1) _).1.mpr
    ⟨?_, watched_hasNul, ?_⟩
  · simp [seenTimes, watched_time]
  · intro earlier now rest hsplit _
    have hnow : now ∈ [Snapshot.single "m.scr" [] 1, .single "m.scr" [] 2] := by simp [hsplit]
    rcases List.mem_pair.mp hnow with rfl | rfl <;> exact
      not_inputEscapes (watched_text _) (by simp [Arguments.settings, watchArguments])

/-- A watch does not check at the first sight an input that was modified at the time 0. -/
theorem run_watches_timeZero :
    Arguments.read watchWords = .ok watchArguments ∧ watchArguments.watch = true ∧
      Settings.resolve (.single "m.scr" [] 0) watchArguments = .ok (watchArguments.settings []) ∧
      ¬ Watches (watchArguments.settings []) [.single "m.scr" [] 0]
        (run watchWords (.single "m.scr" [] 0) []) := by
  refine ⟨read_watchWords, rfl, resolve_watchArguments 0, fun h => ?_⟩
  rw [run_of_watch read_watchWords rfl (resolve_watchArguments 0)] at h
  refine h.first (List.cons_ne_nil _ _) ?_
  rw [seenTimes, List.filterMap_cons, watched_time]
  rfl

end ScripCheck.Command
