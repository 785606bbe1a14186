import Mathlib.Algebra.BigOperators.Fin
import XmlInspect.Analysis.Batch
import XmlInspect.Proofs.Independence

/-!
# Several workers

Files can be analysed by several workers at a time. Each has an analyzer of its own; what they share
is the number of issues so far and a flag that says that no more files are to be started. A worker
goes through a file in four steps, and between any two of them the others may do whatever they can:
it takes the file and looks at the flag, analyses the file, adds the issues to those of the others,
and puts up the flag if the sum that it got is enough.

A *schedule* says which worker acts next, and on which file. It is an arbitrary list: a worker may
be left alone with a file for as long as the others find something to do, so that its sum is out of
date when it compares it with the limit. Nothing is lost by that, since a sum is never more than
what has been found.
-/

namespace XmlInspect

/-- The report of a file that is analysed alone. -/
def Batch.reportAlone [EastAsianDecoder] [PatternEngine] (config : Config) (input : InputFile) :
    FileReport :=
  .ofFindings input.uri ((Analyzer.ofConfig config .full).analyzeAlone input).1

/-- An analyzer that has been through other files makes the same report, and goes on to do so. -/
theorem Analyzer.Resembles.report [EastAsianDecoder] [PatternEngine] {config : Config}
    {analyzer : Analyzer} (h : (ofConfig config .full).Resembles analyzer) (input : InputFile) :
    FileReport.ofFindings input.uri (analyzer.analyze input).1 = Batch.reportAlone config input ∧
      (analyzer.analyze input).2.1.issueCount = (Batch.reportAlone config input).issues.length ∧
      (ofConfig config .full).Resembles (analyzer.analyze input).2.2 := by
  obtain ⟨halone, hnext⟩ := h.analyze ⟨rfl, rfl⟩
    (fun _ hcheck ↦ (Config.isBuiltin_of_mem_checks hcheck).forgetful) input
  have hfindings : (analyzer.analyze input).1 = ((ofConfig config .full).analyzeAlone input).1 :=
    congrArg (·.1) halone
  refine ⟨congrArg (FileReport.ofFindings input.uri) hfindings, ?_, hnext⟩
  rw [issueCount_analyze, hfindings]
  rfl

/-! ## Workers and files -/

namespace Pool

variable {n : Nat}

/-- One who analyses files. -/
structure Worker (n : Nat) where
  analyzer : Analyzer
  /-- The file that it is busy with. -/
  current : Option (Fin n)

/-- How far a file is. -/
inductive Standing where
  | waiting
  /-- It was taken when no more files were to be started. -/
  | skipped
  | taken
  /-- There is a report, but its issues have not been added to the others. -/
  | analysed (report : FileReport) (count : Nat)
  /-- The issues have been added, and that was their sum. -/
  | counted (report : FileReport) (total : Nat)
  | reported (report : FileReport)

namespace Standing

/-- Nothing more is to be done about the file. -/
def isSettled : Standing → Bool
  | skipped | reported _ => true
  | _ => false

/-- Some worker is busy with the file. -/
def isHeld : Standing → Bool
  | taken | analysed _ _ | counted _ _ => true
  | _ => false

theorem isSettled_of_isHeld {standing : Standing} (h : standing.isHeld = true) :
    standing.isSettled = false := by
  cases standing with
  | taken | analysed | counted => rfl
  | waiting | skipped | reported => cases h

theorem eq_of_isSettled {standing : Standing} (h : standing.isSettled = true) :
    standing = .skipped ∨ ∃ report, standing = .reported report := by
  cases standing with
  | skipped => exact .inl rfl
  | reported report => exact .inr ⟨report, rfl⟩
  | waiting | taken | analysed | counted => cases h

def isSkipped : Standing → Bool
  | skipped => true
  | _ => false

/-- What is reported in the end. -/
def report? : Standing → Option FileReport
  | reported report => some report
  | _ => none

/-- How many issues the file has added to the others. -/
def added : Standing → Nat
  | counted report _ | reported report => report.issues.length
  | _ => 0

/-- How many steps are to be done about the file, at most. -/
def stepsLeft : Standing → Nat
  | waiting => 4
  | taken => 3
  | analysed _ _ => 2
  | counted _ _ => 1
  | skipped | reported _ => 0

end Standing

/-- All that a worker has to do with when it acts on a file. -/
structure View (n : Nat) where
  worker : Worker n
  standing : Standing
  progress : Batch.Progress

namespace View

/-- A free worker takes a file that waits, if files are to be started. -/
def take (file : Fin n) (view : View n) : Option (View n) :=
  match view.standing with
  | .waiting =>
    if view.progress.cancelled then
      some { view with standing := .skipped }
    else
      some { view with worker := { view.worker with current := some file }, standing := .taken }
  | _ => none

/-- A worker goes on with its file. -/
def proceed [EastAsianDecoder] (limit : Option Nat) (input : InputFile) (view : View n) :
    Option (View n) :=
  match view.standing with
  | .taken =>
    let (findings, outcome, next) := view.worker.analyzer.analyze input
    let report := FileReport.ofFindings input.uri findings
    some { view with
      worker := { view.worker with analyzer := next }
      standing := .analysed report outcome.issueCount }
  | .analysed report count =>
    let total := view.progress.found + count
    some { view with
      standing := .counted report total
      progress := { view.progress with found := total } }
  | .counted report total =>
    let cancelled := view.progress.cancelled || limit.any (· ≤ total)
    some { view with
      worker := { view.worker with current := none }
      standing := .reported report
      progress := { view.progress with cancelled } }
  | _ => none

/-- What a worker does with a file, unless it is none of its business. -/
def move [EastAsianDecoder] (limit : Option Nat) (input : InputFile) (file : Fin n)
    (view : View n) : Option (View n) :=
  match view.worker.current with
  | none => view.take file
  | some held => if held = file then view.proceed limit input else none

end View

end Pool

/-- Workers, files, and what they share. -/
structure Pool (jobs n : Nat) where
  workers : Fin jobs → Pool.Worker n
  files : Fin n → Pool.Standing
  progress : Batch.Progress

namespace Pool

variable {jobs n : Nat} {config : Config} {limit : Option Nat} {input : InputFile}
  {inputs : Fin n → InputFile} {file : Fin n} {worker : Fin jobs} {before after : View n}
  {pool next last : Pool jobs n} {action : Fin jobs × Fin n}
  {schedule : List (Fin jobs × Fin n)}

/-- All workers are free and all files wait. -/
def start [PatternEngine] (config : Config) : Pool jobs n :=
  ⟨fun _ ↦ ⟨.ofConfig config .full, none⟩, fun _ ↦ .waiting, .start⟩

def view (pool : Pool jobs n) (worker : Fin jobs) (file : Fin n) : View n :=
  ⟨pool.workers worker, pool.files file, pool.progress⟩

/-- The pool after a worker has acted on a file. -/
def put (pool : Pool jobs n) (worker : Fin jobs) (file : Fin n) (view : View n) : Pool jobs n :=
  ⟨Function.update pool.workers worker view.worker,
    Function.update pool.files file view.standing, view.progress⟩

@[simp] theorem put_workers_self : (pool.put worker file after).workers worker = after.worker :=
  Function.update_self ..

@[simp] theorem put_files_self : (pool.put worker file after).files file = after.standing :=
  Function.update_self ..

theorem put_workers_of_ne {other : Fin jobs} (h : other ≠ worker) :
    (pool.put worker file after).workers other = pool.workers other :=
  Function.update_of_ne h ..

theorem put_files_of_ne {other : Fin n} (h : other ≠ file) :
    (pool.put worker file after).files other = pool.files other :=
  Function.update_of_ne h ..

/-- Over all files, a step makes the difference that it makes at its own. -/
theorem sum_put (weight : Standing → Nat) (pool : Pool jobs n) (worker : Fin jobs) (file : Fin n)
    (view : View n) :
    ∑ other, weight ((pool.put worker file view).files other) + weight (pool.files file) =
      ∑ other, weight (pool.files other) + weight view.standing := by
  have hupdate : (fun other ↦ weight ((pool.put worker file view).files other)) =
      Function.update (weight ∘ pool.files) file (weight view.standing) :=
    Function.comp_update weight pool.files file view.standing
  rw [hupdate, Finset.sum_update_of_mem (Finset.mem_univ file), Finset.sdiff_singleton_eq_erase,
    ← Finset.add_sum_erase _ (fun other ↦ weight (pool.files other)) (Finset.mem_univ file)]
  simp only [Function.comp_apply]
  omega

section

variable [EastAsianDecoder]

/-- A worker acts on a file. -/
def step (limit : Option Nat) (inputs : Fin n → InputFile) (pool : Pool jobs n)
    (action : Fin jobs × Fin n) : Option (Pool jobs n) :=
  ((pool.view action.1 action.2).move limit (inputs action.2) action.2).map
    (pool.put action.1 action.2)

/-- Workers act in the order of a schedule, unless one of them cannot. -/
def run (limit : Option Nat) (inputs : Fin n → InputFile) :
    Pool jobs n → List (Fin jobs × Fin n) → Option (Pool jobs n)
  | pool, [] => some pool
  | pool, action :: schedule =>
    (step limit inputs pool action).bind fun next ↦ run limit inputs next schedule

/-- Nothing more is to be done. -/
def Done (pool : Pool jobs n) : Prop := ∀ file, (pool.files file).isSettled = true

instance (pool : Pool jobs n) : Decidable pool.Done := inferInstanceAs (Decidable (∀ _, _))

/-- The reports of the files, in their order. -/
def reports (pool : Pool jobs n) : List FileReport :=
  (List.finRange n).filterMap fun file ↦ (pool.files file).report?

/-! ## What a worker can do -/

/-- The steps of a worker. -/
inductive Move (limit : Option Nat) (input : InputFile) (file : Fin n) : View n → View n → Prop
  | skip {analyzer : Analyzer} {progress : Batch.Progress} (h : progress.cancelled = true) :
    Move limit input file ⟨⟨analyzer, none⟩, .waiting, progress⟩
      ⟨⟨analyzer, none⟩, .skipped, progress⟩
  | take {analyzer : Analyzer} {progress : Batch.Progress} (h : progress.cancelled = false) :
    Move limit input file ⟨⟨analyzer, none⟩, .waiting, progress⟩
      ⟨⟨analyzer, some file⟩, .taken, progress⟩
  | analyse {analyzer : Analyzer} {progress : Batch.Progress} :
    Move limit input file ⟨⟨analyzer, some file⟩, .taken, progress⟩
      ⟨⟨(analyzer.analyze input).2.2, some file⟩,
        .analysed (.ofFindings input.uri (analyzer.analyze input).1)
          (analyzer.analyze input).2.1.issueCount, progress⟩
  | count {analyzer : Analyzer} {report : FileReport} {count found : Nat} {cancelled : Bool} :
    Move limit input file ⟨⟨analyzer, some file⟩, .analysed report count, ⟨found, cancelled⟩⟩
      ⟨⟨analyzer, some file⟩, .counted report (found + count), ⟨found + count, cancelled⟩⟩
  | finish {analyzer : Analyzer} {report : FileReport} {total found : Nat} {cancelled : Bool} :
    Move limit input file ⟨⟨analyzer, some file⟩, .counted report total, ⟨found, cancelled⟩⟩
      ⟨⟨analyzer, none⟩, .reported report, ⟨found, cancelled || limit.any (· ≤ total)⟩⟩

theorem move_eq_some_iff : before.move limit input file = some after ↔
    Move limit input file before after := by
  constructor
  · intro h
    obtain ⟨⟨analyzer, current⟩, standing, ⟨found, cancelled⟩⟩ := before
    unfold View.move at h
    split at h
    · rename_i hcurrent
      obtain rfl : current = none := hcurrent
      unfold View.take at h
      split at h
      · rename_i hstanding
        obtain rfl : standing = .waiting := hstanding
        split at h
        · rename_i hcancelled
          cases h
          exact .skip hcancelled
        · rename_i hcancelled
          cases h
          exact .take (Bool.eq_false_iff.2 hcancelled)
      · cases h
    · rename_i held hcurrent
      obtain rfl : current = some held := hcurrent
      split at h
      · rename_i hheld
        subst hheld
        unfold View.proceed at h
        cases standing with
        | taken =>
          cases h
          exact .analyse
        | analysed report count =>
          cases h
          exact .count
        | counted report total =>
          cases h
          exact .finish
        | waiting | skipped | reported => cases h
      · cases h
  · intro h
    cases h with
    | skip h => simp [View.move, View.take, h]
    | take h => simp [View.move, View.take, h]
    | analyse | count | finish => simp [View.move, View.proceed]

theorem step_eq_some_iff : step limit inputs pool action = some next ↔
    ∃ after, Move limit (inputs action.2) action.2 (pool.view action.1 action.2) after ∧
      pool.put action.1 action.2 after = next := by
  simp only [step, Option.map_eq_some_iff, move_eq_some_iff]

theorem run_cons_eq_some_iff : run limit inputs pool (action :: schedule) = some last ↔
    ∃ next, step limit inputs pool action = some next ∧
      run limit inputs next schedule = some last := by
  rw [run, Option.bind_eq_some_iff]

/-- What every step keeps is kept by a run. -/
theorem run_induction {P : Pool jobs n → Prop}
    (hstep : ∀ pool action next, step limit inputs pool action = some next → P pool → P next)
    (hrun : run limit inputs pool schedule = some last) (hpool : P pool) : P last := by
  induction schedule generalizing pool with
  | nil =>
    cases hrun
    exact hpool
  | cons action schedule ih =>
    obtain ⟨next, hnext, hrun⟩ := run_cons_eq_some_iff.1 hrun
    exact ih hrun (hstep pool action next hnext hpool)

end

/-! ## No count is lost -/

/-- A file is as it should be, given the report that it has alone. -/
def Standing.Fits (alone : FileReport) (progress : Batch.Progress) : Standing → Prop
  | waiting | taken => True
  | skipped => progress.cancelled = true
  | analysed report count => report = alone ∧ count = alone.issues.length
  | counted report total => report = alone ∧ total ≤ progress.found
  | reported report => report = alone

/-- What is shared only ever grows. -/
structure Grows (progress progress' : Batch.Progress) : Prop where
  found_le : progress.found ≤ progress'.found
  cancelled : progress.cancelled = true → progress'.cancelled = true

private theorem Standing.Fits.mono {alone : FileReport} {progress progress' : Batch.Progress}
    {standing : Standing} (h : standing.Fits alone progress) (hgrows : Grows progress progress') :
    standing.Fits alone progress' := by
  cases standing with
  | skipped => exact hgrows.cancelled h
  | counted report total => exact ⟨h.1, h.2.trans hgrows.found_le⟩
  | waiting | taken | analysed | reported => exact h

section

variable [EastAsianDecoder]

/-- The analyzers, files and counts of a pool are as they should be. -/
structure Sound [PatternEngine] (config : Config) (limit : Option Nat) (inputs : Fin n → InputFile)
    (pool : Pool jobs n) : Prop where
  /-- No worker is changed by the files that it has seen. -/
  resembles : ∀ worker, (Analyzer.ofConfig config .full).Resembles (pool.workers worker).analyzer
  fits : ∀ file, (pool.files file).Fits (Batch.reportAlone config (inputs file)) pool.progress
  /-- Every file is counted once. -/
  found_eq : pool.progress.found = ∑ file, (pool.files file).added
  /-- The flag is up only if there are enough issues. -/
  enough : pool.progress.cancelled = true → ∃ bound ∈ limit, bound ≤ pool.progress.found

theorem sound_start [PatternEngine] (config : Config) (limit : Option Nat)
    (inputs : Fin n → InputFile) : Sound config limit inputs (start config : Pool jobs n) where
  resembles _ := .refl _
  fits _ := trivial
  found_eq := by simp [start, Batch.Progress.start, Standing.added]
  enough h := by cases h

theorem Move.grows (h : Move limit input file before after) :
    Grows before.progress after.progress := by
  cases h with
  | skip | take | analyse => exact ⟨Nat.le_refl _, id⟩
  | count => exact ⟨Nat.le_add_right _ _, id⟩
  | finish => exact ⟨Nat.le_refl _, fun hcancelled ↦ Bool.or_eq_true_iff.2 (.inl hcancelled)⟩

/-- What a worker makes of a file does not depend on what it has seen before. -/
theorem Move.resembles_and_fits [PatternEngine] (h : Move limit input file before after)
    (hworker : (Analyzer.ofConfig config .full).Resembles before.worker.analyzer)
    (hfits : before.standing.Fits (Batch.reportAlone config input) before.progress) :
    (Analyzer.ofConfig config .full).Resembles after.worker.analyzer ∧
      after.standing.Fits (Batch.reportAlone config input) after.progress := by
  cases h with
  | skip hcancelled => exact ⟨hworker, hcancelled⟩
  | take => exact ⟨hworker, trivial⟩
  | analyse =>
    obtain ⟨hreport, hcount, hnext⟩ := hworker.report input
    exact ⟨hnext, hreport, hcount⟩
  | count => exact ⟨hworker, hfits.1, Nat.le_refl _⟩
  | finish => exact ⟨hworker, hfits.1⟩

/-- A file adds its issues when they are added to those of the others, and only then. -/
theorem Move.found_add {alone : FileReport} (h : Move limit input file before after)
    (hfits : before.standing.Fits alone before.progress) :
    after.progress.found + before.standing.added =
      before.progress.found + after.standing.added := by
  cases h with
  | skip | take | analyse | finish => rfl
  | count =>
    obtain ⟨rfl, rfl⟩ := hfits
    rfl

theorem Move.enough {alone : FileReport} (h : Move limit input file before after)
    (hfits : before.standing.Fits alone before.progress)
    (hcancelled : after.progress.cancelled = true) :
    before.progress.cancelled = true ∨ ∃ bound ∈ limit, bound ≤ after.progress.found := by
  cases h with
  | skip | take | analyse | count => exact .inl hcancelled
  | finish =>
    rcases Bool.or_eq_true_iff.1 hcancelled with hbefore | henough
    · exact .inl hbefore
    · -- the sum may be out of date, but then there are even more by now
      obtain ⟨bound, hbound, hle⟩ := (Option.any_eq_true _ _).1 henough
      exact .inr ⟨bound, hbound, (of_decide_eq_true hle).trans hfits.2⟩

theorem Sound.step [PatternEngine] (h : Sound config limit inputs pool)
    (hstep : Pool.step limit inputs pool action = some next) : Sound config limit inputs next := by
  obtain ⟨worker, file⟩ := action
  obtain ⟨after, hmove, rfl⟩ := step_eq_some_iff.1 hstep
  obtain ⟨hworker, hfile⟩ := hmove.resembles_and_fits (h.resembles worker) (h.fits file)
  refine ⟨fun other ↦ ?_, fun other ↦ ?_, ?_, fun hcancelled ↦ ?_⟩
  · by_cases hother : other = worker
    · subst hother
      rwa [put_workers_self]
    · rw [put_workers_of_ne hother]
      exact h.resembles other
  · by_cases hother : other = file
    · subst hother
      rwa [put_files_self]
    · -- the others have not moved, and what is shared has only grown
      rw [put_files_of_ne hother]
      exact (h.fits other).mono hmove.grows
  · have hfound := hmove.found_add (h.fits file)
    have hsum := sum_put Standing.added pool worker file after
    have hbefore := h.found_eq
    simp only [view] at hfound
    simp only [put] at hsum ⊢
    omega
  · rcases hmove.enough (h.fits file) hcancelled with hbefore | henough
    · obtain ⟨bound, hbound, hle⟩ := h.enough hbefore
      exact ⟨bound, hbound, hle.trans hmove.grows.found_le⟩
    · exact henough

theorem sound_of_run [PatternEngine] (hrun : run limit inputs (start config) schedule = some pool) :
    Sound config limit inputs pool :=
  run_induction (fun _ _ _ hstep hsound ↦ hsound.step hstep) hrun (sound_start config limit inputs)

end

/-! ## A run never gets stuck -/

/-- The worker is busy with the file, or it is free and nobody is busy with the file. -/
inductive Minds (file : Fin n) (view : View n) : Prop
  | held (hcurrent : view.worker.current = some file) (h : view.standing.isHeld = true)
  | free (hcurrent : view.worker.current = none) (h : view.standing.isHeld = false)

theorem Minds.eq_of_current {held : Fin n} (h : Minds file before)
    (hheld : before.worker.current = some held) : held = file ∧ before.standing.isHeld = true := by
  rcases h with ⟨hcurrent, h⟩ | ⟨hcurrent, -⟩
  · rw [hcurrent] at hheld
    exact ⟨(Option.some.inj hheld).symm, h⟩
  · rw [hcurrent] at hheld
    cases hheld

private theorem Minds.current_of_isHeld (h : Minds file before)
    (hheld : before.standing.isHeld = true) : before.worker.current = some file := by
  rcases h with ⟨hcurrent, -⟩ | ⟨-, h⟩
  · exact hcurrent
  · rw [h] at hheld
    cases hheld

/-- A file that somebody is busy with has one worker, and a worker is busy with no other. -/
structure Staffed (pool : Pool jobs n) : Prop where
  isHeld : ∀ worker file, (pool.workers worker).current = some file →
    (pool.files file).isHeld = true
  exists_worker : ∀ file, (pool.files file).isHeld = true →
    ∃ worker, (pool.workers worker).current = some file
  unique : ∀ worker other file, (pool.workers worker).current = some file →
    (pool.workers other).current = some file → other = worker

theorem staffed_start [PatternEngine] (config : Config) : Staffed (start config : Pool jobs n) where
  isHeld _ _ h := by cases h
  exists_worker _ h := by cases h
  unique _ _ _ h := by cases h

section

variable [EastAsianDecoder]

theorem Move.minds (h : Move limit input file before after) :
    Minds file before ∧ Minds file after := by
  cases h with
  | skip => exact ⟨.free rfl rfl, .free rfl rfl⟩
  | take => exact ⟨.free rfl rfl, .held rfl rfl⟩
  | analyse | count => exact ⟨.held rfl rfl, .held rfl rfl⟩
  | finish => exact ⟨.held rfl rfl, .free rfl rfl⟩

/-- A free worker can act on a file that waits, and a busy one on its own. -/
theorem Minds.exists_move (h : Minds file before) (hsettled : before.standing.isSettled = false) :
    ∃ after, Move limit input file before after := by
  obtain ⟨⟨analyzer, current⟩, standing, progress⟩ := before
  rcases h with ⟨hcurrent, h⟩ | ⟨hcurrent, h⟩
  · obtain rfl : current = some file := hcurrent
    cases standing with
    | taken => exact ⟨_, .analyse⟩
    | analysed report count => exact ⟨_, .count⟩
    | counted report total => exact ⟨_, .finish⟩
    | waiting | skipped | reported => cases h
  · obtain rfl : current = none := hcurrent
    cases standing with
    | waiting =>
      by_cases hcancelled : progress.cancelled = true
      · exact ⟨_, .skip hcancelled⟩
      · exact ⟨_, .take (Bool.eq_false_iff.2 hcancelled)⟩
    | skipped | reported => cases hsettled
    | taken | analysed | counted => cases h

theorem Move.stepsLeft_lt (h : Move limit input file before after) :
    after.standing.stepsLeft < before.standing.stepsLeft := by
  cases h <;> simp [Standing.stepsLeft]

theorem Staffed.step (h : Staffed pool) (hstep : Pool.step limit inputs pool action = some next) :
    Staffed next := by
  obtain ⟨worker, file⟩ := action
  obtain ⟨after, hmove, rfl⟩ := step_eq_some_iff.1 hstep
  obtain ⟨hbefore, hafter⟩ := hmove.minds
  -- nobody else is busy with the file, since then this worker would be too
  have hother : ∀ other, other ≠ worker → (pool.workers other).current ≠ some file := by
    intro other hne hcurrent
    have hworker := hbefore.current_of_isHeld (h.isHeld other file hcurrent)
    exact hne (h.unique worker other file hworker hcurrent)
  constructor
  · intro other held hcurrent
    by_cases hne : other = worker
    · subst hne
      rw [put_workers_self] at hcurrent
      obtain ⟨rfl, hheld⟩ := hafter.eq_of_current hcurrent
      rw [put_files_self, hheld]
    · rw [put_workers_of_ne hne] at hcurrent
      have hheld : held ≠ file := by
        rintro rfl
        exact hother other hne hcurrent
      rw [put_files_of_ne hheld, h.isHeld other held hcurrent]
  · intro held hheld
    by_cases hne : held = file
    · subst hne
      rw [put_files_self] at hheld
      exact ⟨worker, by rw [put_workers_self, hafter.current_of_isHeld hheld]⟩
    · rw [put_files_of_ne hne] at hheld
      obtain ⟨other, hcurrent⟩ := h.exists_worker held hheld
      have hworker : other ≠ worker := by
        rintro rfl
        exact hne (hbefore.eq_of_current hcurrent).1
      exact ⟨other, by rw [put_workers_of_ne hworker, hcurrent]⟩
  · intro one other held hone hcurrent
    by_cases hne : one = worker <;> by_cases hne' : other = worker
    · rw [hne, hne']
    · subst hne
      rw [put_workers_self] at hone
      rw [put_workers_of_ne hne', (hafter.eq_of_current hone).1] at hcurrent
      exact absurd hcurrent (hother other hne')
    · subst hne'
      rw [put_workers_self] at hcurrent
      rw [put_workers_of_ne hne, (hafter.eq_of_current hcurrent).1] at hone
      exact absurd hone (hother one hne)
    · rw [put_workers_of_ne hne] at hone
      rw [put_workers_of_ne hne'] at hcurrent
      exact h.unique one other held hone hcurrent

/-- As long as there is something to do, some worker can do it. -/
theorem Staffed.exists_step (h : Staffed pool) (hjobs : 0 < jobs) (hdone : ¬ pool.Done) :
    ∃ action next, Pool.step limit inputs pool action = some next := by
  -- a busy worker can go on with its file; if all are free, nobody holds the file that is left
  have hview : ∃ worker file, Minds file (pool.view worker file) ∧
      (pool.files file).isSettled = false := by
    by_cases hbusy : ∃ worker file, (pool.workers worker).current = some file
    · obtain ⟨worker, file, hcurrent⟩ := hbusy
      have hheld := h.isHeld worker file hcurrent
      exact ⟨worker, file, .held hcurrent hheld, Standing.isSettled_of_isHeld hheld⟩
    · push Not at hbusy
      obtain ⟨file, hfile⟩ := not_forall.1 hdone
      refine ⟨⟨0, hjobs⟩, file, .free ?_ ?_, Bool.eq_false_iff.2 hfile⟩
      · exact Option.eq_none_iff_forall_ne_some.2 (hbusy ⟨0, hjobs⟩)
      · rw [Bool.eq_false_iff]
        intro hheld
        obtain ⟨worker, hcurrent⟩ := h.exists_worker file hheld
        exact hbusy worker file hcurrent
  obtain ⟨worker, file, hminds, hsettled⟩ := hview
  obtain ⟨after, hmove⟩ := hminds.exists_move hsettled
  exact ⟨(worker, file), _, step_eq_some_iff.2 ⟨after, hmove, rfl⟩⟩

/-- The number of steps that are left, at most. -/
def stepsLeft (pool : Pool jobs n) : Nat := ∑ file, (pool.files file).stepsLeft

private theorem stepsLeft_lt_of_step (hstep : Pool.step limit inputs pool action = some next) :
    next.stepsLeft < pool.stepsLeft := by
  obtain ⟨worker, file⟩ := action
  obtain ⟨after, hmove, rfl⟩ := step_eq_some_iff.1 hstep
  have hsum := sum_put Standing.stepsLeft pool worker file after
  have hfile : after.standing.stepsLeft < (pool.files file).stepsLeft := hmove.stepsLeft_lt
  simp only [stepsLeft]
  omega

/-- Whatever has been done so far, the rest can be done. -/
theorem Staffed.exists_done (h : Staffed pool) (hjobs : 0 < jobs) :
    ∃ schedule last, run limit inputs pool schedule = some last ∧ last.Done := by
  induction hleft : pool.stepsLeft using Nat.strong_induction_on generalizing pool with
  | _ left ih =>
    by_cases hdone : pool.Done
    · exact ⟨[], pool, rfl, hdone⟩
    · obtain ⟨action, next, hstep⟩ :
          ∃ action next, Pool.step limit inputs pool action = some next := h.exists_step hjobs hdone
      obtain ⟨schedule, last, hrun, hlast⟩ :=
        ih next.stepsLeft (hleft ▸ stepsLeft_lt_of_step hstep) (h.step hstep) rfl
      exact ⟨action :: schedule, last, run_cons_eq_some_iff.2 ⟨next, hstep, hrun⟩, hlast⟩

theorem staffed_of_run [PatternEngine]
    (hrun : run limit inputs (start config) schedule = some pool) : Staffed pool :=
  run_induction (fun _ _ _ hstep hstaffed ↦ hstaffed.step hstep) hrun (staffed_start config)

end

end Pool

end XmlInspect
