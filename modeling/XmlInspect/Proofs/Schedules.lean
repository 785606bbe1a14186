import XmlInspect.Command.Run
import XmlInspect.Proofs.Pool

/-!
# What comes of a schedule

However workers share the files between them, the reports are those of the files that were not
skipped, in the order of the files, and each is what the file gives alone. All that a schedule
decides is which files are skipped. Without a limit none is, so nothing is decided. With a limit, a
file is skipped only if the others have enough issues; but there may be more than enough, since
a worker that is busy finishes its file.

Without workers, files are analysed in turn up to the first with which there are enough issues. That
is what one worker does too that takes the files in their order, step by step.
-/

namespace XmlInspect

/-! ## One after the other -/

namespace Batch

variable {config : Config} {limit : Option Nat} {reports all : List FileReport}

/-- There are as many issues as are wanted. At least one file has to be looked at. -/
def Suffices (limit : Option Nat) (reports : List FileReport) : Prop :=
  reports ≠ [] ∧ ∃ bound ∈ limit, bound ≤ issueCount reports

/-- The reports are the first ones of a list, no more than suffice, and all of them if they do not
suffice. -/
structure StopsAt (limit : Option Nat) (all reports : List FileReport) : Prop where
  initial : reports <+: all
  suffices_or_all : Suffices limit reports ∨ reports = all
  shortest : ∀ fewer, fewer <+: reports → Suffices limit fewer → fewer = reports

theorem issueCount_cons (report : FileReport) (reports : List FileReport) :
    issueCount (report :: reports) = report.issues.length + issueCount reports := by
  simp [issueCount]

theorem runFrom_of_cancelled [EastAsianDecoder] {progress : Progress}
    (h : progress.cancelled = true) (analyzer : Analyzer) (inputs : List InputFile) :
    runFrom limit progress analyzer inputs = [] := by
  induction inputs with
  | nil => rfl
  | cons input inputs ih => rw [runFrom, if_pos h, ih]

theorem runFrom_cons [EastAsianDecoder] {progress : Progress} (h : progress.cancelled = false)
    (analyzer : Analyzer) (input : InputFile) (inputs : List InputFile) :
    runFrom limit progress analyzer (input :: inputs) =
      .ofFindings input.uri (analyzer.analyze input).1 ::
        runFrom limit (progress.add limit (analyzer.analyze input).2.1.issueCount)
          (analyzer.analyze input).2.2 inputs :=
  if_neg (Bool.eq_false_iff.1 h)

/-- After some issues, fewer are wanted. -/
theorem suffices_cons_iff {report : FileReport} (h : reports ≠ []) :
    Suffices limit (report :: reports) ↔
      Suffices (limit.map (· - report.issues.length)) reports := by
  simp only [Suffices, issueCount_cons, Option.mem_map, exists_exists_and_eq_and,
    Nat.sub_le_iff_le_add']
  exact and_congr_left fun _ ↦ iff_of_true (List.cons_ne_nil _ _) h

theorem stopsAt_singleton {report : FileReport} (h : Suffices limit [report])
    (all : List FileReport) : StopsAt limit (report :: all) [report] := by
  refine ⟨by simp, .inl h, fun fewer hfewer hsuffices ↦ ?_⟩
  rcases List.prefix_cons_iff.1 hfewer with rfl | ⟨rest, rfl, hrest⟩
  · exact absurd rfl hsuffices.1
  · rw [List.prefix_nil.1 hrest]

theorem StopsAt.cons {report : FileReport} (hmore : ¬ Suffices limit [report])
    (h : StopsAt (limit.map (· - report.issues.length)) all reports) :
    StopsAt limit (report :: all) (report :: reports) := by
  refine ⟨List.cons_prefix_cons.2 ⟨rfl, h.initial⟩, ?_, fun fewer hfewer hsuffices ↦ ?_⟩
  · rcases h.suffices_or_all with hsuffices | rfl
    · exact .inl ((suffices_cons_iff hsuffices.1).2 hsuffices)
    · exact .inr rfl
  · rcases List.prefix_cons_iff.1 hfewer with rfl | ⟨rest, rfl, hrest⟩
    · exact absurd rfl hsuffices.1
    · by_cases hnil : rest = []
      · subst hnil
        exact absurd hsuffices hmore
      · rw [h.shortest rest hrest ((suffices_cons_iff hnil).1 hsuffices)]

section

variable [EastAsianDecoder] [PatternEngine]

/-- Files that are analysed in turn are those up to the first with which there are enough issues. -/
theorem stopsAt_runFrom {progress : Progress} {analyzer : Analyzer}
    (hresembles : (Analyzer.ofConfig config .full).Resembles analyzer)
    (hcancelled : progress.cancelled = false) (inputs : List InputFile) :
    StopsAt (limit.map (· - progress.found)) (inputs.map (reportAlone config))
      (runFrom limit progress analyzer inputs) := by
  induction inputs generalizing progress analyzer with
  | nil => exact ⟨List.prefix_rfl, .inr rfl, fun _ hfewer _ ↦ List.prefix_nil.1 hfewer⟩
  | cons input inputs ih =>
    obtain ⟨hreport, hcount, hnext⟩ := hresembles.report input
    rw [runFrom_cons hcancelled, hreport, hcount, List.map_cons]
    set report := reportAlone config input
    have hsuffices : Suffices (limit.map (· - progress.found)) [report] ↔
        (progress.add limit report.issues.length).cancelled = true := by
      simp [Suffices, Progress.add, issueCount, hcancelled, Option.any_eq_true, Nat.add_comm]
    by_cases hstop : (progress.add limit report.issues.length).cancelled = true
    · rw [runFrom_of_cancelled hstop]
      exact stopsAt_singleton (hsuffices.2 hstop) _
    · refine StopsAt.cons (mt hsuffices.1 hstop) ?_
      -- the other files have to come up to what is left of the limit
      rw [Option.map_map, show ((· - report.issues.length) ∘ (· - progress.found) : Nat → Nat) =
        (· - (progress.found + report.issues.length)) from funext fun _ ↦ Nat.sub_sub _ _ _]
      exact ih hnext (Bool.eq_false_iff.2 hstop)

theorem stopsAt_run (config : Config) (limit : Option Nat) (inputs : List InputFile) :
    StopsAt limit (inputs.map (reportAlone config)) (run config limit inputs) := by
  have h : StopsAt (limit.map (· - Progress.start.found)) (inputs.map (reportAlone config))
      (runFrom limit .start (.ofConfig config .full) inputs) := stopsAt_runFrom (.refl _) rfl inputs
  have hlimit : limit.map (· - Progress.start.found) = limit := Option.map_id'
  rwa [hlimit] at h

theorem run_none (config : Config) (inputs : List InputFile) :
    run config none inputs = inputs.map (reportAlone config) := by
  rcases (stopsAt_run config none inputs).suffices_or_all with hsuffices | hall
  · obtain ⟨-, bound, hbound, -⟩ := hsuffices
    cases hbound
  · exact hall

end

end Batch

/-! ## One worker -/

namespace Pool

section

variable {jobs n : Nat} {limit : Option Nat} {input : InputFile} {inputs : Fin n → InputFile}
  {file : Fin n} {before after : View n} {pool next last : Pool jobs n} {worker : Fin jobs}
  {action : Fin jobs × Fin n} {schedule : List (Fin jobs × Fin n)}

/-- The files are turned to in their order, and none is gone back to. -/
def InOrder (schedule : List (Fin jobs × Fin n)) : Prop :=
  schedule.Pairwise fun action later ↦ action.2 ≤ later.2

private theorem view_put : (pool.put worker file after).view worker file = after := by
  simp only [view, put, Function.update_self]

private theorem put_put : (pool.put worker file before).put worker file after =
    pool.put worker file after := by
  simp only [put, Function.update_idem]

variable [EastAsianDecoder]

theorem files_of_step_of_ne (hstep : step limit inputs pool action = some next)
    (h : file ≠ action.2) : next.files file = pool.files file := by
  obtain ⟨after, -, rfl⟩ := step_eq_some_iff.1 hstep
  exact put_files_of_ne h

private theorem files_of_run_of_forall_ne (hrun : run limit inputs pool schedule = some last)
    (h : ∀ action ∈ schedule, file ≠ action.2) : last.files file = pool.files file := by
  induction schedule generalizing pool with
  | nil =>
    cases hrun
    rfl
  | cons action schedule ih =>
    obtain ⟨next, hstep, hrun⟩ := run_cons_eq_some_iff.1 hrun
    obtain ⟨hfirst, hrest⟩ := List.forall_mem_cons.1 h
    rw [ih hrun hrest, files_of_step_of_ne hstep hfirst]

theorem Move.isSettled_eq_false (h : Move limit input file before after) :
    before.standing.isSettled = false := by
  cases h <;> rfl

private theorem files_of_run_of_isSettled (hrun : run limit inputs pool schedule = some last)
    (h : (pool.files file).isSettled = true) : last.files file = pool.files file := by
  refine run_induction (P := fun later ↦ later.files file = pool.files file) ?_ hrun rfl
  intro later action next hstep hlater
  rw [← hlater]
  refine files_of_step_of_ne hstep fun heq ↦ ?_
  subst heq
  obtain ⟨after, hmove, -⟩ := step_eq_some_iff.1 hstep
  have hopen : (later.files action.2).isSettled = false := hmove.isSettled_eq_false
  rw [hlater, h] at hopen
  cases hopen

end

section

variable [EastAsianDecoder] {n : Nat} {limit : Option Nat} {inputs : Fin n → InputFile}
  {file : Fin n} {before : View n} {pool last : Pool 1 n} {schedule : List (Fin 1 × Fin n)}

/-- If there is only one worker, it goes on with its file. -/
theorem exists_move_of_run (hcurrent : before.worker.current = some file)
    (hheld : before.standing.isHeld = true)
    (hrun : run limit inputs (pool.put 0 file before) schedule = some last) (hdone : last.Done) :
    ∃ after rest, Move limit (inputs file) file before after ∧ schedule = (0, file) :: rest ∧
      run limit inputs (pool.put 0 file after) rest = some last := by
  cases schedule with
  | nil =>
    cases hrun
    have hsettled := hdone file
    rw [put_files_self, Standing.isSettled_of_isHeld hheld] at hsettled
    cases hsettled
  | cons action rest =>
    obtain ⟨next, hstep, hrun⟩ := run_cons_eq_some_iff.1 hrun
    obtain ⟨after, hmove, rfl⟩ := step_eq_some_iff.1 hstep
    obtain ⟨worker, other⟩ := action
    obtain rfl : worker = 0 := Subsingleton.elim _ _
    have hother : file = other := by
      refine (hmove.minds.1.eq_of_current ?_).1
      rwa [view, put_workers_self]
    subst hother
    rw [view_put] at hmove
    rw [put_put] at hrun
    exact ⟨after, rest, hmove, rfl, hrun⟩

private theorem exists_run_of_taken {analyzer : Analyzer} {progress : Batch.Progress}
    (hrun : run limit inputs (pool.put 0 file ⟨⟨analyzer, some file⟩, .taken, progress⟩) schedule =
      some last) (hdone : last.Done) :
    ∃ rest, schedule = (0, file) :: (0, file) :: (0, file) :: rest ∧
      run limit inputs (pool.put 0 file ⟨⟨(analyzer.analyze (inputs file)).2.2, none⟩,
        .reported (.ofFindings (inputs file).uri (analyzer.analyze (inputs file)).1),
        progress.add limit (analyzer.analyze (inputs file)).2.1.issueCount⟩) rest = some last := by
  obtain ⟨_, _, hmove, rfl, hrun⟩ := exists_move_of_run rfl rfl hrun hdone
  cases hmove
  obtain ⟨_, _, hmove, rfl, hrun⟩ := exists_move_of_run rfl rfl hrun hdone
  cases hmove
  obtain ⟨_, rest, hmove, rfl, hrun⟩ := exists_move_of_run rfl rfl hrun hdone
  cases hmove
  exact ⟨rest, rfl, hrun⟩

/-- In order, the first of the files that wait is taken first. -/
theorem exists_move_of_inOrder {files : List (Fin n)} (hlater : ∀ other ∈ files, file < other)
    (hwaiting : pool.files file = .waiting)
    (hsettled : ∀ other ∉ file :: files, (pool.files other).isSettled = true)
    (hrun : run limit inputs pool schedule = some last) (hdone : last.Done)
    (horder : InOrder schedule) :
    ∃ after rest, Move limit (inputs file) file (pool.view 0 file) after ∧
      schedule = (0, file) :: rest ∧ run limit inputs (pool.put 0 file after) rest = some last := by
  -- somebody turns to the file, or else it would be waiting still
  have hturn : ∃ action ∈ schedule, file = action.2 := by
    by_contra hnone
    push Not at hnone
    have hlast := hdone file
    rw [files_of_run_of_forall_ne hrun hnone, hwaiting] at hlast
    cases hlast
  obtain ⟨action, haction, hfile⟩ := hturn
  cases schedule with
  | nil => cases haction
  | cons first rest =>
    obtain ⟨next, hstep, hrun⟩ := run_cons_eq_some_iff.1 hrun
    obtain ⟨after, hmove, rfl⟩ := step_eq_some_iff.1 hstep
    obtain ⟨worker, other⟩ := first
    obtain rfl : worker = 0 := Subsingleton.elim _ _
    have hle : other ≤ file := by
      rcases List.mem_cons.1 haction with rfl | hrest
      · exact hfile.ge
      · exact hfile ▸ (List.pairwise_cons.1 horder).1 action hrest
    have hmem : other ∈ file :: files := by
      by_contra hnot
      have hopen : (pool.files other).isSettled = false := hmove.isSettled_eq_false
      rw [hsettled other hnot] at hopen
      cases hopen
    rcases List.mem_cons.1 hmem with rfl | hother
    · exact ⟨after, rest, hmove, rfl, hrun⟩
    · exact absurd (hlater other hother) (not_lt.2 hle)

/-- One worker that takes the files in their order does what is done without workers. -/
theorem reports_of_inOrder {files : List (Fin n)} (hsorted : files.Pairwise (· < ·))
    (hwaiting : ∀ file ∈ files, pool.files file = .waiting)
    (hsettled : ∀ file ∉ files, (pool.files file).isSettled = true)
    (hfree : (pool.workers 0).current = none)
    (hrun : run limit inputs pool schedule = some last) (hdone : last.Done)
    (horder : InOrder schedule) :
    files.filterMap (fun file ↦ (last.files file).report?) =
      Batch.runFrom limit pool.progress (pool.workers 0).analyzer (files.map inputs) := by
  induction files generalizing pool schedule with
  | nil => rfl
  | cons file files ih =>
    obtain ⟨hlater, hsorted⟩ := List.pairwise_cons.1 hsorted
    obtain ⟨hfirst, hwaiting⟩ := List.forall_mem_cons.1 hwaiting
    -- when the file is settled, the rest of the schedule is about the rest of the files
    have hrest : ∀ after rest, after.worker.current = none → after.standing.isSettled = true →
        run limit inputs (pool.put 0 file after) rest = some last → InOrder rest →
        last.files file = after.standing ∧ files.filterMap (fun file ↦ (last.files file).report?) =
          Batch.runFrom limit after.progress after.worker.analyzer (files.map inputs) := by
      intro after rest hfree hstanding hrun horder
      have hlast := files_of_run_of_isSettled hrun (by rwa [put_files_self])
      rw [put_files_self] at hlast
      refine ⟨hlast, ?_⟩
      have hworker : (pool.put 0 file after).workers 0 = after.worker := put_workers_self
      rw [← hworker] at hfree ⊢
      refine ih hsorted (fun other hother ↦ ?_) (fun other hother ↦ ?_) hfree hrun horder
      · rw [put_files_of_ne (hlater other hother).ne', hwaiting other hother]
      · by_cases hne : other = file
        · subst hne
          rwa [put_files_self]
        · rw [put_files_of_ne hne]
          exact hsettled other (List.not_mem_cons_of_ne_of_not_mem hne hother)
    obtain ⟨after, rest, hmove, rfl, hrun⟩ :=
      exists_move_of_inOrder hlater hfirst hsettled hrun hdone horder
    have hview : pool.view 0 file =
        ⟨⟨(pool.workers 0).analyzer, none⟩, .waiting, pool.progress⟩ := by
      rw [view, hfirst, ← hfree]
    rw [hview] at hmove
    cases hmove with
    | skip hcancelled =>
      obtain ⟨hlast, hreports⟩ := hrest _ _ rfl rfl hrun horder.tail
      rw [List.filterMap_cons_none (by rw [hlast]; rfl), hreports,
        Batch.runFrom_of_cancelled hcancelled, Batch.runFrom_of_cancelled hcancelled]
    | take hcancelled =>
      -- nobody else can come in between, so the next three steps are about this file too
      obtain ⟨rest, rfl, hfinished⟩ := exists_run_of_taken hrun hdone
      obtain ⟨hlast, hreports⟩ := hrest _ rest rfl rfl hfinished horder.tail.tail.tail.tail
      rw [List.filterMap_cons_some (by rw [hlast]; rfl), hreports, List.map_cons,
        Batch.runFrom_cons hcancelled]

end

end Pool

/-! ## The end of a run -/

theorem Command.execute_eq_ofReports [EastAsianDecoder] [PatternEngine]
    {arguments : Command.Arguments} {lookup : Lookup} {config : Config}
    (hjobs : arguments.jobs ≠ some 0) (hconfig : configOf? arguments lookup = some config) :
    execute arguments lookup =
      .ofReports arguments (Batch.run config arguments.maxIssues (inputsOf arguments lookup)) := by
  rw [execute, if_neg hjobs, hconfig]

private theorem Batch.issueCount_filterMap {α : Type*} (report? : α → Option FileReport)
    (files : List α) : issueCount (files.filterMap report?) =
      (files.map fun file ↦ ((report? file).map (·.issues.length)).getD 0).sum := by
  induction files with
  | nil => rfl
  | cons file files ih =>
    cases hreport : report? file with
    | none => simp [List.filterMap_cons_none hreport, ih, hreport]
    | some report => simp [List.filterMap_cons_some hreport, issueCount_cons, ih, hreport]

namespace Pool

variable {jobs n : Nat} {config : Config} {limit : Option Nat} {inputs : Fin n → InputFile}
  {pool : Pool jobs n} {file : Fin n}

section

variable [EastAsianDecoder] [PatternEngine]

/-- A file that was not skipped is reported as if it were alone. -/
theorem Sound.report?_eq (h : Sound config limit inputs pool) (hdone : pool.Done) (file : Fin n) :
    (pool.files file).report? = if !(pool.files file).isSkipped
      then some (Batch.reportAlone config (inputs file)) else none := by
  have hfits := h.fits file
  rcases Standing.eq_of_isSettled (hdone file) with hskipped | ⟨report, hreported⟩
  · rw [hskipped]
    rfl
  · rw [hreported] at hfits ⊢
    exact congrArg some hfits

theorem Sound.reports_eq (h : Sound config limit inputs pool) (hdone : pool.Done) :
    pool.reports = ((List.finRange n).filter fun file ↦ !(pool.files file).isSkipped).map
      fun file ↦ Batch.reportAlone config (inputs file) := by
  rw [← List.filterMap_eq_map, List.filterMap_filter]
  exact List.filterMap_congr fun file _ ↦ h.report?_eq hdone file

theorem Sound.reports_eq_of_forall_ne (h : Sound config limit inputs pool) (hdone : pool.Done)
    (hnone : ∀ file, pool.files file ≠ .skipped) :
    pool.reports = ((List.finRange n).map inputs).map (Batch.reportAlone config) := by
  have hkept : ∀ file, (!(pool.files file).isSkipped) = true := by
    intro file
    cases hstanding : pool.files file with
    | skipped => exact absurd hstanding (hnone file)
    | waiting | taken | analysed | counted | reported => rfl
  rw [h.reports_eq hdone, List.filter_eq_self.2 fun file _ ↦ hkept file, List.map_map]
  rfl

theorem Sound.issueCount_reports (h : Sound config limit inputs pool) (hdone : pool.Done) :
    Batch.issueCount pool.reports = pool.progress.found := by
  rw [h.found_eq, reports, Batch.issueCount_filterMap, Fin.sum_univ_def]
  refine congrArg List.sum (List.map_congr_left fun file _ ↦ ?_)
  rcases Standing.eq_of_isSettled (hdone file) with hskipped | ⟨report, hreported⟩
  · rw [hskipped]
    rfl
  · rw [hreported]
    rfl

theorem Sound.exists_bound_of_skipped (h : Sound config limit inputs pool)
    (hskipped : pool.files file = .skipped) : ∃ bound ∈ limit, bound ≤ pool.progress.found := by
  have hfits := h.fits file
  rw [hskipped] at hfits
  exact h.enough hfits

/-- What holds when a schedule has come to its end. -/
structure Concludes (config : Config) (limit : Option Nat) (inputs : List InputFile)
    (schedule : List (Fin jobs × Fin inputs.length)) (pool : Pool jobs inputs.length) : Prop where
  /-- The files that were not skipped are reported in their order, each as if it were alone. -/
  reports_eq : pool.reports =
    ((List.finRange inputs.length).filter fun file ↦ !(pool.files file).isSkipped).map
      fun file ↦ Batch.reportAlone config (inputs.get file)
  /-- Without a limit all files are reported. -/
  unlimited : limit = none → (∀ file, pool.files file ≠ .skipped) ∧
    pool.reports = inputs.map (Batch.reportAlone config)
  /-- No file is skipped unless the others have enough issues. -/
  limited : ∀ bound ∈ limit, (∃ file, pool.files file = .skipped) →
    bound ≤ Batch.issueCount pool.reports
  /-- One worker that takes the files in their order stops as soon as there are enough. -/
  inOrder : jobs = 1 → InOrder schedule →
    Batch.StopsAt limit (inputs.map (Batch.reportAlone config)) pool.reports
  exitCode : ∀ arguments, (Command.Output.ofReports arguments pool.reports).exitCode = 1 ↔
    0 < Batch.issueCount pool.reports
  /-- In both cases the program leaves behind what the workers would. -/
  execute : ∀ arguments lookup, arguments.jobs ≠ some 0 →
    Command.configOf? arguments lookup = some config → arguments.maxIssues = limit →
    Command.inputsOf arguments lookup = inputs → (limit = none ∨ jobs = 1 ∧ InOrder schedule) →
    Command.execute arguments lookup = .ofReports arguments pool.reports

theorem reports_eq_run_of_inOrder {inputs : List InputFile}
    {schedule : List (Fin 1 × Fin inputs.length)} {pool : Pool 1 inputs.length}
    (hrun : run limit inputs.get (start config) schedule = some pool) (hdone : pool.Done)
    (horder : InOrder schedule) : pool.reports = Batch.run config limit inputs := by
  have hreports := reports_of_inOrder (List.pairwise_lt_finRange inputs.length) (fun _ _ ↦ rfl)
    (fun file hfile ↦ absurd (List.mem_finRange file) hfile) rfl hrun hdone horder
  rw [List.map_get_finRange] at hreports
  exact hreports

/-- Whatever the schedule is, the workers never get stuck, and in the end all files are reported
that were not skipped. -/
theorem concludes_of_run {inputs : List InputFile} {schedule : List (Fin jobs × Fin inputs.length)}
    {pool : Pool jobs inputs.length}
    (hrun : run limit inputs.get (start config) schedule = some pool) :
    (0 < jobs → ∃ rest last, run limit inputs.get pool rest = some last ∧ last.Done) ∧
      (pool.Done → Concludes config limit inputs schedule pool) := by
  refine ⟨(staffed_of_run hrun).exists_done, fun hdone ↦ ?_⟩
  have hsound := sound_of_run hrun
  have hunlimited : limit = none → ∀ file, pool.files file ≠ .skipped := by
    rintro rfl file hskipped
    obtain ⟨bound, hbound, -⟩ := hsound.exists_bound_of_skipped hskipped
    cases hbound
  have hall : limit = none → pool.reports = inputs.map (Batch.reportAlone config) := by
    intro hlimit
    rw [hsound.reports_eq_of_forall_ne hdone (hunlimited hlimit), List.map_get_finRange]
  have hinOrder : jobs = 1 → InOrder schedule → pool.reports = Batch.run config limit inputs := by
    rintro rfl horder
    exact reports_eq_run_of_inOrder hrun hdone horder
  constructor
  case reports_eq => exact hsound.reports_eq hdone
  case unlimited => exact fun hlimit ↦ ⟨hunlimited hlimit, hall hlimit⟩
  case limited =>
    rintro bound hbound ⟨file, hskipped⟩
    obtain ⟨bound', hbound', hle⟩ := hsound.exists_bound_of_skipped hskipped
    rw [hsound.issueCount_reports hdone, Option.mem_unique hbound hbound']
    exact hle
  case inOrder =>
    intro hjobs horder
    rw [hinOrder hjobs horder]
    exact Batch.stopsAt_run config limit inputs
  case exitCode =>
    intro arguments
    by_cases hnone : Batch.issueCount pool.reports = 0
    · simp [Command.Output.ofReports, hnone]
    · simp [Command.Output.ofReports, hnone, Nat.pos_of_ne_zero hnone]
  case execute =>
    rintro arguments lookup hjobs hconfig rfl rfl hcase
    rw [Command.execute_eq_ofReports hjobs hconfig]
    rcases hcase with hlimit | ⟨hone, horder⟩
    · rw [hlimit, Batch.run_none, hall hlimit]
    · rw [hinOrder hone horder]

end

/-- Two workers are busy when there are enough issues, and both finish their files. The third file
is skipped. One worker alone would have skipped the second as well. -/
theorem concludes_of_race :
    let config : Config := ⟨[(Rule.newlineAtEndOfFile.key, .empty)], .default⟩
    let inputs := ["a.xml", "b.xml", "c.xml"].map (InputFile.ofText · "<a/>")
    let schedule : List (Fin 2 × Fin 3) :=
      [(0, 0), (1, 1), (0, 0), (1, 1), (1, 1), (0, 0), (0, 0), (0, 2), (1, 1)]
    ∃ pool, run (some 1) inputs.get (start config) schedule = some pool ∧ pool.Done ∧
      Concludes config (some 1) inputs schedule pool ∧
      pool.reports.map (·.uri) = ["a.xml", "b.xml"] ∧
      (Batch.run config (some 1) inputs).map (·.uri) = ["a.xml"] := by
  intro config inputs schedule
  have hfacts : (run (some 1) inputs.get (start config) schedule).map
      (fun pool ↦ (decide pool.Done, pool.reports.map (·.uri))) =
        some (true, ["a.xml", "b.xml"]) := by decide +kernel
  obtain ⟨pool, hrun, hpool⟩ := Option.map_eq_some_iff.1 hfacts
  obtain ⟨hdone, huris⟩ := Prod.mk.inj hpool
  have hdone := of_decide_eq_true hdone
  exact ⟨pool, hrun, hdone, (concludes_of_run hrun).2 hdone, huris, by decide +kernel⟩

end Pool

end XmlInspect
