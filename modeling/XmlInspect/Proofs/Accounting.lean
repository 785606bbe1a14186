import Mathlib.Data.List.InsertIdx
import XmlInspect.Analysis.Analyzer
import XmlInspect.Proofs.Located

/-!
# What comes of a file

An analysis ends in one of two ways. A file that cannot be read or parsed is *refused*: no check
sees it, and there is at most one error and one issue to be told. Any other file is *examined*:
every check looks at it once, and what the host is told is what the checks found, one after the
other. A check that fails has no part in this, whatever it had reported by then. It is named in the
outcome, and that is the only trace it leaves: the others find what they find without it.

Nothing is asked of the checks. Each of them is a machine with a state of its own. It may break down
when it is told that a file starts, report some issues and then return an error or break down, or
break down when it is told that the file ended. Only a check that gets through all this has
*completed* the file. An analyzer may have been through any number of files before.
-/

namespace XmlInspect

/-! ## One check -/

namespace Check

/-- The issues that a check finds in a file, unless it fails there. -/
def found? (check : Check) (file : XmlFile) (settings : Settings) : Option (List Issue) :=
  match (check.run file settings).1 with
  | .found issues => some issues
  | .failed _ => none

def fails (check : Check) (file : XmlFile) (settings : Settings) : Bool :=
  (check.found? file settings).isNone

/-- The check gets through a file and reports these issues. -/
structure Completes (check : Check) (file : XmlFile) (settings : Settings) (issues : List Issue) :
    Prop where
  startPanic? : check.startPanic? check.state = none
  scan : (check.scan file settings (check.startFile check.state)).1 = .found issues
  endPanic? : check.endPanic? (check.scan file settings (check.startFile check.state)).2 = none

variable {check : Check} {file : XmlFile} {settings : Settings} {issues : List Issue}

private theorem finish_fst_eq_found_iff {state : check.State} {result : CheckResult} :
    (check.finish state result).1 = .found issues ↔
      result = .found issues ∧ check.endPanic? state = none := by
  rw [finish]
  cases check.endPanic? state <;> simp

private theorem run_fst_eq_found_iff :
    (check.run file settings).1 = .found issues ↔ check.Completes file settings issues := by
  rw [run]
  cases hstart : check.startPanic? check.state with
  | some panic =>
    refine iff_of_false (fun h ↦ ?_) fun h ↦ ?_
    · cases h
    · cases hstart.symm.trans h.startPanic?
  | none =>
    cases hscan : check.scan file settings (check.startFile check.state) with
    | mk result state =>
      have hiff : check.Completes file settings issues ↔
          result = .found issues ∧ check.endPanic? state = none := by
        constructor
        · rintro ⟨-, hresult, hend⟩
          rw [hscan] at hresult hend
          exact ⟨hresult, hend⟩
        · rintro ⟨hresult, hend⟩
          exact ⟨hstart, by rw [hscan]; exact hresult, by rw [hscan]; exact hend⟩
      rw [hiff]
      -- What was reported before a failure is dropped, whatever comes of the end of the file.
      cases result with
      | found found => simp [finish_fst_eq_found_iff]
      | failed error reported => simp [finish_fst_eq_found_iff]
      | panicked panic reported => simp

/-- A check finds what it reported if it gets through the file, and otherwise nothing. -/
theorem found?_eq_some_iff :
    check.found? file settings = some issues ↔ check.Completes file settings issues := by
  rw [← run_fst_eq_found_iff, found?]
  cases (check.run file settings).1 <;> simp

theorem found?_congr {other : Check} {file' : XmlFile}
    (h : ∀ issues, check.Completes file settings issues ↔ other.Completes file' settings issues) :
    check.found? file settings = other.found? file' settings :=
  Option.ext fun issues ↦ by rw [found?_eq_some_iff, found?_eq_some_iff, h]

end Check

/-! ## All checks -/

namespace Analyzer

/-- The analyzer with other checks. -/
def running (analyzer : Analyzer) (checks : List Check) : Analyzer := { analyzer with checks }

theorem runChecks_eq (file : XmlFile) (settings : Settings) (checks : List Check) :
    runChecks file settings checks =
      (checks.flatMap fun check ↦ (check.found? file settings).getD [],
        (checks.filter fun check ↦ check.fails file settings).map (·.rule),
        checks.map fun check ↦ (check.run file settings).2) := by
  induction checks with
  | nil => rfl
  | cons check checks ih =>
    rw [runChecks, ih]
    cases hresult : (check.run file settings).1 <;>
      simp [Check.found?, Check.fails, hresult]

/-- The issue of a file that cannot be parsed goes by the name of the rule that asks for it. -/
theorem rule_parseErrorIssue (source : Source) (error : Error) :
    (parseErrorIssue source error).rule = Rule.parsingError.key := by
  cases error with
  | malformed line fault =>
    unfold parseErrorIssue
    dsimp only
    split <;> rfl
  | _ => rfl

section Without

variable {α : Type*} {β : Type} {p : α → Bool} {l : List α} {i : Nat} {a : α}

theorem eraseIdx_append_length (front rest : List α) (a : α) :
    (front ++ a :: rest).eraseIdx front.length = front ++ rest := by
  rw [List.eraseIdx_append_of_length_le (Nat.le_refl _), Nat.sub_self, List.eraseIdx_zero,
    List.tail_cons]

private theorem filter_eraseIdx (ha : l[i]? = some a) (hp : p a = true) :
    (l.filter p)[(l.take i).countP p]? = some a ∧
      (l.eraseIdx i).filter p = (l.filter p).eraseIdx ((l.take i).countP p) := by
  obtain ⟨front, rest, rfl, rfl⟩ := exists_append_of_getElem? ha
  rw [List.take_left, List.countP_eq_length_filter, List.filter_append, List.filter_cons_of_pos hp,
    eraseIdx_append_length, eraseIdx_append_length, List.filter_append]
  refine ⟨?_, rfl⟩
  rw [List.getElem?_append_right (Nat.le_refl _), Nat.sub_self, List.getElem?_cons_zero]

private theorem flatMap_eraseIdx {f : α → List β} (ha : l[i]? = some a) (hf : f a = []) :
    (l.eraseIdx i).flatMap f = l.flatMap f := by
  obtain ⟨front, rest, rfl, rfl⟩ := exists_append_of_getElem? ha
  rw [eraseIdx_append_length, List.flatMap_append, List.flatMap_append, List.flatMap_cons, hf,
    List.nil_append]

end Without

/-- No file is being analysed, and nothing is left of the one before. -/
structure Rests (analyzer : Analyzer) : Prop where
  stage : analyzer.stage = .idle
  visited : analyzer.visited = []

end Analyzer

section

variable [EastAsianDecoder]

/-- The file that the checks get to see, or why there is none. -/
def InputFile.parse (input : InputFile) : Except Error XmlFile := input.read >>= XmlFile.parse

namespace Analyzer

variable {analyzer : Analyzer} {input : InputFile} {file : XmlFile} {error : Error}

/-! ## The two ends of an analysis -/

/-- A file that cannot be read or parsed ends the analysis, whatever the checks are. -/
theorem analyze_of_error (analyzer : Analyzer) (h : input.parse = .error error) :
    ∃ issues : List Issue,
      (issues = [] ∨ ∃ issue, issues = [issue] ∧ issue.rule = Rule.parsingError.key) ∧
      ∀ checks, (analyzer.running checks).analyze input =
        (⟨issues, if analyzer.capabilities.analysisErrors then [error] else []⟩,
          ⟨.parseFailed, issues.length, [], analyzer.visited.reverse ++ [.parsing, .parseFailed]⟩,
          { analyzer.running checks with stage := .idle, visited := [] }) := by
  have hstages : (Stage.parseFailed :: .parsing :: analyzer.visited).reverse =
      analyzer.visited.reverse ++ [.parsing, .parseFailed] := by simp
  cases hread : input.read with
  | error fault =>
    rw [InputFile.parse, hread] at h
    cases h
    refine ⟨[], .inl rfl, fun checks ↦ ?_⟩
    rw [← hstages, analyze]
    simp only [hread]
    rfl
  | ok source =>
    have hparse : XmlFile.parse source = .error error := by
      rwa [InputFile.parse, hread] at h
    refine ⟨if analyzer.reportsParseErrors then [parseErrorIssue source error] else [], ?_,
      fun checks ↦ ?_⟩
    · split
      · exact .inr ⟨_, rfl, rule_parseErrorIssue source error⟩
      · exact .inl rfl
    · rw [← hstages, analyze]
      simp only [hread, analyzeSource, hparse]
      rfl

theorem analyze_of_ok (analyzer : Analyzer) (h : input.parse = .ok file) :
    analyzer.analyze input =
      let found := analyzer.checks.flatMap fun check ↦
        (check.found? file analyzer.settings).getD []
      let issues := if analyzer.capabilities.secondaryLocations then found
        else found.map Issue.withoutSecondary
      (⟨issues, []⟩,
        ⟨.done, issues.length,
          (analyzer.checks.filter fun check ↦ check.fails file analyzer.settings).map (·.rule),
          analyzer.visited.reverse ++ [.parsing, .parsed, .checking, .done]⟩,
        { analyzer.running (analyzer.checks.map fun check ↦
            (check.run file analyzer.settings).2) with stage := .idle, visited := [] }) := by
  have hstages : (Stage.done :: .checking :: .parsed :: .parsing :: analyzer.visited).reverse =
      analyzer.visited.reverse ++ [.parsing, .parsed, .checking, .done] := by simp
  obtain ⟨source, hread, hparse⟩ := bind_eq_ok_iff.1 h
  rw [← hstages, analyze]
  simp only [hread, analyzeSource, hparse, runChecks_eq]
  rfl

/-! ## Accounts -/

/-- The analysis of a file that cannot be read or parsed. -/
structure Refuses (analyzer : Analyzer) (input : InputFile) (error : Error) : Prop where
  stage : (analyzer.analyze input).2.1.stage = .parseFailed
  stages : (analyzer.analyze input).2.1.stages = [.parsing, .parseFailed]
  failedChecks : (analyzer.analyze input).2.1.failedChecks = []
  /-- The error is told if the host wants to know of it. -/
  errors : (analyzer.analyze input).1.errors =
    if analyzer.capabilities.analysisErrors then [error] else []
  issues : (analyzer.analyze input).1.issues = [] ∨
    ∃ issue, (analyzer.analyze input).1.issues = [issue] ∧ issue.rule = Rule.parsingError.key
  /-- No check runs: with others in their place the analysis is the same, and they stay as they
  are. -/
  unchecked : ∀ checks, (analyzer.running checks).analyze input =
    ((analyzer.analyze input).1, (analyzer.analyze input).2.1,
      (analyzer.analyze input).2.2.running checks)

/-- How many of the checks before a place fail, which is the place of the next one among those that
fail. -/
def failuresBefore (analyzer : Analyzer) (file : XmlFile) (i : Nat) : Nat :=
  (analyzer.checks.take i).countP fun check ↦ check.fails file analyzer.settings

/-- The analysis of a file that the checks look at. -/
structure Examines (analyzer : Analyzer) (input : InputFile) (file : XmlFile) : Prop where
  stage : (analyzer.analyze input).2.1.stage = .done
  stages : (analyzer.analyze input).2.1.stages = [.parsing, .parsed, .checking, .done]
  errors : (analyzer.analyze input).1.errors = []
  /-- What counts as found is what was reported by a check that completed the file. -/
  completes : ∀ check ∈ analyzer.checks, ∀ issues,
    check.found? file analyzer.settings = some issues ↔
      check.Completes file analyzer.settings issues
  /-- The host is told what was found by those that did not fail, check by check. -/
  issues : (analyzer.analyze input).1.issues =
    let found := analyzer.checks.flatMap fun check ↦ (check.found? file analyzer.settings).getD []
    if analyzer.capabilities.secondaryLocations then found else found.map Issue.withoutSecondary
  failedChecks : (analyzer.analyze input).2.1.failedChecks =
    (analyzer.checks.filter fun check ↦ check.fails file analyzer.settings).map (·.rule)
  /-- Every check has looked at the file once. -/
  checks : (analyzer.analyze input).2.2.checks =
    analyzer.checks.map fun check ↦ (check.run file analyzer.settings).2
  /-- Without a check that fails, its name is missing among the failures, and all else is the
  same. -/
  without : ∀ i check, analyzer.checks[i]? = some check → check.fails file analyzer.settings →
    (analyzer.analyze input).2.1.failedChecks[analyzer.failuresBefore file i]? = some check.rule ∧
    (analyzer.running (analyzer.checks.eraseIdx i)).analyze input =
      ((analyzer.analyze input).1,
        { (analyzer.analyze input).2.1 with
          failedChecks :=
            (analyzer.analyze input).2.1.failedChecks.eraseIdx (analyzer.failuresBefore file i) },
        (analyzer.analyze input).2.2.running
          ((analyzer.analyze input).2.2.checks.eraseIdx i))

/-- The analysis of a file accounts for what it tells. -/
structure Accounts (analyzer : Analyzer) (input : InputFile) : Prop where
  idle : (analyzer.analyze input).2.2.stage = .idle
  issueCount : (analyzer.analyze input).2.1.issueCount = (analyzer.analyze input).1.issues.length
  refuses : ∀ error, input.parse = .error error → analyzer.Refuses input error
  examines : ∀ file, input.parse = .ok file → analyzer.Examines input file

/-! ## Between files -/

theorem rests_analyze (analyzer : Analyzer) (input : InputFile) :
    (analyzer.analyze input).2.2.Rests := by
  cases hparse : input.parse with
  | error error =>
    obtain ⟨issues, -, hanalyze⟩ := analyze_of_error analyzer hparse
    rw [show analyzer.analyze input = _ from hanalyze analyzer.checks]
    exact ⟨rfl, rfl⟩
  | ok file =>
    rw [analyze_of_ok analyzer hparse]
    exact ⟨rfl, rfl⟩

theorem issueCount_analyze (analyzer : Analyzer) (input : InputFile) :
    (analyzer.analyze input).2.1.issueCount = (analyzer.analyze input).1.issues.length := by
  cases hparse : input.parse with
  | error error =>
    obtain ⟨issues, -, hanalyze⟩ := analyze_of_error analyzer hparse
    rw [show analyzer.analyze input = _ from hanalyze analyzer.checks]
  | ok file => rw [analyze_of_ok analyzer hparse]

theorem Rests.analyzeAll (h : analyzer.Rests) (inputs : List InputFile) :
    (analyzer.analyzeAll inputs).2.Rests := by
  induction inputs generalizing analyzer with
  | nil => exact h
  | cons input inputs ih => exact ih (rests_analyze analyzer input)

/-! ## Every analysis accounts for what it tells -/

theorem Rests.refuses (h : analyzer.Rests) (hparse : input.parse = .error error) :
    analyzer.Refuses input error := by
  obtain ⟨issues, hissues, hanalyze⟩ := analyze_of_error analyzer hparse
  rw [h.visited] at hanalyze
  have hself : analyzer.analyze input = _ := hanalyze analyzer.checks
  constructor
  case unchecked =>
    intro checks
    rw [hanalyze checks, hself]
    rfl
  all_goals rw [hself]
  case issues => exact hissues
  all_goals rfl

theorem Rests.examines (h : analyzer.Rests) (hparse : input.parse = .ok file) :
    analyzer.Examines input file := by
  have hself := analyze_of_ok analyzer hparse
  rw [h.visited] at hself
  constructor
  case without =>
    intro i check hcheck hfails
    -- The check has added nothing to the issues, only its name to the failures.
    have hnone : (check.found? file analyzer.settings).getD [] = [] := by
      rw [Option.isNone_iff_eq_none.1 hfails, Option.getD_none]
    have hfound : (analyzer.checks.eraseIdx i).flatMap
        (fun check ↦ (check.found? file analyzer.settings).getD []) = _ :=
      flatMap_eraseIdx hcheck hnone
    obtain ⟨hplace, herase⟩ := filter_eraseIdx
      (p := fun check : Check ↦ check.fails file analyzer.settings) hcheck hfails
    rw [hself]
    constructor
    · rw [List.getElem?_map]
      exact congrArg _ hplace
    · rw [analyze_of_ok _ hparse]
      simp only [running, h.visited, hfound, herase, failuresBefore, List.eraseIdx_map]
  case completes => exact fun check _ issues ↦ Check.found?_eq_some_iff
  all_goals rw [hself]
  all_goals rfl

end Analyzer

end

end XmlInspect
