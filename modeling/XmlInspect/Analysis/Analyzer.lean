import XmlInspect.Analysis.Input
import XmlInspect.Check.Registry

/-!
# Analysing files

An analyzer runs its checks over one file after the other. A file is parsed first, and only one
that can be parsed is checked. A check that fails is skipped and takes its issues with it; the others
are not touched by that. The stages that a file goes through are recorded.

What comes of a file goes two ways: issues and errors are for the host that asked for the analysis,
which may not want all of them, and the outcome sums up.
-/

namespace XmlInspect

/-- How far the analysis of a file is. -/
inductive Stage where
  /-- No file is being analysed. -/
  | idle
  | parsing
  | parseFailed
  | parsed
  | checking
  | done
  deriving DecidableEq, Repr

/-- What the host can deal with. -/
structure Capabilities where
  /-- It wants to know of files that cannot be read or parsed. -/
  analysisErrors : Bool
  /-- It can show the supporting places of an issue. -/
  secondaryLocations : Bool
  deriving DecidableEq, Repr

/-- A host that can deal with everything. -/
def Capabilities.full : Capabilities := ⟨true, true⟩

/-- What the host is told about a file. -/
structure Findings where
  issues : List Issue
  errors : List Error

/-- How the analysis of a file went. -/
structure Outcome where
  /-- The last stage. -/
  stage : Stage
  /-- How many issues the host was told. -/
  issueCount : Nat
  /-- The rules whose checks failed, in order. -/
  failedChecks : List String
  /-- All stages, in order. -/
  stages : List Stage
  deriving DecidableEq, Repr

/-- The checks to be run over files, and all that goes with them. -/
structure Analyzer where
  checks : List Check
  /-- Why some rules are not applied. -/
  setupErrors : List Error
  settings : Settings
  capabilities : Capabilities
  /-- Whether a file that cannot be parsed gives an issue. -/
  reportsParseErrors : Bool
  stage : Stage
  /-- The stages of the current file so far, the last one first. -/
  visited : List Stage

namespace Analyzer

/-! ## Setting up -/

/-- The analyzer of a configuration. -/
def ofConfig [PatternEngine] (config : Config) (capabilities : Capabilities) : Analyzer :=
  ⟨config.checks, config.setupErrors, config.settings, capabilities,
    config.enables Rule.parsingError.key, .idle, []⟩

variable (analyzer : Analyzer)

/-- The rules whose checks are run, in order. -/
def rules : List String := analyzer.checks.map (·.rule)

/-! ## Stages -/

/-- Goes on to a stage. -/
def enter (stage : Stage) : Analyzer :=
  { analyzer with stage, visited := stage :: analyzer.visited }

/-- Ends with a file in a stage. -/
def finish (stage : Stage) (issueCount : Nat) (failedChecks : List String) : Outcome × Analyzer :=
  let last := analyzer.enter stage
  (⟨stage, issueCount, failedChecks, last.visited.reverse⟩, { last with stage := .idle, visited := [] })

/-! ## Files that cannot be parsed -/

/-- The errors as far as the host wants them. -/
def announce (error : Error) : List Error :=
  if analyzer.capabilities.analysisErrors then [error] else []

/-- The issue of a file that cannot be parsed: at the whole line of the fault, if it has one. -/
def parseErrorIssue (source : Source) (error : Error) : Issue :=
  let message := "Parse error: " ++ error.message
  match error with
  | .malformed line _ =>
    let length := (source.lines[line - 1]?.map List.length).getD 0
    match source.lineRange line 0 length with
    | .ok range => Issue.located Rule.parsingError.key range message
    | .error _ => Issue.aboutFile Rule.parsingError.key message
  | _ => Issue.aboutFile Rule.parsingError.key message

/-! ## Checks -/

/-- The issues as far as the host wants them. -/
def presented (issues : List Issue) : List Issue :=
  if analyzer.capabilities.secondaryLocations then issues else issues.map Issue.withoutSecondary

/-- Runs checks over a file. Gives their issues, the rules that failed, and the checks in their new
states. -/
def runChecks (file : XmlFile) (settings : Settings) :
    List Check → List Issue × List String × List Check
  | [] => ([], [], [])
  | check :: checks =>
    let (result, next) := check.run file settings
    let (issues, failed, checks) := runChecks file settings checks
    match result with
    | .found found => (found ++ issues, failed, next :: checks)
    | .failed _ => (issues, check.rule :: failed, next :: checks)

/-! ## Analysing -/

/-- Analyses a file that could be read. -/
def analyzeSource (source : Source) : Findings × Outcome × Analyzer :=
  match XmlFile.parse source with
  | .error error =>
    let issues := if analyzer.reportsParseErrors then [parseErrorIssue source error] else []
    (⟨issues, analyzer.announce error⟩, analyzer.finish .parseFailed issues.length [])
  | .ok file =>
    let (issues, failed, checks) := runChecks file analyzer.settings analyzer.checks
    let analyzer := { (analyzer.enter .parsed).enter .checking with checks }
    let issues := analyzer.presented issues
    (⟨issues, []⟩, analyzer.finish .done issues.length failed)

/-- Analyses a file. Gives what the host is told, the outcome and the analyzer after it. -/
def analyze [EastAsianDecoder] (input : InputFile) : Findings × Outcome × Analyzer :=
  let analyzer := analyzer.enter .parsing
  match input.read with
  | .error error => (⟨[], analyzer.announce error⟩, analyzer.finish .parseFailed 0 [])
  | .ok source => analyzer.analyzeSource source

/-- Analyses files one after the other. -/
def analyzeAll [EastAsianDecoder] : Analyzer → List InputFile → List (Findings × Outcome) × Analyzer
  | analyzer, [] => ([], analyzer)
  | analyzer, input :: inputs =>
    let (findings, outcome, next) := analyzer.analyze input
    let (results, last) := analyzeAll next inputs
    ((findings, outcome) :: results, last)

end Analyzer

end XmlInspect
