import XmlInspect.Report.Basic

/-!
# Many files

Files are analysed in turn until enough issues were found. The limit is looked at after each file,
so a file that is started is always finished, and one file is analysed even if the limit is zero.
-/

namespace XmlInspect.Batch

/-- How far a run is. -/
structure Progress where
  /-- The number of issues so far. -/
  found : Nat
  /-- No further file is to be started. -/
  cancelled : Bool
  deriving DecidableEq, Repr

namespace Progress

/-- Before the first file. -/
def start : Progress := ⟨0, false⟩

/-- After a file with so many issues. -/
def add (limit : Option Nat) (count : Nat) (progress : Progress) : Progress :=
  let found := progress.found + count
  ⟨found, progress.cancelled || limit.any (· ≤ found)⟩

end Progress

variable [EastAsianDecoder]

/-- Analyses files in turn. Gives the reports of those that were not skipped. -/
def runFrom (limit : Option Nat) : Progress → Analyzer → List InputFile → List FileReport
  | _, _, [] => []
  | progress, analyzer, input :: inputs =>
    if progress.cancelled then
      runFrom limit progress analyzer inputs
    else
      let (findings, outcome, next) := analyzer.analyze input
      .ofFindings input.uri findings :: runFrom limit (progress.add limit outcome.issueCount) next inputs

/-- Analyses files in turn, up to a limit of issues if there is one. -/
def run [PatternEngine] (config : Config) (limit : Option Nat) (inputs : List InputFile) :
    List FileReport :=
  runFrom limit .start (.ofConfig config .full) inputs

/-- The number of issues in all. -/
def issueCount (reports : List FileReport) : Nat := (reports.flatMap (·.issues)).length

end XmlInspect.Batch
