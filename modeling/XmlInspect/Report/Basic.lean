import XmlInspect.Analysis.Analyzer
import XmlInspect.Report.Element

/-!
# Reports

What was found in several files, written as XML or as lines of text.
-/

namespace XmlInspect

/-- The name of the program. -/
def programName : String := "xmlcheck"

/-- The version of the program. -/
def programVersion : String := "0.1.0"

/-- What was found in one file. -/
structure FileReport where
  uri : String
  issues : List Issue
  /-- What kept the file from being analysed. -/
  errors : List String
  deriving DecidableEq

namespace FileReport

/-- The report of what the host was told. -/
def ofFindings (uri : String) (findings : Findings) : FileReport :=
  ⟨uri, findings.issues, findings.errors.map Error.message⟩

/-- Whether there is nothing to say about the file. -/
def isClean (report : FileReport) : Bool := report.issues.isEmpty && report.errors.isEmpty

end FileReport

namespace Report

/-! ## As XML -/

/-- How a report is laid out, and what is in it. -/
structure Style where
  indent : Indent
  /-- Whether files are listed about which there is nothing to say. -/
  includesClean : Bool

/-- Two spaces on each level, and all files. -/
def Style.default : Style := ⟨.spaces 2, true⟩

/-- All on one line, and all files. -/
def Style.compact : Style := ⟨none, true⟩

/-- Where a range starts and ends. -/
def rangeAttributes (range : TextRange) : List (String × String) :=
  [("line", toString range.start.line), ("column", toString range.start.column),
    ("endLine", toString range.stop.line), ("endColumn", toString range.stop.column)]

/-- A supporting place. -/
def locationElement (location : SecondaryLocation) : Element :=
  match location.label with
  | some label => .text "location" (rangeAttributes location.range) label
  | none => .empty "location" (rangeAttributes location.range)

def issueElement (issue : Issue) : Element :=
  .group "issue" (("rule", issue.rule) :: (issue.range.map rangeAttributes).getD [])
    (.text "message" [] issue.message :: issue.secondary.map locationElement)

def fileElement (report : FileReport) : Element :=
  if report.isClean then
    .empty "file" [("uri", report.uri)]
  else
    .group "file" [("uri", report.uri)]
      (report.errors.map (.text "error" []) ++ report.issues.map issueElement)

/-- The files that are listed. -/
def listed (style : Style) (reports : List FileReport) : List FileReport :=
  if style.includesClean then reports else reports.filter (!·.isClean)

/-- The outermost element of a report. -/
def rootElement (style : Style) (reports : List FileReport) : Element :=
  .group programName [("version", programVersion)] ((listed style reports).map fileElement)

/-- The declaration, followed by an empty line unless all is on one line. -/
def declaration (indent : Indent) : List Char :=
  "<?xml version=\"1.0\" encoding=\"UTF-8\"?>".toList ++ if indent.isSome then ['\n'] else []

/-- A report as XML. -/
def write (style : Style) (reports : List FileReport) : List Char :=
  declaration style.indent ++ (rootElement style reports).write style.indent 0

/-! ## As text -/

/-- An issue in a line of its own, headed by its file. -/
def issueLine (uri : String) (issue : Issue) : String :=
  match issue.range with
  | some _ => s!"{uri}:{issue.display}\n"
  | none => s!"{uri}: {issue.display}\n"

/-- What was found in a file, a line each. -/
def fileLines (report : FileReport) : List String :=
  (report.errors.map fun error ↦ s!"{report.uri}: error: {error}\n")
    ++ report.issues.map (issueLine report.uri)

/-- A report as lines of text. -/
def writeLines (reports : List FileReport) : String := String.join (reports.flatMap fileLines)

end Report

end XmlInspect
