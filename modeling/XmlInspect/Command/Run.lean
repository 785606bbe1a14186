import XmlInspect.Analysis.Batch
import XmlInspect.Command.Arguments
import XmlInspect.Command.FileTree
import XmlInspect.Config.Toml

/-!
# Running the program

What the program prints and how it ends, given its arguments and a way to look at files. It ends
with one if an issue was found, with zero if not, and with two if it was not run as it should be.

The number of jobs has no influence on what is printed, other than that there has to be one.
-/

namespace XmlInspect.Command

/-- What a run leaves behind. -/
structure Output where
  exitCode : Nat
  stdout : String
  deriving DecidableEq, Repr

/-- The run was not as it should be. -/
def Output.refused : Output := ⟨2, ""⟩

/-- A file that a path leads to. -/
def inputAt (lookup : Lookup) (path : String) (charset : Option Charset) : InputFile :=
  ⟨path, charset, (lookup.bytes path).mapError fun fault ↦ .io fault.message⟩

/-- Reads a configuration file. -/
def readConfig? [EastAsianDecoder] (lookup : Lookup) (path : String) : Option Config := do
  let bytes ← (lookup.bytes path).toOption
  let text ← (Charset.utf8.decode bytes).toOption
  Config.ofData? (← Toml.read? text)

/-- The configuration that the arguments name. -/
def configOf? [EastAsianDecoder] (arguments : Arguments) (lookup : Lookup) : Option Config :=
  match arguments.config with
  | some path => readConfig? lookup path
  | none => some .allRules

/-- The extensions of the files to be looked for in directories. -/
def extensionsOf (arguments : Arguments) : List String :=
  "xml" :: arguments.extensions.map fun extension ↦
    String.ofList (extension.toList.dropWhile (· == '.'))

/-- The paths to look at. -/
def pathsOf (arguments : Arguments) : List String :=
  if arguments.paths.isEmpty then ["."] else arguments.paths

/-- The files to be analysed, in order. -/
def inputsOf (arguments : Arguments) (lookup : Lookup) : List InputFile :=
  let accepts := hasExtension (extensionsOf arguments)
  (pathsOf arguments).flatMap fun path ↦
    (filesAt lookup accepts path).map fun (uri, bytes) ↦ ⟨uri, none, .ok bytes⟩

/-- The layout of an XML report. -/
def styleOf (arguments : Arguments) : Report.Style :=
  ⟨if arguments.compact then none else Report.Style.default.indent, !arguments.failuresOnly⟩

/-- What is printed. -/
def print (arguments : Arguments) (reports : List FileReport) : String :=
  match arguments.format.getD .text with
  | .text => Report.writeLines reports
  | .xml => String.ofList (Report.write (styleOf arguments) reports ++ ['\n'])

/-- What is left behind when there are these reports. -/
def Output.ofReports (arguments : Arguments) (reports : List FileReport) : Output :=
  ⟨if Batch.issueCount reports = 0 then 0 else 1, print arguments reports⟩

variable [EastAsianDecoder] [PatternEngine]

/-- Analyses the files that the arguments name. -/
def execute (arguments : Arguments) (lookup : Lookup) : Output :=
  if arguments.jobs = some 0 then
    .refused
  else
    match configOf? arguments lookup with
    | none => .refused
    | some config =>
      .ofReports arguments (Batch.run config arguments.maxIssues (inputsOf arguments lookup))

/-- Runs the program. -/
def run (arguments : List String) (lookup : Lookup) : Output :=
  match Invocation.ofArguments arguments with
  | .run arguments => execute arguments lookup
  | .version => ⟨0, s!"{programName} {programVersion}\n"⟩
  | .help => ⟨0, s!"Usage: {programName} [OPTIONS] [PATH]...\n"⟩
  | .refused => .refused

end XmlInspect.Command
