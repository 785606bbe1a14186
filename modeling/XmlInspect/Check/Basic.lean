import XmlInspect.Config.Data
import XmlInspect.File
import XmlInspect.Issue

/-!
# Checks

A check looks at one file after the other and reports issues in them. It may keep a state from file
to file, and is told when a file starts and when it ends. While it looks at a file, the issues that
it reports are only collected. It may then still return an error or break down, and being told of
the start or the end may break it too. In all these cases the check has failed on the file, and what
was collected is dropped.

A check that breaks down is not told that the file ended, and goes on with whatever state it had.
-/

namespace XmlInspect

/-- How looking at a file ended, and what had been reported by then. -/
inductive ScanResult where
  | found (issues : List Issue)
  | failed (error : Error) (reported : List Issue := [])
  | panicked (panic : Panic) (reported : List Issue := [])

/-- What comes of a check on a file: its issues, or what is said about its failure. -/
inductive CheckResult where
  | found (issues : List Issue)
  | failed (message : String)
  deriving DecidableEq

/-- A rule that can be applied to files. -/
structure Check where
  /-- The name of the rule. -/
  rule : String
  /-- What is kept from file to file. -/
  State : Type
  state : State
  /-- What being told that a file starts makes of a state. -/
  startFile : State → State
  /-- Whether that breaks the check. -/
  startPanic? : State → Option Panic := fun _ ↦ none
  scan : XmlFile → Settings → State → ScanResult × State
  /-- What being told that a file ended makes of a state. -/
  endFile : State → State
  /-- Whether that breaks the check. -/
  endPanic? : State → Option Panic := fun _ ↦ none

namespace Check

/-- A check that keeps nothing from file to file. -/
def stateless (rule : String) (scan : XmlFile → Settings → ScanResult) : Check where
  rule := rule
  State := Unit
  state := ()
  startFile := id
  scan file settings _ := (scan file settings, ())
  endFile := id

variable (check : Check)

/-- Tells the check that a file ended. If that breaks it, nothing else comes of the file. -/
def finish (state : check.State) (result : CheckResult) : CheckResult × Check :=
  let ended := { check with state := check.endFile state }
  match check.endPanic? state with
  | some panic => (.failed panic.message, ended)
  | none => (result, ended)

/-- Runs the check on a file. Gives the result and the check in its new state. -/
def run (file : XmlFile) (settings : Settings) : CheckResult × Check :=
  let started := check.startFile check.state
  match check.startPanic? check.state with
  | some panic => (.failed panic.message, { check with state := started })
  | none =>
    match check.scan file settings started with
    | (.panicked panic _, state) => (.failed panic.message, { check with state })
    | (.failed error _, state) => check.finish state (.failed error.message)
    | (.found issues, state) => check.finish state (.found issues)

theorem run_stateless {rule : String} {scan : XmlFile → Settings → ScanResult} {file : XmlFile}
    {settings : Settings} {issues : List Issue} (h : scan file settings = .found issues) :
    ((stateless rule scan).run file settings).1 = .found issues := by
  simp only [run, stateless, finish, h]

end Check

end XmlInspect
