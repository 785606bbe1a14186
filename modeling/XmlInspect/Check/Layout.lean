import XmlInspect.Check.Basic

/-!
# Rules on the text of a file

Three rules that look at the characters of a file and not at its tree: nothing stands before the
XML declaration, lines hold no tabs, and the last line is terminated.
-/

namespace XmlInspect

/-! ## Text before the declaration -/

namespace PrologCheck

def rule : String := "CharBeforePrologCheck"

def message : String := "Remove all characters located before \"<?xml\"."

/-- The issues of a file. -/
def issues (file : XmlFile) : List Issue :=
  match file.document.prolog with
  | some prolog =>
    if file.source.hasPreamble then [Issue.located rule prolog.range message] else []
  | none => []

def check : Check := .stateless rule fun file _ ↦ .found (issues file)

end PrologCheck

/-! ## Unterminated last lines -/

namespace EndOfFileCheck

def rule : String := "NewlineAtEndOfFileCheck"

def message : String := "Add a new line at the end of this file."

/-- Whether a text ends in the middle of a line. -/
def endsInLine (content : List Char) : Bool :=
  match content.getLast? with
  | some c => c != '\n' && c != '\r'
  | none => false

/-- The issues of a file. -/
def issues (file : XmlFile) : List Issue :=
  if endsInLine file.source.content then [Issue.aboutFile rule message] else []

def check : Check := .stateless rule fun file _ ↦ .found (issues file)

end EndOfFileCheck

/-! ## Tabs -/

namespace TabCheck

def rule : String := "TabCharacterCheck"

def message : String := "Replace all tab characters in this file by sequences of white-spaces."

/-- How many places one issue shows at most. -/
def maxLocations : Nat := 21

/-- The runs of tabs in a line, by their first column and the column after them. The line goes on
at `column`, and a run that started at `start` may go on with it. -/
def runsFrom (column : Nat) (start : Option Nat) : List Char → List (Nat × Nat)
  | [] =>
    match start with
    | some start => [(start, column)]
    | none => []
  | c :: rest =>
    if c = '\t' then
      runsFrom (column + 1) (some (start.getD column)) rest
    else
      match start with
      | some start => (start, column) :: runsFrom (column + 1) none rest
      | none => runsFrom (column + 1) none rest

/-- The runs of tabs in a file, in order, with their lines. -/
def runs (lines : List (List Char)) : List (Nat × Nat × Nat) :=
  lines.zipIdx.flatMap fun (line, index) ↦
    (runsFrom 0 none line).map fun (start, stop) ↦ (index + 1, start, stop)

/-- The message, which counts the runs that are not shown. -/
def messageFor (count : Nat) : String :=
  if maxLocations < count then s!"{message} ({count - maxLocations} more)" else message

/-- The issues of a file. -/
def issues (source : Source) : Except InvalidRange (List Issue) := do
  let runs := runs source.lines
  let places ← (runs.take maxLocations).mapM fun (line, start, stop) ↦
    source.lineRange line start stop
  match places with
  | [] => return []
  | first :: others =>
    return [{ Issue.located rule first (messageFor runs.length) with
      secondary := others.map fun range ↦ ⟨range, none⟩ }]

def check : Check := .stateless rule fun file _ ↦
  match issues file.source with
  | .ok issues => .found issues
  | .error fault => .failed (.invalidRange fault)

end TabCheck

end XmlInspect
