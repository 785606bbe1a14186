import XmlInspect.Text.Position

/-!
# Issues

What a rule has to say about a file: a message for its user, about a place or about the file as a
whole, with further places that support it.
-/

namespace XmlInspect

/-- A supporting place. -/
structure SecondaryLocation where
  range : TextRange
  /-- A few words to be shown with it. -/
  label : Option String
  deriving DecidableEq

/-- Something that a rule found. -/
structure Issue where
  rule : String
  message : String
  /-- The place, unless the issue is about the file as a whole. -/
  range : Option TextRange
  secondary : List SecondaryLocation
  deriving DecidableEq

namespace Issue

/-- An issue at a place. -/
def located (rule : String) (range : TextRange) (message : String) : Issue :=
  ⟨rule, message, some range, []⟩

/-- An issue about a file as a whole. -/
def aboutFile (rule message : String) : Issue := ⟨rule, message, none, []⟩

variable (issue : Issue)

/-- The issue without its supporting places. -/
def withoutSecondary : Issue := { issue with secondary := [] }

/-- The issue in one line, headed by where its place starts. -/
def display : String :=
  match issue.range with
  | some range =>
    s!"{range.start.line}:{range.start.column}: [{issue.rule}] {issue.message}"
  | none => s!"[{issue.rule}] {issue.message}"

end Issue

end XmlInspect
