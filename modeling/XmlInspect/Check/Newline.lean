import XmlInspect.Check.Basic
import XmlInspect.Tree.Mixed
import XmlInspect.Tree.Walk

/-!
# Elements on lines of their own

Child elements start on a line of their own, and so does the closing tag of an element that has
some. Mixed content is left alone. A line on which more than one thing is wrong is reported once,
for the first of them; the lines reported so far are remembered while a file is looked at.
-/

namespace XmlInspect.NewlineCheck

def rule : String := "NewlineCheck"

def elementMessage : String := "Put this element on a separate line."

def closingMessage : String := "Put this closing tag on a separate line."

variable (document : Document)

/-- Something that should be on a line of its own: where it stands, and what is said about it. -/
abbrev Violation := TextRange × String

/-- The violation of a tag that starts on the line on which something before it ends. -/
def violation? (before tag : Option TextRange) (message : String) : Option Violation :=
  match before, tag with
  | some before, some tag =>
    if tag.start.line = before.stop.line then some (tag, message) else none
  | _, _ => none

/-- The violations among the child elements of an element: each of them after the one before it. -/
def siblingViolations : List NodeId → List Violation
  | first :: second :: rest =>
    (violation? (document.range? first .whole) (document.range? second .opening)
      elementMessage).toList ++ siblingViolations (second :: rest)
  | _ => []

/-- The violations directly inside an element. -/
def violationsAt (id : NodeId) : List Violation :=
  let children := document.tree.elementChildren id
  match children.head?, children.getLast?, document.range? id .opening, document.range? id .closing with
  | some first, some last, some opening, some closing =>
    if document.tree.inMixedContent id then
      []
    else
      (violation? opening (document.range? first .opening) elementMessage).toList
        ++ siblingViolations document children
        ++ (violation? (document.range? last .whole) closing closingMessage).toList
  | _, _, _, _ => []

/-- The violations of a document, in the order in which a walk meets their elements. -/
def violations : List Violation :=
  document.tree.events.flatMap fun
    | .enter id => violationsAt document id
    | _ => []

/-- The issues of some violations, given the lines that were reported before, and the lines that
are reported after. -/
def issuesOf (reported : List Nat) : List Violation → List Issue × List Nat
  | [] => ([], reported)
  | (range, message) :: violations =>
    if reported.contains range.start.line then
      issuesOf reported violations
    else
      let (issues, reported) := issuesOf (range.start.line :: reported) violations
      (Issue.located rule range message :: issues, reported)

def check : Check where
  rule := rule
  State := List Nat
  state := []
  startFile _ := []
  scan file _ reported :=
    let (issues, reported) := issuesOf reported (violations file.document)
    (.found issues, reported)
  endFile _ := []

end XmlInspect.NewlineCheck
