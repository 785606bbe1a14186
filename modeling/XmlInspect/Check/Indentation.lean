import XmlInspect.Check.Basic
import XmlInspect.Tree.Mixed

/-!
# Indentation

An element is indented by its depth times a fixed width. Only elements at the start of a line are
looked at. What is inside an element that stands wrong is not looked at any more, so one slip gives
one issue, and nothing inside mixed content is looked at either. A closing tag is looked at if the
element holds others and the tag starts its line, unless that line has an issue already.

What is still to be looked at is kept on a stack, where the closing tag of an element stands below
the elements in it.

Widths are words of 64 bits.
-/

namespace XmlInspect

/-- What elements are to be indented by. -/
structure Indentation where
  indentSize : Nat
  tabSize : Nat
  deriving DecidableEq, Repr

namespace Indentation

def rule : String := "IndentationCheck"

/-- Reads the two sizes, which are both two unless they are set. -/
def ofParams (params : RuleParams) : Except RuleFault Indentation := do
  let indentSize ← params.getNatural "indentSize" 2
  let tabSize ← params.getNatural "tabSize" 2
  return ⟨indentSize, tabSize⟩

variable (config : Indentation)

/-! ## Widths -/

/-- The width of some blanks. -/
def width (blanks : List Char) : Nat :=
  blanks.foldl (fun width c ↦ width + if c = '\t' then config.tabSize else 1) 0 % UInt64.size

/-- The width that a level calls for. -/
def expected (level : Nat) : Nat := level * config.indentSize % UInt64.size

def message (expected actual : Nat) : String :=
  s!"Make this line start after {expected} spaces instead of {actual} in order to indent the " ++
    s!"code consistently. (Indentation level is at {config.indentSize}.)"

/-- What stands after the last end of a line. -/
def lastLine? (text : List Char) : Option (List Char) :=
  if text.any Text.isLineEnd then
    some (text.reverse.takeWhile (!Text.isLineEnd ·)).reverse
  else
    none

/-- The text of a node that is all blank. -/
def blankText? (tree : Tree) (id : NodeId) : Option (List Char) :=
  match tree.kind? id with
  | some (.text content) => if content.toList.all Text.isBlank then some content.toList else none
  | _ => none

/-- Whether a place starts a line of the file. -/
def startsLine (source : Source) (range : TextRange) : Bool :=
  range.start.column == source.firstColumn range.start.line

/-! ## Tags that start a line -/

variable (file : XmlFile)

/-- How far an element is indented, if it starts a line. Before the first node of the document that
can be told only from its place. -/
def leading? (id : NodeId) : Option Nat :=
  let document := file.document
  match document.tree.previousSibling? id with
  | none => do
    let opening ← document.range? id .opening
    if startsLine file.source opening then some 0 else none
  | some previous => do
    let text ← blankText? document.tree previous
    match lastLine? text with
    | some blanks => some (config.width blanks)
    | none =>
      let range ← document.range? previous .whole
      if (document.tree.previousSibling? previous).isNone && startsLine file.source range then
        some (config.width text)
      else
        none

/-- How far a closing tag is indented, if it starts a line. -/
def closing? (id : NodeId) : Option Nat := do
  let tree := file.document.tree
  let last ← (tree.children id).getLast?
  let text ← blankText? tree last
  let blanks ← lastLine? text
  return config.width blanks

/-- How far something is indented, if that is not what its level calls for. -/
def wrong? (level : Nat) (actual : Option Nat) : Option Nat :=
  actual.filter (· != config.expected level)

/-- The issue of a tag on some level. -/
def issue (level actual : Nat) (range : TextRange) : Issue :=
  Issue.located rule range (config.message (config.expected level) actual)

/-! ## The walk -/

/-- What is still to be looked at: an element on some level and all that is in it, or only its
closing tag. -/
inductive Visit where
  | element (id : NodeId) (level : Nat)
  | closing (id : NodeId) (level : Nat)
  deriving DecidableEq, Repr

/-- What was found so far. -/
structure Record where
  issues : List Issue
  /-- The lines on which there are issues. -/
  lines : List Nat
  deriving DecidableEq

namespace Record

/-- Before anything was found. -/
def empty : Record := ⟨[], []⟩

/-- Adds an issue at a place. -/
def report (record : Record) (config : Indentation) (level actual : Nat) (range : TextRange) :
    Record :=
  ⟨record.issues ++ [config.issue level actual range], range.start.line :: record.lines⟩

end Record

/-- Looks at the opening tag of an element. Gives what comes next, which is nothing if the tag
stands wrong or the element holds text. -/
def visitElement (id : NodeId) (level : Nat) (record : Record) : List Visit × Record :=
  match config.wrong? level (config.leading? file id) with
  | some actual =>
    match file.document.range? id .opening with
    | some range => ([], record.report config level actual range)
    | none => ([], record)
  | none =>
    if file.document.tree.holdsText id then
      ([], record)
    else
      ((file.document.tree.elementChildren id).map (.element · (level + 1)) ++ [.closing id level],
        record)

/-- Looks at the closing tag of an element. -/
def visitClosing (id : NodeId) (level : Nat) (record : Record) : Record :=
  if (file.document.tree.elementChildren id).isEmpty then
    record
  else
    match file.document.range? id .closing with
    | none => record
    | some range =>
      if record.lines.contains range.start.line then
        record
      else
        match config.wrong? level (config.closing? file id) with
        | some actual => record.report config level actual range
        | none => record

/-- Takes at most `fuel` visits from a stack. -/
def visitAll : Nat → List Visit → Record → Record
  | 0, _, record => record
  | _, [], record => record
  | fuel + 1, .element id level :: stack, record =>
    let (next, record) := config.visitElement file id level record
    visitAll fuel (next ++ stack) record
  | fuel + 1, .closing id level :: stack, record =>
    visitAll fuel stack (config.visitClosing file id level record)

/-- The issues of a file. Each node is visited at most twice. -/
def issues : List Issue :=
  match file.document.tree.rootElement? with
  | some root =>
    (config.visitAll file (2 * file.document.tree.size) [.element root 0] .empty).issues
  | none => []

def check : Check := .stateless rule fun file _ ↦ .found (config.issues file)

end Indentation

end XmlInspect
