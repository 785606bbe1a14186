import XmlInspect.Pattern.Depth
import XmlInspect.Pattern.Read

/-!
# From items to patterns

The items of a pattern are put together from left to right. An open group is a draft that keeps the
switches in force, what stands before the last bar, and the row of patterns since. A repetition
changes the last pattern of the row, so there has to be one. Switches that are turned inside a
group hold up to its end, bars notwithstanding.
-/

namespace XmlInspect.Pattern

/-- The switches in force. -/
structure Options where
  anyCase : Bool
  multiLine : Bool
  dotAll : Bool
  deriving DecidableEq, Repr

namespace Options

/-- At the start of a pattern. -/
def initial : Options := ⟨false, false, false⟩

/-- Turns a switch. -/
def turn (options : Options) : Switch × Bool → Options
  | (.anyCase, on) => { options with anyCase := on }
  | (.multiLine, on) => { options with multiLine := on }
  | (.dotAll, on) => { options with dotAll := on }
  | (.swapGreed, _) | (.unicode, _) => options

def turnAll (options : Options) (changes : List (Switch × Bool)) : Options :=
  changes.foldl turn options

end Options

/-- A group that is still open. -/
structure Draft where
  captured : Bool
  options : Options
  /-- What stands before the last bar. -/
  before : Option Pattern
  /-- The patterns since then, the last one first. Switches are in it as nothing. -/
  row : List (Option Pattern)
  deriving DecidableEq, Repr

/-- The pattern of a row of patterns. -/
def ofRow : List Pattern → Pattern
  | [] => .empty
  | [pattern] => pattern
  | pattern :: row => .seq pattern (ofRow row)

namespace Draft

/-- A group in which nothing was found yet. -/
def start (captured : Bool) (options : Options) : Draft := ⟨captured, options, none, []⟩

variable (draft : Draft)

def push (pattern : Pattern) : Draft := { draft with row := some pattern :: draft.row }

/-- The pattern of the group, if it ends here. -/
def pattern : Pattern :=
  let row := ofRow (draft.row.reverse.map (·.getD .empty))
  match draft.before with
  | some before => .alt before row
  | none => row

/-- Goes on after a bar. -/
def addBar : Draft := { draft with before := some draft.pattern, row := [] }

/-- Turns switches. -/
def turn (changes : List (Switch × Bool)) : Draft :=
  { draft with options := draft.options.turnAll changes, row := none :: draft.row }

/-- Repeats the last pattern. -/
def repeatLast? (least : Nat) (greatest : Option Nat) : Option Draft :=
  match draft.row with
  | some pattern :: row =>
    some { draft with row := some (.repeated pattern least greatest) :: row }
  | _ => none

/-- What a single item means under the switches in force. -/
def meaning? (item : Item) : Option Pattern :=
  let options := draft.options
  match item with
  | .char c => some (.one options.anyCase (.single c))
  | .chars chars => some (.one options.anyCase chars)
  | .wildcard =>
    some (.one false (.negate (if options.dotAll then .empty else .single '\n')))
  | .lineStart => some (.anchor (if options.multiLine then .lineStart else .textStart))
  | .lineEnd => some (.anchor (if options.multiLine then .lineEnd else .textEnd))
  | .anchor condition => some (.anchor condition)
  | _ => none

end Draft

/-- Puts items together in a group and the groups around it. -/
def assemble? (draft : Draft) (outer : List Draft) : List Item → Option Pattern
  | [] => if outer.isEmpty then some draft.pattern else none
  | .captureOpen _ :: items => assemble? (.start true draft.options) (draft :: outer) items
  | .groupOpen changes :: items =>
    assemble? (.start false (draft.options.turnAll changes)) (draft :: outer) items
  | .groupClose :: items =>
    match outer with
    | around :: outer => assemble? (around.push (.group draft.captured draft.pattern)) outer items
    | [] => none
  | .bar :: items => assemble? draft.addBar outer items
  | .switches changes :: items => assemble? (draft.turn changes) outer items
  | .repeated least greatest :: items =>
    match draft.repeatLast? least greatest with
    | some draft => assemble? draft outer items
    | none => none
  | item :: items =>
    match draft.meaning? item with
    | some pattern => assemble? (draft.push pattern) outer items
    | none => none

/-- The names of the groups among some items. -/
def groupNames (items : List Item) : List (List Char) :=
  items.filterMap fun
    | .captureOpen name => name
    | _ => none

/-- The pattern that is written as a text. No two groups may have the same name, and nothing may be
nested too deeply. -/
def ofText? (text : List Char) : Option Pattern := do
  let items ← items? text
  let names := groupNames items
  if names.eraseDups.length < names.length then none
  let pattern ← assemble? (.start false .initial) [] items
  if greatestDepth < pattern.depth then none
  return pattern

end XmlInspect.Pattern
