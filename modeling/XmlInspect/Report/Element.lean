/-!
# Written elements

Elements as they are written in a report. An element holds nothing, a text, or further elements,
and never a mixture, so every opening tag can start a line of its own and so can the closing tag of
an element that holds others. Texts are never broken.
-/

namespace XmlInspect.Report

/-- An element to be written. -/
inductive Element where
  | empty (name : String) (attributes : List (String × String))
  | text (name : String) (attributes : List (String × String)) (content : String)
  | group (name : String) (attributes : List (String × String)) (children : List Element)

/-- What each level is indented by. Without it everything is on one line. -/
abbrev Indent := Option (List Char)

/-- So many spaces. -/
def Indent.spaces (count : Nat) : Indent := some (List.replicate count ' ')

def Indent.tab : Indent := some ['\t']

/-! ## Escaping -/

/-- A character as it is written in texts and values. -/
def escapeChar : Char → List Char
  | '<' => "&lt;".toList
  | '>' => "&gt;".toList
  | '&' => "&amp;".toList
  | '\'' => "&apos;".toList
  | '"' => "&quot;".toList
  | c => [c]

/-- A text as it is written. -/
def escape (text : String) : List Char := text.toList.flatMap escapeChar

/-! ## Tags -/

/-- An attribute as it is written. -/
def writeAttribute : String × String → List Char
  | (name, value) => ' ' :: name.toList ++ ['=', '"'] ++ escape value ++ ['"']

/-- What an opening tag starts with. -/
def openTag (name : String) (attributes : List (String × String)) : List Char :=
  '<' :: name.toList ++ attributes.flatMap writeAttribute

def closeTag (name : String) : List Char := "</".toList ++ name.toList ++ ['>']

/-- The start of a line on some level. -/
def lineBreak (indent : Indent) (level : Nat) : List Char :=
  match indent with
  | some unit => '\n' :: (List.replicate level unit).flatten
  | none => []

/-! ## Elements -/

mutual

/-- An element as it is written on some level. -/
def Element.write (indent : Indent) (level : Nat) : Element → List Char
  | .empty name attributes => lineBreak indent level ++ openTag name attributes ++ "/>".toList
  | .text name attributes content =>
    lineBreak indent level ++ openTag name attributes ++ '>' :: escape content ++ closeTag name
  | .group name attributes children =>
    lineBreak indent level ++ openTag name attributes ++ '>' ::
      writeAll indent (level + 1) children ++ lineBreak indent level ++ closeTag name

/-- Elements as they are written one after the other. -/
def writeAll (indent : Indent) (level : Nat) : List Element → List Char
  | [] => []
  | element :: elements => element.write indent level ++ writeAll indent level elements

end

end XmlInspect.Report
