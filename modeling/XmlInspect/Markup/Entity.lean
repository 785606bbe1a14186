import XmlInspect.Text.Blank
import XmlInspect.Text.Find
import XmlInspect.Text.WordChar

/-!
# Entities

A document type declaration may declare entities, `<!ENTITY name "text">`. Only declarations of
this plain form count; whatever else stands there is passed over, also when it only looks like a
declaration. The first declaration of a name is the binding one, and the five predefined entities
cannot be declared anew.
-/

namespace XmlInspect.Markup

/-- A declared entity. -/
structure Entity where
  name : List Char
  text : List Char
  deriving DecidableEq, Repr

namespace Entity

def startsName (c : Char) : Bool := c.isAlpha || c == '_'

def continuesName (c : Char) : Bool :=
  Text.isWordChar c || c == '.' || c == ':' || c == '-'

/-- Skips at least one blank. -/
def skipBlanks? : List Char → Option (List Char)
  | c :: rest => if Text.isBlank c then some (rest.dropWhile Text.isBlank) else none
  | [] => none

/-- The entity declared at the front of a text, and what follows the declaration. -/
def declaredAt? (text : List Char) : Option (Entity × List Char) := do
  let rest ← skipBlanks? (← Text.stripStart? "<!ENTITY".toList text)
  let name := rest.takeWhile continuesName
  guard (name.head?.any startsName)
  match ← skipBlanks? (rest.drop name.length) with
  | quote :: rest =>
    guard (quote == '"' || quote == '\'')
    let (value, rest) ← Text.cutAt [quote] rest
    let rest ← Text.stripStart? ['>'] (rest.dropWhile Text.isBlank)
    return (⟨name, value⟩, rest)
  | [] => none

/-- The entities declared in a text after its first `skip` characters. -/
def declaredAfter : Nat → List Char → List Entity
  | _, [] => []
  | skip + 1, _ :: rest => declaredAfter skip rest
  | 0, c :: rest =>
    match declaredAt? (c :: rest) with
    | some (entity, after) => entity :: declaredAfter (rest.length - after.length) rest
    | none => declaredAfter 0 rest

/-- The entities declared in a document type declaration, in order. -/
def declared (doctype : List Char) : List Entity := declaredAfter 0 doctype

/-- The text of a predefined entity. -/
def predefined? (name : List Char) : Option (List Char) :=
  if name = "lt".toList then some ['<']
  else if name = "gt".toList then some ['>']
  else if name = "amp".toList then some ['&']
  else if name = "apos".toList then some ['\'']
  else if name = "quot".toList then some ['"']
  else none

/-- The text that a name stands for under some declarations. -/
def lookup (entities : List Entity) (name : List Char) : Option (List Char) :=
  (predefined? name).or ((entities.find? (·.name == name)).map (·.text))

end Entity

end XmlInspect.Markup
