import XmlInspect.Tree.Navigate

/-!
# Qualifiers seen from a node

What a qualifier stands for at a node is found in the tree itself: the nearest element, from the
node outwards, that is written with the qualifier and has a namespace, or that declares it.
-/

namespace XmlInspect.Tree

variable (tree : Tree)

/-- What an element's own name says about a qualifier. -/
def boundByName? (id : NodeId) (qualifier : String) : Option String :=
  match tree.name? id with
  | some name => if name.qualifier == some qualifier then name.namespaceUri else none
  | none => none

/-- What the declarations of an element say about a qualifier. -/
def boundByDeclaration? (id : NodeId) (qualifier : String) : Option String :=
  (tree.attributesOf id).findSome? fun attr ↦
    match tree.attr? attr with
    | some found =>
      if found.name.qualifier == some "xmlns" && found.name.localName == qualifier then
        some found.value
      else
        none
    | none => none

/-- What a qualifier stands for at a node. -/
def resolveQualifier? (id : NodeId) (qualifier : String) : Option String :=
  if qualifier = "xml" then
    some Markup.xmlNamespace
  else
    (id :: tree.ancestors id).findSome? fun node ↦
      (tree.boundByName? node qualifier).or (tree.boundByDeclaration? node qualifier)

end XmlInspect.Tree
