import XmlInspect.Markup.Attribute
import XmlInspect.Markup.QName

/-!
# Namespaces

A tag binds qualifiers to namespaces for itself and for what it encloses. A scope is the list of
bindings in force, the latest first, so that an inner binding hides an outer one and leaving an
element means taking up the scope from before it.

The qualifiers `xml` and `xmlns` are bound from the start. They cannot be bound to anything else,
nor can their namespaces be bound to another qualifier. An empty qualifier in a declaration stands
for the default namespace, but a name that is *used* with an empty qualifier is never bound.
Values are taken as written, references and all.
-/

namespace XmlInspect.Markup

/-- The namespace of the qualifier `xml`. -/
def xmlNamespace : String := "http://www.w3.org/XML/1998/namespace"

/-- The namespace of the attributes that declare namespaces. -/
def xmlnsNamespace : String := "http://www.w3.org/2000/xmlns/"

/-! ## Faults -/

/-- A declaration that goes against the reserved names. -/
inductive NamespaceFault where
  /-- `xml` is bound to another namespace. -/
  | xmlRebound (uri : List Char)
  /-- `xmlns` is bound. -/
  | xmlnsRebound (uri : List Char)
  /-- The namespace of `xml` is bound to another qualifier. -/
  | xmlTaken (qualifier : List Char)
  /-- The namespace of `xmlns` is bound to a qualifier. -/
  | xmlnsTaken (qualifier : List Char)
  deriving DecidableEq, Repr

namespace NamespaceFault

/-- A byte in a message: itself if it is printable ASCII, and a hexadecimal number otherwise. -/
def showByte (byte : UInt8) : String :=
  if byte = 0x22 then "\\\""
  else if 0x20 ≤ byte ∧ byte ≤ 0x7E then String.singleton (Char.ofNat byte.toNat)
  else "0x" ++ (String.ofList (Nat.toDigits 16 byte.toNat)).map Char.toUpper

/-- A text in a message, byte by byte in quotes. -/
def showBytes (text : List Char) : String :=
  "\"" ++ String.join ((String.ofList text).toUTF8.toList.map showByte) ++ "\""

def message : NamespaceFault → String
  | xmlRebound uri => s!"the namespace prefix 'xml' cannot be bound to '{showBytes uri}'"
  | xmlnsRebound uri => s!"the namespace prefix 'xmlns' cannot be bound to '{showBytes uri}'"
  | xmlTaken qualifier =>
    s!"the namespace prefix '{showBytes qualifier}' cannot be bound to '{xmlNamespace}'"
  | xmlnsTaken qualifier =>
    s!"the namespace prefix '{showBytes qualifier}' cannot be bound to '{xmlnsNamespace}'"

end NamespaceFault

/-! ## Scopes -/

/-- A qualifier, which is empty for the default namespace, and what it is bound to. -/
structure Binding where
  qualifier : List Char
  uri : List Char
  deriving DecidableEq, Repr

/-- The bindings in force, the latest first. -/
abbrev Scope := List Binding

namespace Scope

/-- The bindings in force everywhere. -/
def initial : Scope :=
  [⟨"xmlns".toList, xmlnsNamespace.toList⟩, ⟨"xml".toList, xmlNamespace.toList⟩]

/-- The qualifier that an attribute of this name binds: empty for the default namespace, none if
the attribute is no declaration. The flag tells whether a qualifier was written. -/
def declared? (key : List Char) : Option (Bool × List Char) :=
  match Text.stripStart? "xmlns".toList key with
  | some [] => some (false, [])
  | some (':' :: qualifier) => some (true, qualifier)
  | _ => none

/-- The scope after one more attribute. -/
def bind (scope : Scope) (attr : RawAttribute) : Except NamespaceFault Scope :=
  match declared? attr.key with
  | none => .ok scope
  | some (false, _) => .ok (⟨[], attr.value⟩ :: scope)
  | some (true, qualifier) =>
    if qualifier = "xml".toList then
      if attr.value = xmlNamespace.toList then .ok scope else .error (.xmlRebound attr.value)
    else if qualifier = "xmlns".toList then
      .error (.xmlnsRebound attr.value)
    else if attr.value = xmlNamespace.toList then
      .error (.xmlTaken qualifier)
    else if attr.value = xmlnsNamespace.toList then
      .error (.xmlnsTaken qualifier)
    else
      .ok (⟨qualifier, attr.value⟩ :: scope)

/-- The scope inside a tag with these attributes. -/
def enter (scope : Scope) (attrs : List RawAttribute) : Except NamespaceFault Scope :=
  attrs.foldlM bind scope

end Scope

/-! ## Resolution -/

/-- What a qualifier stands for. -/
inductive Resolution where
  | bound (uri : List Char)
  /-- No namespace, which only a name without qualifier may have. -/
  | unbound
  | unknown (qualifier : List Char)
  deriving DecidableEq, Repr

namespace Scope

/-- Resolves the qualifier of a name. -/
def resolve (scope : Scope) : Option (List Char) → Resolution
  | none =>
    match scope.find? (·.qualifier.isEmpty) with
    | some binding => if binding.uri.isEmpty then .unbound else .bound binding.uri
    | none => .unbound
  | some [] => .unknown []
  | some qualifier =>
    match scope.find? (·.qualifier == qualifier) with
    | some binding => if binding.uri.isEmpty then .unknown qualifier else .bound binding.uri
    | none => .unknown qualifier

end Scope

end XmlInspect.Markup
