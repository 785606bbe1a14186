import XmlInspect.Text.Find

/-!
# Names

A name of an element or attribute is written with at most one qualifier before its first colon.
What the qualifier stands for, the namespace, is known only to trees that resolve namespaces.
-/

namespace XmlInspect

/-- The name of an element or attribute. -/
@[ext] structure QName where
  /-- The part before the first colon. -/
  qualifier : Option String
  /-- The part after it, or the whole name. -/
  localName : String
  /-- What the qualifier is bound to. -/
  namespaceUri : Option String
  deriving DecidableEq, Repr

namespace QName

/-- Takes a written name apart. -/
def ofWritten (written : List Char) : QName :=
  match Text.cutAt [':'] written with
  | some (qualifier, localName) => ⟨some (String.ofList qualifier), String.ofList localName, none⟩
  | none => ⟨none, String.ofList written, none⟩

/-- The name as it is written. -/
def written (name : QName) : String :=
  match name.qualifier with
  | some qualifier => qualifier ++ ":" ++ name.localName
  | none => name.localName

/-- Whether an attribute of this name declares a namespace. -/
def declaresNamespace (name : QName) : Bool :=
  match name.qualifier with
  | some qualifier => qualifier == "xmlns"
  | none => name.localName == "xmlns"

theorem written_ofWritten (text : List Char) : (ofWritten text).written = String.ofList text := by
  unfold ofWritten
  split
  · rename_i qualifier localName h
    rw [Text.eq_append_of_cutAt h]
    apply String.toList_inj.1
    simp [written]
  · rfl

end QName

end XmlInspect
