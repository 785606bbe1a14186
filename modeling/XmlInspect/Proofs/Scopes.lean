import XmlInspect.Proofs.WellFormed
import XmlInspect.Tree.Qualifier

/-!
# What a tag does to the scope

A tag is read twice. The first reading looks for namespace declarations and changes the scope, the
second gives the attributes. For a tag that is taken both readings give the same list, and in it no
key comes twice. So a qualifier that the tag declares has one declaration there, and what it is
bound to inside is the value of that attribute, as it is written; any other qualifier is bound to
what it was bound to outside.
-/

namespace XmlInspect

namespace Markup

/-! ## Reading a tag twice -/

namespace RawAttribute

variable {unique : Bool} {seen seen' raws : List RawAttribute} {offset offset' stop : Nat}
  {first : Char} {text rest after : List Char} {raw : RawAttribute}

theorem readAll_nil (h : skipBlanks offset text = (offset', [])) :
    readAll unique seen offset text = ([], none) := by
  rw [readAll]
  split
  · rfl
  · rename_i hs
    cases h.symm.trans hs

theorem readAll_cons (h : skipBlanks offset text = (offset', first :: rest))
    (hread : read unique seen offset' first rest = .ok (raw, stop, after)) :
    readAll unique seen offset text =
      (raw :: (readAll unique (seen ++ [raw]) stop after).1,
        (readAll unique (seen ++ [raw]) stop after).2) := by
  rw [readAll]
  split
  · rename_i hs
    cases h.symm.trans hs
  · rename_i hs
    cases h.symm.trans hs
    split
    · rename_i hread'
      cases hread.symm.trans hread'
    · rename_i hread'
      cases hread.symm.trans hread'
      rfl

private theorem read_false (h : read true seen offset first text = .ok (raw, stop, rest)) :
    read false seen' offset first text = .ok (raw, stop, rest) := by
  unfold read at h ⊢
  dsimp only at h ⊢
  split at h
  · split at h
    · cases h
    · rw [earlier?, if_neg Bool.false_ne_true]
      exact h
  · cases h

/-- A tag in which no key comes twice is read alike whether this is looked for or not. -/
theorem readAll_false (h : readAll true seen offset text = (raws, none)) :
    readAll false seen' offset text = (raws, none) := by
  fun_induction readAll true seen offset text generalizing raws seen' with
  | case1 seen offset text _ hskip =>
    cases h
    exact readAll_nil hskip
  | case2 => cases h
  | case3 seen offset text _ _ _ hskip raw stop _ hread _ raws' fault hrest ih =>
    cases h
    rw [readAll_cons hskip (read_false hread), ih hrest]

end RawAttribute

/-! ## Bindings -/

namespace Scope

variable {scope inner : Scope} {raw : RawAttribute} {raws : List RawAttribute}
  {key qualifier uri : List Char}

/-- What a qualifier is bound to. It may be nothing, which takes back a binding outside. -/
def uri? (scope : Scope) (qualifier : List Char) : Option (List Char) :=
  (scope.find? (·.qualifier == qualifier)).map (·.uri)

theorem uri?_cons (binding : Binding) (scope : Scope) (qualifier : List Char) :
    uri? (binding :: scope) qualifier =
      if binding.qualifier = qualifier then some binding.uri else scope.uri? qualifier := by
  by_cases h : binding.qualifier = qualifier
  · simp [uri?, h]
  · simp [uri?, h]

/-- A name has the namespace that its qualifier is bound to. -/
theorem resolve_eq_bound_iff :
    scope.resolve (some qualifier) = .bound uri ↔
      qualifier ≠ [] ∧ scope.uri? qualifier = some uri ∧ uri ≠ [] := by
  by_cases hempty : qualifier = []
  · simp [hempty, resolve]
  · rw [resolve.eq_3 _ _ hempty, uri?]
    cases scope.find? (·.qualifier == qualifier) with
    | none => simp
    | some binding =>
      by_cases huri : binding.uri = []
      · simp [huri]
      · simp [huri, hempty]
        rintro rfl
        exact huri

theorem declared?_eq_iff :
    declared? key = some (true, qualifier) ↔ key = "xmlns:".toList ++ qualifier := by
  unfold declared?
  constructor
  · intro h
    split at h
    · cases h
    · rename_i hstrip
      cases h
      exact (Text.stripStart?_eq_some_iff.1 hstrip).trans rfl
    · cases h
  · rintro rfl
    rfl

/-- What an attribute of a tag declares a qualifier to be bound to. -/
def declaration? (raws : List RawAttribute) (qualifier : List Char) : Option (List Char) :=
  raws.findSome? fun raw ↦
    if declared? raw.key = some (true, qualifier) then some raw.value else none

/-- An attribute binds the qualifier that it declares, and nothing else. -/
theorem uri?_bind (h : scope.bind raw = .ok inner) (hempty : qualifier ≠ [])
    (hxml : qualifier ≠ "xml".toList) :
    inner.uri? qualifier =
      if declared? raw.key = some (true, qualifier) then some raw.value
      else scope.uri? qualifier := by
  unfold bind at h
  split at h
  · rename_i hdeclared
    cases h
    rw [hdeclared, if_neg nofun]
  · rename_i hdeclared
    cases h
    rw [hdeclared, if_neg (by simp), uri?_cons, if_neg (Ne.symm hempty)]
  · rename_i declared hdeclared
    rw [hdeclared]
    split at h
    · rename_i hreserved
      split at h
      · cases h
        rw [if_neg]
        rintro ⟨⟩
        exact hxml hreserved
      · cases h
    · split_ifs at h
      cases h
      rw [uri?_cons]
      simp

/-- No attribute binds `xml` anew. -/
theorem uri?_bind_xml (h : scope.bind raw = .ok inner) :
    inner.uri? "xml".toList = scope.uri? "xml".toList := by
  unfold bind at h
  split at h
  · cases h
    rfl
  · cases h
    exact uri?_cons _ _ _
  · split_ifs at h with hxml
    · cases h
      rfl
    · cases h
      rw [uri?_cons, if_neg hxml]

theorem uri?_enter_xml (h : scope.enter raws = .ok inner) :
    inner.uri? "xml".toList = scope.uri? "xml".toList :=
  foldlM_induction (P := fun reached ↦ reached.uri? "xml".toList = scope.uri? "xml".toList)
    (fun _ _ _ hreached hbind ↦ (uri?_bind_xml hbind).trans hreached) rfl h

/-- Inside a tag a qualifier is bound to what the tag declares it to be, and otherwise to what it is
bound to outside. -/
theorem uri?_enter (h : scope.enter raws = .ok inner) (hnodup : (raws.map (·.key)).Nodup)
    (hempty : qualifier ≠ []) (hxml : qualifier ≠ "xml".toList) :
    inner.uri? qualifier = (declaration? raws qualifier).or (scope.uri? qualifier) := by
  induction raws generalizing scope with
  | nil =>
    cases h
    rfl
  | cons raw raws ih =>
    obtain ⟨middle, hbind, henter⟩ := foldlM_cons_eq_ok_iff.1 h
    rw [List.map_cons, List.nodup_cons] at hnodup
    rw [ih henter hnodup.2, uri?_bind hbind hempty hxml, declaration?, declaration?,
      List.findSome?_cons]
    by_cases hdeclared : declared? raw.key = some (true, qualifier)
    · -- The key is told by the qualifier, so no later attribute declares it again.
      have hlater : ∀ raw' ∈ raws, ¬ declared? raw'.key = some (true, qualifier) := by
        intro raw' hraw' hdeclared'
        apply hnodup.1
        rw [declared?_eq_iff.1 hdeclared, ← declared?_eq_iff.1 hdeclared']
        exact List.mem_map_of_mem hraw'
      rw [if_pos hdeclared, if_pos hdeclared, List.findSome?_eq_none_iff.2]
      · rfl
      · intro raw' hraw'
        exact if_neg (hlater raw' hraw')
    · rw [if_neg hdeclared, if_neg hdeclared]

end Scope

end Markup

/-! ## Names -/

namespace Tree.Builder

open Markup

variable {scope : Scope} {written : List Char} {name : QName} {qualifier localName : String}

private theorem qualifier_ofWritten (written : List Char) :
    (QName.ofWritten written).qualifier = (qualifierOf written).map String.ofList := by
  unfold QName.ofWritten qualifierOf
  cases Text.cutAt [':'] written <;> rfl

theorem declared?_iff_ofWritten :
    Scope.declared? written = some (true, localName.toList) ↔
      (QName.ofWritten written).qualifier = some "xmlns" ∧
        (QName.ofWritten written).localName = localName := by
  rw [Scope.declared?_eq_iff]
  constructor
  · rintro rfl
    have hcut : Text.cutAt [':'] ("xmlns:".toList ++ localName.toList) =
        some ("xmlns".toList, localName.toList) := rfl
    rw [QName.ofWritten, hcut]
    exact ⟨rfl, String.ofList_toList⟩
  · rintro ⟨hqualifier, hlocal⟩
    unfold QName.ofWritten at hqualifier hlocal
    split at hqualifier
    · rename_i front rest hcut
      rw [hcut] at hlocal
      have hfront : front = "xmlns".toList := by
        rw [← Option.some.inj hqualifier, String.toList_ofList]
      have hrest : rest = localName.toList := by
        rw [← hlocal, String.toList_ofList]
      rw [Text.eq_append_of_cutAt hcut, hfront, hrest]
      rfl
    · cases hqualifier

/-- Resolving a name gives it a namespace and leaves its parts as they are. -/
def Spelled (name : QName) (written : List Char) : Prop :=
  name.qualifier = (QName.ofWritten written).qualifier ∧
    name.localName = (QName.ofWritten written).localName

private theorem spelled_of_elementName {mode : NamespaceMode}
    (h : elementName mode scope written = .ok name) : Spelled name written := by
  unfold elementName at h
  split at h
  · cases h
    exact ⟨rfl, rfl⟩
  · split at h <;> cases h <;> exact ⟨rfl, rfl⟩

theorem spelled_of_attributeName {mode : NamespaceMode}
    (h : attributeName mode scope written = .ok name) : Spelled name written := by
  unfold attributeName at h
  dsimp only at h
  split at h
  · cases h
    exact ⟨rfl, rfl⟩
  · split at h
    · cases h
      exact ⟨rfl, rfl⟩
    · split at h
      · cases h
        exact ⟨rfl, rfl⟩
      · split at h <;> cases h <;> exact ⟨rfl, rfl⟩

theorem qualifierOf_of_spelled (h : Spelled name written)
    (hqualifier : name.qualifier = some qualifier) :
    qualifierOf written = some qualifier.toList := by
  rw [h.1, qualifier_ofWritten] at hqualifier
  obtain ⟨front, hfront, rfl⟩ := Option.map_eq_some_iff.1 hqualifier
  rw [hfront, String.toList_ofList]

theorem resolve_of_elementName (h : elementName .aware scope written = .ok name)
    (hqualifier : name.qualifier = some qualifier) :
    ∃ uri, name.namespaceUri = some (String.ofList uri) ∧
      scope.resolve (some qualifier.toList) = .bound uri := by
  have hof := qualifierOf_of_spelled (spelled_of_elementName h) hqualifier
  unfold elementName at h
  dsimp only at h
  rw [hof] at h
  split at h
  · rename_i uri hresolve
    cases h
    exact ⟨uri, rfl, hresolve⟩
  · rename_i hresolve
    exact absurd hresolve (scope.resolve_ne_unbound _)
  · cases h

private theorem declaresNamespace_of_spelled (h : Spelled name written) :
    (QName.ofWritten written).declaresNamespace = name.declaresNamespace := by
  unfold QName.declaresNamespace
  rw [h.1, h.2]

theorem resolve_of_attributeName (h : attributeName .aware scope written = .ok name)
    (hdeclares : name.declaresNamespace = false) (hqualifier : name.qualifier = some qualifier) :
    ∃ uri, name.namespaceUri = some (String.ofList uri) ∧
      scope.resolve (some qualifier.toList) = .bound uri := by
  have hspelled := spelled_of_attributeName h
  have hof := qualifierOf_of_spelled hspelled hqualifier
  unfold attributeName at h
  dsimp only at h
  rw [declaresNamespace_of_spelled hspelled, hdeclares, if_neg Bool.false_ne_true, hof] at h
  dsimp only at h
  split at h
  · rename_i uri hresolve
    cases h
    exact ⟨uri, rfl, hresolve⟩
  · rename_i hresolve
    exact absurd hresolve (scope.resolve_ne_unbound _)
  · cases h

end Tree.Builder

end XmlInspect
