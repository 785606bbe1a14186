import XmlInspect.Proofs.DocumentOrder
import XmlInspect.Proofs.Scopes
import XmlInspect.Query.Along

/-!
# What qualifiers stand for

What a qualifier stands for is found out twice. While a document is built, a scope is kept from
which every name gets its namespace. Later a query has nothing but the tree, and goes from a node
outwards to the nearest element that has to do with the qualifier: one that is written with it,
whose namespace is then taken over, or one that declares it, where the value of the declaration is
taken.

Both follow the nesting of the elements, so they come upon the same declaration. But it is not in
the same form. A scope holds values as they are written, references and all, and the attribute in
the tree holds the text that the references stand for. An element that is written with a qualifier
is found by its own name, and nothing can go wrong with it. For an attribute the two forms have to
be the same, which they are if there is no reference in the value.
-/

namespace XmlInspect

open Markup

private theorem optionRel_cases {α β : Type} {r : α → β → Prop} {x : Option α} {y : Option β}
    (h : Option.Rel r x y) :
    x = none ∧ y = none ∨ ∃ a b, x = some a ∧ y = some b ∧ r a b := by
  cases h with
  | none => exact Or.inl ⟨rfl, rfl⟩
  | some hab => exact Or.inr ⟨_, _, rfl, rfl, hab⟩

/-! ## The entities of a document -/

/-- All that follows the keyword of a document type declaration. -/
def NodeKind.doctype? : NodeKind → Option String
  | .doctype _ raw => some raw
  | _ => none

namespace Tree

variable {tree : Tree} {p id : NodeId} {kind : NodeKind}

/-- The first document type declaration. -/
def doctype? (tree : Tree) : Option String :=
  (List.range tree.size).findSome? fun id ↦ (tree.kind? id).bind NodeKind.doctype?

/-- The entities that a document declares. -/
def entities (tree : Tree) : List Entity :=
  match tree.doctype? with
  | some raw => Entity.declared raw.toList
  | none => []

theorem doctype?_append (tree : Tree) (p : NodeId) (kind : NodeKind) :
    (tree.append p kind).doctype? = tree.doctype?.or kind.doctype? := by
  have hold : (List.range tree.size).findSome? (fun id ↦
      ((tree.append p kind).kind? id).bind NodeKind.doctype?) = tree.doctype? := by
    rw [doctype?, ← List.head?_filterMap, ← List.head?_filterMap]
    refine congrArg _ (List.filterMap_congr fun id hid ↦ ?_)
    rw [kind?_append, if_neg (Nat.ne_of_lt (List.mem_range.1 hid))]
  rw [doctype?, size_append, List.range_succ, List.findSome?_append, hold]
  simp [kind?_append]

private theorem entities_append (tree : Tree) (p : NodeId) (hkind : kind.doctype? = none) :
    (tree.append p kind).entities = tree.entities := by
  rw [entities, doctype?_append, hkind, Option.or_none]
  rfl

private theorem doctype?_eq_none (h : ∀ id name raw, tree.kind? id ≠ some (.doctype name raw)) :
    tree.doctype? = none := by
  refine List.findSome?_eq_none_iff.2 fun id _ ↦ ?_
  cases hkind : tree.kind? id with
  | none => rfl
  | some kind =>
    cases kind with
    | doctype name raw => exact absurd hkind (h id name raw)
    | _ => rfl

/-! ## The way up -/

theorem InDocumentOrder.lt_of_parent? (h : tree.InDocumentOrder) (hp : tree.parent? id = some p) :
    p < id ∧ id < tree.size := by
  have hid : id < tree.size := by
    by_contra hid
    rw [parent?, Array.getElem?_eq_none (Nat.le_of_not_lt hid)] at hp
    cases hp
  have hne : id ≠ root := by
    rintro rfl
    rw [h.parent?_root] at hp
    cases hp
  obtain ⟨q, hq, hlt, -⟩ := h.exists_parent hid hne
  rw [hp] at hq
  cases hq
  exact ⟨hlt, hid⟩

theorem InDocumentOrder.chain_parent?_eq (h : tree.InDocumentOrder) {fuel fuel' : Nat}
    (hfuel : id ≤ fuel) (hfuel' : id ≤ fuel') :
    chain tree.parent? fuel id = chain tree.parent? fuel' id := by
  induction fuel generalizing id fuel' with
  | zero =>
    obtain rfl : id = root := Nat.le_zero.1 hfuel
    cases fuel' with
    | zero => rfl
    | succ fuel' => rw [chain, chain, h.parent?_root]
  | succ fuel ih =>
    rw [chain]
    cases hp : tree.parent? id with
    | none =>
      cases fuel' with
      | zero => rfl
      | succ fuel' => rw [chain, hp]
    | some p =>
      have hlt := (h.lt_of_parent? hp).1
      cases fuel' with
      | zero => exact absurd (Nat.lt_of_lt_of_le hlt hfuel') (Nat.not_lt_zero p)
      | succ fuel' =>
        rw [chain, hp]
        exact congrArg _ (ih (Nat.le_of_lt_succ (Nat.lt_of_lt_of_le hlt hfuel))
          (Nat.le_of_lt_succ (Nat.lt_of_lt_of_le hlt hfuel')))

theorem InDocumentOrder.ancestors_of_parent? (h : tree.InDocumentOrder)
    (hp : tree.parent? id = some p) : tree.ancestors id = p :: tree.ancestors p := by
  obtain ⟨hlt, hid⟩ := h.lt_of_parent? hp
  have hmore : tree.ancestors id = chain tree.parent? (tree.size + 1) id :=
    h.chain_parent?_eq (Nat.le_of_lt hid) (Nat.le_succ_of_le (Nat.le_of_lt hid))
  rw [hmore, chain, hp]
  rfl

theorem InDocumentOrder.ancestors_root (h : tree.InDocumentOrder) : tree.ancestors root = [] :=
  h.chain_parent?_eq (Nat.zero_le _) (Nat.zero_le 0)

/-! ## Scopes of a tree -/

/-- An attribute has the name and the value of one that was read from a tag in a scope. -/
def Bears (tree : Tree) (scope : Scope) (a : AttrId) (raw : RawAttribute) : Prop :=
  ∃ attr, tree.attr? a = some attr ∧ Builder.attributeName .aware scope raw.key = .ok attr.name ∧
    unescape (Entity.lookup tree.entities) raw.value = .ok attr.value.toList

/-- An element comes from a tag that leads from one scope into another. -/
def Opens (tree : Tree) (id : NodeId) (outer inner : Scope) : Prop :=
  ∃ written name raws, outer.enter raws = .ok inner ∧ (raws.map (·.key)).Nodup ∧
    tree.name? id = some name ∧ Builder.elementName .aware inner written = .ok name ∧
    List.Forall₂ (tree.Bears inner) (tree.attributesOf id) raws

/-- The scope inside a node. -/
inductive HasScope (tree : Tree) : NodeId → Scope → Prop
  | root : HasScope tree root Scope.initial
  | element {p id : NodeId} {outer inner : Scope} : tree.parent? id = some p →
    HasScope tree p outer → tree.Opens id outer inner → HasScope tree id inner

/-! ## What elements say -/

/-- An element says what a qualifier is bound to where a scope has a value for it: by its own name
the same, by a declaration the text that the value stands for. -/
def Tells (tree : Tree) (qualifier : String) (id : NodeId) (uri : List Char) : Prop :=
  tree.boundByName? id qualifier = some (String.ofList uri) ∨
    tree.boundByName? id qualifier = none ∧ ∃ value,
      tree.boundByDeclaration? id qualifier = some value ∧
        unescape (Entity.lookup tree.entities) uri = .ok value.toList

/-- A node has nothing to do with a qualifier. -/
def Silent (tree : Tree) (qualifier : String) (id : NodeId) : Prop :=
  tree.boundByName? id qualifier = none ∧ tree.boundByDeclaration? id qualifier = none

/-- On the way outwards, the first element that has to do with a qualifier says what it is bound to,
if it is bound at all. -/
inductive Walks (tree : Tree) (qualifier : String) : List NodeId → Option (List Char) → Prop
  | nil : Walks tree qualifier [] none
  | tells {id : NodeId} {ids : List NodeId} {uri : List Char} :
    tree.Tells qualifier id uri → Walks tree qualifier (id :: ids) (some uri)
  | silent {id : NodeId} {ids : List NodeId} {uri? : Option (List Char)} :
    tree.Silent qualifier id → Walks tree qualifier ids uri? →
      Walks tree qualifier (id :: ids) uri?

section Opens

variable {outer inner : Scope} {qualifier : String} {uri : List Char} {ids : List AttrId}
  {raws : List RawAttribute} {name : QName} {a : AttrId} {attr : Attribute}

theorem boundByName?_of_name? (h : tree.name? id = some name) :
    tree.boundByName? id qualifier =
      if name.qualifier = some qualifier then name.namespaceUri else none := by
  rw [boundByName?, h]
  simp only [beq_iff_eq]

private theorem rel_declaration? (h : List.Forall₂ (tree.Bears inner) ids raws) :
    Option.Rel (fun value uri ↦ unescape (Entity.lookup tree.entities) uri = .ok value.toList)
      (ids.findSome? fun a ↦ match tree.attr? a with
        | some found =>
          if found.name.qualifier == some "xmlns" && found.name.localName == qualifier then
            some found.value
          else none
        | none => none)
      (Scope.declaration? raws qualifier.toList) := by
  induction h with
  | nil => exact .none
  | @cons a raw ids raws hbears _ ih =>
    obtain ⟨attr, hattr, hname, hvalue⟩ := hbears
    obtain ⟨hqualifier, hlocal⟩ := Builder.spelled_of_attributeName hname
    have hiff : Scope.declared? raw.key = some (true, qualifier.toList) ↔
        (attr.name.qualifier == some "xmlns" && attr.name.localName == qualifier) = true := by
      rw [Builder.declared?_iff_ofWritten, hqualifier, hlocal]
      simp
    rw [Scope.declaration?, List.findSome?_cons, List.findSome?_cons, hattr]
    dsimp only
    by_cases hdeclared : Scope.declared? raw.key = some (true, qualifier.toList)
    · rw [if_pos hdeclared, if_pos (hiff.1 hdeclared)]
      exact .some hvalue
    · rw [if_neg hdeclared, if_neg (mt hiff.2 hdeclared)]
      exact ih

namespace Opens

/-- What a tag says of a qualifier is what the scope inside has for it. -/
theorem tells_or_silent (h : tree.Opens id outer inner) (hempty : qualifier ≠ "")
    (hxml : qualifier ≠ "xml") :
    (∃ uri, inner.uri? qualifier.toList = some uri ∧ tree.Tells qualifier id uri) ∨
      tree.Silent qualifier id ∧ inner.uri? qualifier.toList = outer.uri? qualifier.toList := by
  obtain ⟨written, name, raws, henter, hnodup, hname, helement, hattrs⟩ := h
  have henter' := Scope.uri?_enter henter hnodup
    (fun hnil ↦ hempty (String.toList_eq_nil_iff.1 hnil)) (fun heq ↦ hxml (String.toList_inj.1 heq))
  have hbound : tree.boundByName? id qualifier = _ := boundByName?_of_name? hname
  by_cases hqualifier : name.qualifier = some qualifier
  · obtain ⟨uri, huri, hresolve⟩ := Builder.resolve_of_elementName helement hqualifier
    rw [if_pos hqualifier, huri] at hbound
    exact Or.inl ⟨uri, (Scope.resolve_eq_bound_iff.1 hresolve).2.1, Or.inl hbound⟩
  · rw [if_neg hqualifier] at hbound
    have hrel : Option.Rel _ (tree.boundByDeclaration? id qualifier)
        (Scope.declaration? raws qualifier.toList) := rel_declaration? hattrs
    rcases optionRel_cases hrel with ⟨hsilent, hdeclared⟩ |
      ⟨value, uri, hvalue, hdeclared, hunescape⟩
    · rw [hdeclared] at henter'
      exact Or.inr ⟨⟨hbound, hsilent⟩, henter'⟩
    · rw [hdeclared] at henter'
      exact Or.inl ⟨uri, henter', Or.inr ⟨hbound, value, hvalue, hunescape⟩⟩

private theorem resolve_of_name? (h : tree.Opens id outer inner) (hname : tree.name? id = some name)
    (hqualifier : name.qualifier = some qualifier) :
    ∃ uri, name.namespaceUri = some (String.ofList uri) ∧
      inner.resolve (some qualifier.toList) = .bound uri := by
  obtain ⟨written, name', raws, -, -, hname', helement, -⟩ := h
  rw [hname] at hname'
  cases hname'
  exact Builder.resolve_of_elementName helement hqualifier

private theorem resolve_of_attr? (h : tree.Opens id outer inner) (ha : a ∈ tree.attributesOf id)
    (hattr : tree.attr? a = some attr) (hdeclares : attr.name.declaresNamespace = false)
    (hqualifier : attr.name.qualifier = some qualifier) :
    ∃ uri, attr.name.namespaceUri = some (String.ofList uri) ∧
      inner.resolve (some qualifier.toList) = .bound uri := by
  obtain ⟨written, name, raws, -, -, -, -, hattrs⟩ := h
  obtain ⟨raw, -, attr', hattr', hname, -⟩ := exists_of_forall₂_of_mem hattrs ha
  rw [hattr] at hattr'
  cases hattr'
  exact Builder.resolve_of_attributeName hname hdeclares hqualifier

end Opens

end Opens

namespace HasScope

variable {scope : Scope} {qualifier : String}

private theorem uri?_xml (h : tree.HasScope id scope) :
    scope.uri? "xml".toList = some xmlNamespace.toList := by
  induction h with
  | root => rfl
  | element _ _ hopens ih =>
    obtain ⟨written, name, raws, henter, -⟩ := hopens
    exact (Scope.uri?_enter_xml henter).trans ih

/-- Going outwards leads to where the scope has its value from. -/
theorem walks (horder : tree.InDocumentOrder) (h : tree.HasScope id scope) (hempty : qualifier ≠ "")
    (hxml : qualifier ≠ "xml") (hxmlns : qualifier ≠ "xmlns") :
    tree.Walks qualifier (id :: tree.ancestors id) (scope.uri? qualifier.toList) := by
  induction h with
  | root =>
    have hkind : tree.kind? Tree.root = some .document := horder.document_iff.2 rfl
    have hsilent : tree.Silent qualifier Tree.root := by
      simp [Silent, boundByName?, boundByDeclaration?, name?, attributesOf, hkind]
    have hinitial : Scope.initial.uri? qualifier.toList = none := by
      rw [Scope.initial, Scope.uri?_cons, if_neg, Scope.uri?_cons, if_neg]
      · rfl
      · exact fun heq ↦ hxml (String.toList_inj.1 heq.symm)
      · exact fun heq ↦ hxmlns (String.toList_inj.1 heq.symm)
    rw [horder.ancestors_root, hinitial]
    exact .silent hsilent .nil
  | element hparent _ hopens ih =>
    rw [horder.ancestors_of_parent? hparent]
    rcases hopens.tells_or_silent hempty hxml with ⟨uri, huri, htells⟩ | ⟨hsilent, huri⟩
    · rw [huri]
      exact .tells htells
    · rw [huri]
      exact .silent hsilent ih

end HasScope

/-! ## Building -/

namespace Builder

variable {b b' last : Builder} {start stop : Nat} {content : List Char} {selfClosing : Bool}
  {piece : Piece} {pieces : List Piece}

/-- What a piece can do to a state. -/
theorem take_forms (h : b.take piece = .ok b') :
    (∃ content selfClosing,
      b.takeOpenTag piece.start piece.stop content selfClosing = .ok b') ∨
    (∃ frame frames, b.frames = frame :: frames ∧ b' = { b with frames, scope := frame.outer }) ∨
    (∃ content, b.takeDoctype content = .ok b') ∨
    (∃ kind : NodeKind, kind.isElement = false ∧ kind.doctype? = none ∧ b' = b.appendLeaf kind) ∨
    b' = b := by
  obtain ⟨start, raw, form⟩ := piece
  cases form with
  | text =>
    obtain ⟨text, -, hb'⟩ := takeText_eq_ok h
    exact .inr (.inr (.inr (.inl ⟨_, rfl, rfl, hb'⟩)))
  | openTag content selfClosing => exact .inl ⟨content, selfClosing, h⟩
  | closeTag name =>
    obtain ⟨frame, frames, hframes, -, hb'⟩ := takeCloseTag_eq_ok (reportAt_eq_ok_iff.1 h)
    exact .inr (.inl ⟨frame, frames, hframes, hb'⟩)
  | comment content =>
    have hb' := takeComment_eq_ok (reportAt_eq_ok_iff.1 h)
    exact .inr (.inr (.inr (.inl ⟨_, rfl, rfl, hb'⟩)))
  | cdata content =>
    have hb' := takeCdata_eq_ok (reportAt_eq_ok_iff.1 h)
    exact .inr (.inr (.inr (.inl ⟨_, rfl, rfl, hb'⟩)))
  | doctype content => exact .inr (.inr (.inl ⟨content, reportAt_eq_ok_iff.1 h⟩))
  | declaration => exact .inr (.inr (.inr (.inr (take_eq_ok_of_isInstruction h (.inl rfl)))))
  | instruction => exact .inr (.inr (.inr (.inr (take_eq_ok_of_isInstruction h (.inr rfl)))))

private theorem entities_take (h : b.entities = b.tree.entities) (hsound : b.Sound)
    (ht : b.take piece = .ok b') : b'.entities = b'.tree.entities := by
  rcases take_forms ht with ⟨content, selfClosing, hopen⟩ | ⟨frame, frames, -, rfl⟩ |
    ⟨content, hdoctype⟩ | ⟨kind, -, hkind, rfl⟩ | rfl
  · obtain ⟨scope, name, raws, attrs, -, -, -, rfl⟩ := takeOpenTag_eq_ok hopen
    exact h.trans (entities_append b.tree b.parent rfl).symm
  · exact h
  · obtain ⟨-, hseen, rfl⟩ := takeDoctype_eq_ok hdoctype
    have hnone : b.tree.doctype? = none := by
      refine doctype?_eq_none fun id name raw hkind ↦ ?_
      rw [hsound.doctypeSeen hkind] at hseen
      cases hseen
    simp [Tree.entities, doctype?_append, hnone, NodeKind.doctype?]
  · exact h.trans (entities_append b.tree b.parent hkind).symm
  · exact h

private theorem entities_foldlM (h : b.entities = b.tree.entities) (hsound : b.Sound)
    (hrun : pieces.foldlM Builder.take b = .ok last) : last.entities = last.tree.entities :=
  (foldlM_induction (P := fun c ↦ c.Sound ∧ c.entities = c.tree.entities)
    (fun _ _ _ hc htake ↦ ⟨(hc.1.take htake).1, entities_take hc.2 hc.1 htake⟩) ⟨hsound, h⟩ hrun).2

/-- Nothing is declared after the first element. -/
theorem settled_take (hseen : b.rootSeen = true) (ht : b.take piece = .ok b') :
    b'.rootSeen = true ∧ b'.entities = b.entities := by
  rcases take_forms ht with ⟨content, selfClosing, hopen⟩ | ⟨frame, frames, -, rfl⟩ |
    ⟨content, hdoctype⟩ | ⟨kind, -, -, rfl⟩ | rfl
  · obtain ⟨scope, name, raws, attrs, -, -, -, rfl⟩ := takeOpenTag_eq_ok hopen
    exact ⟨rfl, rfl⟩
  · exact ⟨hseen, rfl⟩
  · obtain ⟨hunseen, -⟩ := takeDoctype_eq_ok hdoctype
    rw [hseen] at hunseen
    cases hunseen
  · exact ⟨hseen, rfl⟩
  · exact ⟨hseen, rfl⟩

private theorem settled_foldlM (hseen : b.rootSeen = true)
    (hrun : pieces.foldlM Builder.take b = .ok last) : b.entities = last.entities := by
  refine (foldlM_induction (P := fun c ↦ c.rootSeen = true ∧ b.entities = c.entities)
    (fun c piece c' hc htake ↦ ?_) ⟨hseen, rfl⟩ hrun).2
  obtain ⟨hseen', hentities⟩ := settled_take hc.1 htake
  exact ⟨hseen', hc.2.trans hentities.symm⟩

private theorem forall₂_bears {scope : Scope} {raws : List RawAttribute}
    {attrs : List (QName × List Char)} {name : QName} (hreads : List.Forall₂ (fun raw attr ↦
      attributeName .aware scope raw.key = .ok attr.1 ∧
        b.expandReferences raw.value = .ok attr.2) raws attrs)
    (hextends : (b.tree.appendElement b.parent name
      (attrs.map fun attr ↦ (attr.1, String.ofList attr.2))).Extends tree)
    (hentities : b.entities = tree.entities) :
    List.Forall₂ (tree.Bears scope)
      (List.range' b.tree.attributes.size (attrs.map fun attr ↦
        (attr.1, String.ofList attr.2)).length) raws := by
  have hattrs := forall₂_attr?_appendElement b.tree b.parent name
    (attrs.map fun attr ↦ (attr.1, String.ofList attr.2))
  rw [List.forall₂_map_right_iff] at hattrs
  refine forall₂_comp hattrs (List.Forall₂.flip hreads) fun {a attr raw} hattr hread ↦ ?_
  refine ⟨_, hextends.attr? hattr, hread.1, ?_⟩
  rw [String.toList_ofList, ← hentities]
  exact unescape_of_expandReferences hread.2

/-- A tag that is taken leads from the scope around it into a scope of its own. -/
theorem exists_opens_of_takeOpenTag (hmode : b.tree.mode = .aware) (hsound : b.Sound)
    (h : b.takeOpenTag start stop content selfClosing = .ok b') (hextends : b'.tree.Extends tree)
    (hentities : b'.entities = tree.entities) :
    ∃ scope kind written, tree.Opens b.tree.size b.scope scope ∧ b.Adds kind b' ∧
      b'.frames = (if selfClosing then b.frames else ⟨b.tree.size, written, b.scope⟩ :: b.frames) ∧
      b'.scope = if selfClosing then b.scope else scope := by
  obtain ⟨scope, name, attrs, next, henter, hname, hattrs, hnext, hb'⟩ := stages_of_takeOpenTag h
  obtain ⟨hfault, hreads⟩ := readAttributes_eq_ok hattrs
  obtain ⟨raws, hraws⟩ : ∃ raws, RawAttribute.readAll true []
      (Text.byteSize (content.takeWhile (!Text.isXmlBlank ·)))
      (content.dropWhile (!Text.isXmlBlank ·)) = (raws, none) := ⟨_, Prod.ext rfl hfault⟩
  rw [RawAttribute.readAll_false hraws] at henter
  rw [hraws, hmode] at hreads
  rw [hmode] at hname
  obtain rfl := addElement_eq_ok hnext
  have htree : b'.tree = b.tree.appendElement b.parent name
      (attrs.map fun attr ↦ (attr.1, String.ofList attr.2)) := by
    rw [hb']
    cases selfClosing <;> rfl
  have hsame : b.entities = b'.entities := by
    rw [hb']
    cases selfClosing <;> rfl
  have hadds := adds_appendElement htree
  obtain ⟨hkind, -⟩ := hadds.of_extends hsound hextends
  have hbears := forall₂_bears hreads (htree ▸ hextends) (hsame.trans hentities)
  refine ⟨scope, _, content.takeWhile (!Text.isXmlBlank ·), ?_, hadds, ?_, ?_⟩
  · refine ⟨_, name, raws, henter, (RawAttribute.nodup_of_readAll hraws).1, ?_, hname, ?_⟩
    · rw [name?, hkind]
    · rw [attributesOf, hkind]
      exact hbears
  · rw [hb']
    cases selfClosing <;> rfl
  · rw [hb']
    cases selfClosing <;> rfl

/-- The scope in force is that of the innermost open element, and each of the others is kept with
the element that it was left for. -/
inductive Nested (tree : Tree) : List Frame → Scope → Prop
  | nil : Nested tree [] Scope.initial
  | cons {frame : Frame} {frames : List Frame} {inner : Scope} : tree.HasScope frame.node inner →
    Nested tree frames frame.outer → Nested tree (frame :: frames) inner

/-- What holds of the scopes between any two pieces, where `tree` is the finished tree. -/
structure Scoped (tree : Tree) (b : Builder) : Prop where
  nested : Nested tree b.frames b.scope
  exists_scope : ∀ id, b.tree.isElement id → ∃ scope, tree.HasScope id scope

namespace Scoped

theorem initial (tree : Tree) (mode : NamespaceMode) : Scoped tree (Builder.initial mode) where
  nested := .nil
  exists_scope id h := by
    cases id <;> cases h

private theorem hasScope_parent (h : Scoped tree b) : tree.HasScope b.parent b.scope := by
  have hnested := h.nested
  unfold Builder.parent
  generalize b.frames = frames at hnested ⊢
  generalize b.scope = scope at hnested ⊢
  cases hnested with
  | nil => exact .root
  | cons hscope _ => exact hscope

theorem openTag (h : Scoped tree b) (hsound : b.Sound) (hlinked : tree.Linked)
    (hmode : b.tree.mode = .aware)
    (ht : b.takeOpenTag start stop content selfClosing = .ok b') (hextends : b'.tree.Extends tree)
    (hentities : b'.entities = tree.entities) : Scoped tree b' := by
  obtain ⟨scope, kind, written, hopens, hadds, hframes, hscope⟩ :=
    exists_opens_of_takeOpenTag hmode hsound ht hextends hentities
  have hparent := (hlinked.child (hadds.of_extends hsound hextends).2).2.2.1
  have hnew : tree.HasScope b.tree.size scope := .element hparent h.hasScope_parent hopens
  constructor
  · rw [hframes, hscope]
    cases selfClosing with
    | true => exact h.nested
    | false => exact .cons hnew h.nested
  · intro id hid
    obtain ⟨name, attrs, hkind⟩ := exists_kind_of_isElement hid
    rcases hadds.kind?_cases hkind with ⟨rfl, -⟩ | hold
    · exact ⟨scope, hnew⟩
    · exact h.exists_scope id (isElement_of_kind? hold)

private theorem exists_scope_of_adds {kind : NodeKind} (h : Scoped tree b) (hadds : b.Adds kind b')
    (hkind : kind.isElement = false) (id : NodeId) (hid : b'.tree.isElement id) :
    ∃ scope, tree.HasScope id scope := by
  obtain ⟨name, attrs, hid⟩ := exists_kind_of_isElement hid
  rcases hadds.kind?_cases hid with ⟨-, rfl⟩ | hold
  · cases hkind
  · exact h.exists_scope id (isElement_of_kind? hold)

theorem take (h : Scoped tree b) (hsound : b.Sound) (hlinked : tree.Linked)
    (hmode : b.tree.mode = .aware) (ht : b.take piece = .ok b') (hextends : b'.tree.Extends tree)
    (hentities : b'.rootSeen = true → b'.entities = tree.entities) : Scoped tree b' := by
  rcases take_forms ht with ⟨content, selfClosing, hopen⟩ | ⟨frame, frames, hframes, rfl⟩ |
    ⟨content, hdoctype⟩ | ⟨kind, hkind, -, rfl⟩ | rfl
  · have hseen : b'.rootSeen = true := by
      obtain ⟨scope, name, raws, attrs, -, -, -, rfl⟩ := takeOpenTag_eq_ok hopen
      rfl
    exact h.openTag hsound hlinked hmode hopen hextends (hentities hseen)
  · have hnested := h.nested
    rw [hframes] at hnested
    cases hnested with
    | cons _ houter => exact ⟨houter, h.exists_scope⟩
  · have hadds := adds_of_takeDoctype hsound hdoctype
    obtain ⟨-, -, rfl⟩ := takeDoctype_eq_ok hdoctype
    exact ⟨h.nested, h.exists_scope_of_adds hadds rfl⟩
  · exact ⟨h.nested, h.exists_scope_of_adds (adds_appendLeaf b kind) hkind⟩
  · exact h

theorem foldlM (h : Scoped tree b) (hsound : b.Sound) (hchecked : b.Checked .aware)
    (hrun : pieces.foldlM Builder.take b = .ok last) (htree : last.tree = tree)
    (hlinked : tree.Linked) (hentities : last.entities = tree.entities) : Scoped tree last := by
  induction pieces generalizing b with
  | nil =>
    cases hrun
    exact h
  | cons piece pieces ih =>
    obtain ⟨middle, htake, hrun⟩ := foldlM_cons_eq_ok_iff.1 hrun
    have hsound' := (hsound.take htake).1
    have hextends : middle.tree.Extends tree := htree ▸ (hsound'.foldlM hrun).2
    refine ih (h.take hsound hlinked hchecked.mode_eq htake hextends ?_) hsound'
      (hchecked.take hsound htake) hrun
    intro hseen
    exact (settled_foldlM hseen hrun).trans hentities

end Scoped

end Builder

/-- Every element of a built tree has its scope. -/
theorem hasScope_of_build {body : List Char} (h : build .aware body = .ok tree)
    (hid : tree.isElement id) : ∃ scope, tree.HasScope id scope := by
  obtain ⟨pieces, b, -, hrun, -, -, rfl⟩ := exists_run_of_build h
  have hsound := Builder.sound_initial .aware
  have hentities := Builder.entities_foldlM (by rfl) hsound hrun
  have hscoped := (Builder.Scoped.initial b.tree .aware).foldlM hsound
    (Builder.checked_initial .aware) hrun rfl (hsound.foldlM hrun).1.linked hentities
  exact hscoped.exists_scope id hid

theorem exists_opens_of_isElement (h : tree.InDocumentOrder) {scope : Scope}
    (hscope : tree.HasScope id scope) (hid : tree.isElement id) :
    ∃ outer, tree.Opens id outer scope := by
  cases hscope with
  | root =>
    rw [isElement_of_kind? (h.document_iff.2 rfl)] at hid
    cases hid
  | element _ _ hopens => exact ⟨_, hopens⟩

/-! ## Resolving -/

section Resolving

variable {scope : Scope} {qualifier : String} {uri : List Char} {ids : List NodeId}
  {name : QName} {attr : Attribute} {a : AttrId}

/-- Whether a node has to do with a qualifier. -/
def binds (tree : Tree) (qualifier : String) (id : NodeId) : Bool :=
  ((tree.boundByName? id qualifier).or (tree.boundByDeclaration? id qualifier)).isSome

/-- The nearest element from a node outwards that has to do with a qualifier. -/
def binder? (tree : Tree) (id : NodeId) (qualifier : String) : Option NodeId :=
  (id :: tree.ancestors id).find? (tree.binds qualifier)

/-- The way outwards gives the value of the scope if it ends at a name, or if there is nothing to be
replaced in the value. -/
theorem Walks.findSome?_iff (h : tree.Walks qualifier ids (some uri)) :
    (ids.findSome? fun id ↦
        (tree.boundByName? id qualifier).or (tree.boundByDeclaration? id qualifier)) =
        some (String.ofList uri) ↔
      (∃ id, ids.find? (tree.binds qualifier) = some id ∧
        (tree.boundByName? id qualifier).isSome) ∨
      unescape (Entity.lookup tree.entities) uri = .ok uri := by
  generalize huri : some uri = uri? at h
  induction h with
  | nil => cases huri
  | @tells id ids _ htells =>
    cases huri
    rw [List.findSome?_cons, List.find?_cons, binds]
    rcases htells with hname | ⟨hname, value, hvalue, hunescape⟩
    · simp [hname]
    · -- Here the element is not written with the qualifier, so all hangs on the declaration.
      rw [hname, hvalue, hunescape]
      simp only [Option.none_or, Option.isSome_some, Option.some.injEq, Except.ok.injEq]
      constructor
      · rintro rfl
        exact Or.inr String.toList_ofList
      · rintro (⟨_, rfl, hsome⟩ | rfl)
        · rw [hname] at hsome
          cases hsome
        · exact String.ofList_toList.symm
  | silent hsilent _ ih =>
    rw [List.findSome?_cons, List.find?_cons, binds, hsilent.1, hsilent.2]
    exact ih huri

theorem HasScope.eq_xmlNamespace (h : tree.HasScope id scope)
    (hresolve : scope.resolve (some "xml".toList) = .bound uri) :
    String.ofList uri = xmlNamespace := by
  have huri := (Scope.resolve_eq_bound_iff.1 hresolve).2.1
  rw [h.uri?_xml] at huri
  cases huri
  exact String.ofList_toList

private theorem HasScope.resolveQualifier?_of_name? (horder : tree.InDocumentOrder)
    (h : tree.HasScope id scope) (hname : tree.name? id = some name)
    (hqualifier : name.qualifier = some qualifier) :
    ∃ uri, name.namespaceUri = some uri ∧ tree.resolveQualifier? id qualifier = some uri := by
  obtain ⟨outer, hopens⟩ :=
    exists_opens_of_isElement horder h (Option.isSome_iff_exists.2 ⟨name, hname⟩)
  obtain ⟨uri, huri, hresolve⟩ := hopens.resolve_of_name? hname hqualifier
  refine ⟨_, huri, ?_⟩
  by_cases hxml : qualifier = "xml"
  · subst hxml
    rw [resolveQualifier?, if_pos rfl, h.eq_xmlNamespace hresolve]
  · rw [resolveQualifier?, if_neg hxml, List.findSome?_cons, boundByName?_of_name? hname,
      if_pos hqualifier, huri]
    rfl

/-- An attribute is found if the nearest element that has to do with its qualifier is written with
it, or if there is nothing to be replaced in its namespace. -/
theorem HasScope.resolveQualifier?_iff (horder : tree.InDocumentOrder) (h : tree.HasScope id scope)
    (hid : tree.isElement id) (ha : a ∈ tree.attributesOf id) (hattr : tree.attr? a = some attr)
    (hdeclares : attr.name.declaresNamespace = false)
    (hqualifier : attr.name.qualifier = some qualifier) :
    ∃ uri, attr.name.namespaceUri = some uri ∧
      (tree.resolveQualifier? id qualifier = some uri ↔ qualifier = "xml" ∨
        (∃ element, tree.binder? id qualifier = some element ∧
          (tree.boundByName? element qualifier).isSome) ∨
        unescape (Entity.lookup tree.entities) uri.toList = .ok uri.toList) := by
  obtain ⟨outer, hopens⟩ := exists_opens_of_isElement horder h hid
  obtain ⟨uri, huri, hresolve⟩ := hopens.resolve_of_attr? ha hattr hdeclares hqualifier
  refine ⟨_, huri, ?_⟩
  by_cases hxml : qualifier = "xml"
  · subst hxml
    rw [resolveQualifier?, if_pos rfl, h.eq_xmlNamespace hresolve]
    simp
  · obtain ⟨hempty, hbound, -⟩ := Scope.resolve_eq_bound_iff.1 hresolve
    have hxmlns : qualifier ≠ "xmlns" := by
      rintro rfl
      rw [QName.declaresNamespace, hqualifier] at hdeclares
      cases hdeclares
    have hne : qualifier ≠ "" := by
      rintro rfl
      exact hempty rfl
    have hwalks := h.walks horder hne hxml hxmlns
    rw [hbound] at hwalks
    rw [resolveQualifier?, if_neg hxml, hwalks.findSome?_iff, String.toList_ofList, binder?,
      or_iff_right hxml]

end Resolving

end Tree

theorem Markup.unescapeFrom_of_notMem {entity? : List Char → Option (List Char)} {text : List Char}
    (h : '&' ∉ text) (size offset : Nat) : unescapeFrom entity? size offset text = .ok text := by
  induction text generalizing offset with
  | nil => rw [unescapeFrom]
  | cons c rest ih =>
    rw [List.mem_cons, not_or] at h
    rw [unescapeFrom, if_neg (Ne.symm h.1), ih h.2]
    rfl

theorem Markup.unescape_of_notMem {entity? : List Char → Option (List Char)} {text : List Char}
    (h : '&' ∉ text) : unescape entity? text = .ok text :=
  unescapeFrom_of_notMem h _ _

namespace Document

open Query

variable {source : Source} {doc : Document}

/-- On a tree that knows namespaces, what the qualifier of a name stands for is found again from the
place of the name: always for an element, and for an attribute exactly if its qualifier is `xml`, or
the nearest element that has to do with the qualifier is written with it, or replacing the
references in the namespace leaves it as it is. And exactly then a test by that name is passed. -/
theorem resolveQualifier?_iff_of_parse (h : parse source .aware = .ok doc) :
    (∀ id name qualifier, doc.tree.name? id = some name → name.qualifier = some qualifier →
      ∃ uri, name.namespaceUri = some uri ∧ doc.tree.resolveQualifier? id qualifier = some uri ∧
        ∀ axis node, .node id ∈ along doc.tree axis node →
          .node id ∈ candidates doc.tree axis (.name (some qualifier) name.localName) node) ∧
    ∀ a attr qualifier, doc.tree.attr? a = some attr → attr.name.declaresNamespace = false →
      attr.name.qualifier = some qualifier →
      ∃ uri, attr.name.namespaceUri = some uri ∧
        (doc.tree.resolveQualifier? attr.owner qualifier = some uri ↔ qualifier = "xml" ∨
          (∃ element, doc.tree.binder? attr.owner qualifier = some element ∧
            (doc.tree.boundByName? element qualifier).isSome) ∨
          unescape (Entity.lookup doc.tree.entities) uri.toList = .ok uri.toList) ∧
        ('&' ∉ uri.toList → doc.tree.resolveQualifier? attr.owner qualifier = some uri) ∧
        ∀ axis node, axis = .attr ∨ axis = .self → .attr a ∈ along doc.tree axis node →
          (.attr a ∈ candidates doc.tree axis (.name (some qualifier) attr.name.localName) node ↔
            doc.tree.resolveQualifier? attr.owner qualifier = some uri) := by
  obtain ⟨spans, hbuild, -, -⟩ := exists_spans_of_parse h
  have horder := Tree.inDocumentOrder_of_build hbuild
  have hmode := Tree.mode_of_build hbuild
  constructor
  · intro id name qualifier hname hqualifier
    obtain ⟨scope, hscope⟩ :=
      Tree.hasScope_of_build hbuild (Option.isSome_iff_exists.2 ⟨name, hname⟩)
    obtain ⟨uri, huri, hresolve⟩ := hscope.resolveQualifier?_of_name? horder hname hqualifier
    refine ⟨uri, huri, hresolve, fun axis node hnode ↦ List.mem_filter.2 ⟨hnode, ?_⟩⟩
    simp [passes, elementMatches, hname, hmode, resolvedMatches, expectedNamespace, hresolve, huri]
  · intro a attr qualifier hattr hdeclares hqualifier
    have ha : a ∈ doc.tree.attributesOf attr.owner := (horder.attributesOf_iff hattr _).2 rfl
    obtain ⟨name, attrs, hkind⟩ := Tree.exists_kind_of_mem_attributesOf ha
    have hid : doc.tree.isElement attr.owner := Tree.isElement_of_kind? hkind
    obtain ⟨scope, hscope⟩ := Tree.hasScope_of_build hbuild hid
    obtain ⟨uri, huri, hiff⟩ :=
      hscope.resolveQualifier?_iff horder hid ha hattr hdeclares hqualifier
    refine ⟨uri, huri, hiff, fun hplain ↦ ?_, fun axis node haxis hnode ↦ ?_⟩
    · exact hiff.2 (.inr (.inr (unescape_of_notMem hplain)))
    · rw [candidates, List.mem_filter, and_iff_right hnode]
      rcases haxis with rfl | rfl <;>
        simp [passes, attrMatches, hattr, hmode, resolvedMatches, expectedNamespace, hqualifier,
          huri]

/-- In an element that is written with the qualifier, also an attribute is found whose namespace has
a reference in it. -/
theorem resolveQualifier?_iff_of_parse_redeclared :
    ∃ doc, parse (.ofText ""
        "<a:b xmlns:a='c'><d xmlns:a='e&amp;f'><a:g a:h=''/></d></a:b>") .aware = .ok doc ∧
      doc.tree.resolveQualifier? 3 "a" = some "e&amp;f" ∧
      .node 3 ∈ candidates doc.tree .descendant (.name (some "a") "g") (.node 0) ∧
      .attr 2 ∈ candidates doc.tree .attr (.name (some "a") "h") (.node 3) := by
  have hrun : (parse (.ofText ""
      "<a:b xmlns:a='c'><d xmlns:a='e&amp;f'><a:g a:h=''/></d></a:b>") .aware).toOption.any
      (fun doc ↦ doc.tree.name? 3 == some ⟨some "a", "g", some "e&amp;f"⟩ &&
        doc.tree.attr? 2 == some ⟨⟨some "a", "h", some "e&amp;f"⟩, "", 3⟩ &&
        doc.tree.attributesOf 3 == [2] && doc.tree.descendants 0 == [1, 2, 3]) = true := by
    decide +kernel
  obtain ⟨doc, hparse, hdoc⟩ := exists_of_any hrun
  simp only [Bool.and_eq_true, beq_iff_eq] at hdoc
  obtain ⟨⟨⟨hname, hattr⟩, hattributes⟩, hdescendants⟩ := hdoc
  obtain ⟨helements, hattrs⟩ := resolveQualifier?_iff_of_parse hparse
  obtain ⟨uri, huri, hresolve, hfound⟩ := helements 3 _ "a" hname rfl
  obtain ⟨uri', huri', -, -, hpasses⟩ := hattrs 2 _ "a" hattr rfl rfl
  cases huri
  cases huri'
  refine ⟨doc, hparse, hresolve, hfound _ _ ?_, (hpasses _ _ (.inl rfl) ?_).2 hresolve⟩
  · simp [along, alongFromNode, hdescendants]
  · simp [along, alongFromNode, hattributes, Query.isDeclaration, hattr,
      QName.declaresNamespace]

/-- A reference in a declaration keeps an attribute from being found by its own name. -/
theorem resolveQualifier?_ne_of_reference :
    ∃ doc, parse (.ofText "" "<r xmlns:a=\"u&amp;v\"><b a:c=\"1\"/></r>") .aware = .ok doc ∧
      doc.tree.attr? 1 = some ⟨⟨some "a", "c", some "u&amp;v"⟩, "1", 2⟩ ∧
      doc.tree.resolveQualifier? 2 "a" = some "u&v" ∧
      along doc.tree .attr (.node 2) = [.attr 1] ∧
      candidates doc.tree .attr (.name (some "a") "c") (.node 2) = [] := by
  have hrun : (parse (.ofText "" "<r xmlns:a=\"u&amp;v\"><b a:c=\"1\"/></r>") .aware).toOption.any
      (fun doc ↦ doc.tree.attr? 1 == some ⟨⟨some "a", "c", some "u&amp;v"⟩, "1", 2⟩ &&
        doc.tree.resolveQualifier? 2 "a" == some "u&v" &&
        along doc.tree .attr (.node 2) == [.attr 1] &&
        candidates doc.tree .attr (.name (some "a") "c") (.node 2) == []) = true := by
    decide +kernel
  obtain ⟨doc, hparse, hdoc⟩ := exists_of_any hrun
  simp only [Bool.and_eq_true, beq_iff_eq] at hdoc
  exact ⟨doc, hparse, hdoc.1.1.1, hdoc.1.1.2, hdoc.1.2, hdoc.2⟩

end Document

end XmlInspect
