import Mathlib.Data.List.Forall2
import XmlInspect.Proofs.Located

/-!
# How trees grow

Building adds nodes at the end of the row and children at the end of a list, and changes nothing
that is there. Two things follow. A tree under construction agrees with the finished one on every
node it has, so what is said of a node when it is added stays true of it. And the links of the
finished tree agree with each other: whoever comes to a node through its parent finds the parent
recorded in it, together with its place there.
-/

namespace XmlInspect

namespace Tree

variable {tree later last : Tree} {p id : NodeId} {kind : NodeKind}

/-! ## One more node -/

@[simp] theorem size_append (tree : Tree) (p : NodeId) (kind : NodeKind) :
    (tree.append p kind).size = tree.size + 1 := by
  simp [append, size]

theorem getElem?_append (tree : Tree) (p : NodeId) (kind : NodeKind) (id : NodeId) :
    (tree.append p kind).nodes[id]? =
      if id = tree.size then some ⟨kind, some p, (tree.children p).length, []⟩
      else if p = id then tree.nodes[id]?.map fun node ↦
        { node with children := node.children ++ [tree.size] }
      else tree.nodes[id]? := by
  simp only [append, Array.getElem?_push, Array.size_modify, Array.getElem?_modify]
  rfl

theorem kind?_append (tree : Tree) (p : NodeId) (kind : NodeKind) (id : NodeId) :
    (tree.append p kind).kind? id = if id = tree.size then some kind else tree.kind? id := by
  unfold kind?
  rw [getElem?_append]
  split
  · rfl
  · split
    · simp [Option.map_map, Function.comp_def]
    · rfl

theorem parent?_append (tree : Tree) (p : NodeId) (kind : NodeKind) (id : NodeId) :
    (tree.append p kind).parent? id = if id = tree.size then some p else tree.parent? id := by
  unfold parent?
  rw [getElem?_append]
  split
  · rfl
  · split
    · cases tree.nodes[id]? <;> rfl
    · rfl

private theorem indexOf_append (tree : Tree) (p : NodeId) (kind : NodeKind) (id : NodeId) :
    (tree.append p kind).indexOf id =
      if id = tree.size then (tree.children p).length else tree.indexOf id := by
  unfold indexOf
  rw [getElem?_append]
  by_cases hid : id = tree.size
  · simp [hid]
  · by_cases hp : p = id
    · cases hnode : tree.nodes[id]? <;> simp [hid, hp]
    · simp [hid, hp]

theorem children_eq_nil_of_le (h : tree.size ≤ id) : tree.children id = [] := by
  unfold children
  rw [Array.getElem?_eq_none h]

theorem children_append (tree : Tree) (hp : p < tree.size) (kind : NodeKind) (id : NodeId) :
    (tree.append p kind).children id =
      if p = id then tree.children p ++ [tree.size] else tree.children id := by
  by_cases hid : id = tree.size
  · rw [if_neg (Nat.ne_of_lt (hid ▸ hp)), children_eq_nil_of_le (Nat.le_of_eq hid.symm), children,
      getElem?_append, if_pos hid]
  · rw [children, getElem?_append, if_neg hid]
    by_cases hidp : p = id
    · subst hidp
      have hnode : tree.nodes[p]? = some tree.nodes[p] := Array.getElem?_eq_getElem hp
      rw [if_pos rfl, if_pos rfl, children, hnode]
      rfl
    · rw [if_neg hidp, if_neg hidp]
      rfl

theorem kind?_appendElement (tree : Tree) (p : NodeId) (name : QName)
    (attrs : List (QName × String)) (id : NodeId) :
    (tree.appendElement p name attrs).kind? id =
      if id = tree.size then
        some (.element name (List.range' tree.attributes.size attrs.length))
      else tree.kind? id :=
  kind?_append tree p _ id

theorem attr?_appendElement (tree : Tree) (p : NodeId) (name : QName)
    (attrs : List (QName × String)) (id : AttrId) :
    (tree.appendElement p name attrs).attr? id =
      if id < tree.attributes.size then tree.attr? id
      else attrs[id - tree.attributes.size]?.map fun attr ↦ ⟨attr.1, attr.2, tree.size⟩ := by
  simp only [attr?, appendElement, ← Array.getElem?_toList, Array.toList_appendList,
    List.getElem?_append, List.getElem?_map, Array.length_toList]

/-! ## What growing keeps -/

/-- All nodes and attributes of a tree are in a later one, with nothing changed but children added
at the end. -/
structure Extends (tree later : Tree) : Prop where
  kind? : ∀ {id kind}, tree.kind? id = some kind → later.kind? id = some kind
  children : ∀ id, tree.children id <+: later.children id
  attr? : ∀ {id attr}, tree.attr? id = some attr → later.attr? id = some attr

namespace Extends

theorem refl (tree : Tree) : tree.Extends tree :=
  ⟨fun h ↦ h, fun _ ↦ List.prefix_refl _, fun h ↦ h⟩

theorem trans (h : tree.Extends later) (h' : later.Extends last) : tree.Extends last :=
  ⟨fun hk ↦ h'.kind? (h.kind? hk), fun id ↦ (h.children id).trans (h'.children id),
    fun ha ↦ h'.attr? (h.attr? ha)⟩

theorem getElem?_children (h : tree.Extends later) {i : Nat} {c : NodeId}
    (hc : (tree.children p)[i]? = some c) : (later.children p)[i]? = some c := by
  obtain ⟨tail, htail⟩ := h.children p
  rw [← htail, List.getElem?_append_left (List.getElem?_eq_some_iff.1 hc).1]
  exact hc

end Extends

theorem kind?_eq_none_iff : tree.kind? id = none ↔ tree.size ≤ id := by
  simp [kind?, size]

theorem lt_size_of_kind? (h : tree.kind? id = some kind) : id < tree.size := by
  by_contra hid
  rw [kind?_eq_none_iff.2 (Nat.le_of_not_lt hid)] at h
  cases h

theorem extends_append (tree : Tree) (hp : p < tree.size) (kind : NodeKind) :
    tree.Extends (tree.append p kind) where
  kind? h := by
    rw [kind?_append, if_neg (Nat.ne_of_lt (lt_size_of_kind? h))]
    exact h
  children id := by
    rw [children_append tree hp]
    split
    · rename_i hid
      rw [hid]
      exact List.prefix_append _ _
    · exact List.prefix_refl _
  attr? h := h

theorem extends_appendElement (tree : Tree) (hp : p < tree.size) (name : QName)
    (attrs : List (QName × String)) : tree.Extends (tree.appendElement p name attrs) where
  kind? h := (extends_append tree hp _).kind? h
  children id := (extends_append tree hp _).children id
  attr? {id attr} h := by
    have hlt : id < tree.attributes.size := (Array.getElem?_eq_some_iff.1 h).1
    rw [attr?_appendElement, if_pos hlt]
    exact h

/-! ## Links -/

/-- The links between the nodes of a tree agree. -/
structure Linked (tree : Tree) : Prop where
  kind?_root : tree.kind? root = some .document
  /-- A child comes after its parent and knows its place. -/
  child : ∀ {p c : NodeId} {i : Nat}, (tree.children p)[i]? = some c →
    p < c ∧ c < tree.size ∧ tree.parent? c = some p ∧ tree.indexOf c = i
  exists_parent : ∀ {c : NodeId}, c < tree.size → c ≠ root →
    ∃ (p : NodeId) (i : Nat), (tree.children p)[i]? = some c
  eq_root : ∀ {id : NodeId}, tree.kind? id = some .document → id = root
  /-- Only elements and the document have children. -/
  isElement : ∀ {p : NodeId}, tree.children p ≠ [] → p = root ∨ tree.isElement p

/-- Attributes and the elements that carry them agree. -/
structure Owned (tree : Tree) : Prop where
  owner : ∀ {id : NodeId} {a : AttrId}, a ∈ tree.attributesOf id →
    ∃ attr, tree.attr? a = some attr ∧ attr.owner = id
  sorted : ∀ id, (tree.attributesOf id).Pairwise (· < ·)
  mem : ∀ {a : AttrId} {attr : Attribute}, tree.attr? a = some attr →
    a ∈ tree.attributesOf attr.owner

theorem Owned.nodup (h : tree.Owned) (id : NodeId) : (tree.attributesOf id).Nodup :=
  (h.sorted id).imp Nat.ne_of_lt

namespace Linked

theorem child_unique (h : tree.Linked) {p q c : NodeId} {i j : Nat}
    (hp : (tree.children p)[i]? = some c) (hq : (tree.children q)[j]? = some c) :
    p = q ∧ i = j := by
  obtain ⟨-, -, hparent, hindex⟩ := h.child hp
  obtain ⟨-, -, hparent', hindex'⟩ := h.child hq
  rw [hparent] at hparent'
  exact ⟨Option.some.inj hparent', hindex.symm.trans hindex'⟩

theorem root_lt_size (h : tree.Linked) : root < tree.size := lt_size_of_kind? h.kind?_root

theorem ne_root (h : tree.Linked) {p c : NodeId} {i : Nat} (hc : (tree.children p)[i]? = some c) :
    c ≠ root :=
  Nat.ne_of_gt (Nat.lt_of_le_of_lt (Nat.zero_le p) (h.child hc).1)

theorem lt_size_of_mem (h : tree.Linked) {p c : NodeId} (hc : c ∈ tree.children p) :
    c < tree.size := by
  obtain ⟨i, hi⟩ := List.getElem?_of_mem hc
  exact (h.child hi).2.1

/-- Links are all in the nodes. -/
theorem congr (h : tree.Linked) (hnodes : later.nodes = tree.nodes) : later.Linked := by
  obtain ⟨mode, nodes, attributes⟩ := later
  cases hnodes
  exact ⟨h.kind?_root, h.child, h.exists_parent, h.eq_root, h.isElement⟩

end Linked

theorem exists_kind_of_name? {name : QName} (h : tree.name? id = some name) :
    ∃ attrs, tree.kind? id = some (.element name attrs) := by
  unfold name? at h
  split at h
  · cases h
    exact ⟨_, by assumption⟩
  · cases h

theorem exists_kind_of_isElement (h : tree.isElement id) :
    ∃ name attrs, tree.kind? id = some (.element name attrs) := by
  obtain ⟨name, hname⟩ := Option.isSome_iff_exists.1 h
  exact ⟨name, exists_kind_of_name? hname⟩

/-- What holds of all elements can be found by going through the nodes. -/
theorem of_all_of_isElement {p : NodeId → Bool}
    (hall : ((List.range tree.size).all fun id ↦ !tree.isElement id || p id) = true)
    (h : tree.isElement id) : p id = true := by
  obtain ⟨name, attrs, hkind⟩ := exists_kind_of_isElement h
  have hid := List.all_eq_true.1 hall id (List.mem_range.2 (lt_size_of_kind? hkind))
  rwa [h, Bool.not_true, Bool.false_or] at hid

theorem exists_kind_of_mem_attributesOf {a : AttrId} (h : a ∈ tree.attributesOf id) :
    ∃ name attrs, tree.kind? id = some (.element name attrs) := by
  unfold attributesOf at h
  split at h
  · exact ⟨_, _, by assumption⟩
  · cases h

theorem isElement_append (h : tree.isElement id) : (tree.append p kind).isElement id := by
  unfold isElement name? at h ⊢
  have hid : id ≠ tree.size := by
    rintro rfl
    rw [kind?_eq_none_iff.2 (Nat.le_refl _)] at h
    cases h
  rw [kind?_append, if_neg hid]
  exact h

theorem linked_append (h : tree.Linked) (hp : p < tree.size)
    (hparent : p = root ∨ tree.isElement p) (hkind : kind ≠ .document) :
    (tree.append p kind).Linked where
  kind?_root := (extends_append tree hp kind).kind? h.kind?_root
  child {q c i} hc := by
    rw [children_append tree hp] at hc
    rw [size_append, parent?_append, indexOf_append]
    -- Either the place was there before, or it is the one at the end of the list of `p`.
    by_cases hold : (tree.children q)[i]? = some c
    · obtain ⟨hlt, hsize, hparent, hindex⟩ := h.child hold
      rw [if_neg (Nat.ne_of_lt hsize), if_neg (Nat.ne_of_lt hsize)]
      exact ⟨hlt, Nat.lt_succ_of_lt hsize, hparent, hindex⟩
    · split at hc
      · rename_i hq
        subst hq
        obtain ⟨hi, hc⟩ : i = (tree.children p).length ∧ c = tree.size := by
          grind
        rw [if_pos hc, if_pos hc, hi, hc]
        exact ⟨hp, Nat.lt_succ_self _, rfl, rfl⟩
      · exact absurd hc hold
  exists_parent {c} hlt hne := by
    rw [size_append] at hlt
    by_cases hc : c = tree.size
    · refine ⟨p, (tree.children p).length, ?_⟩
      rw [children_append tree hp, if_pos rfl, hc, List.getElem?_concat_length]
    · obtain ⟨q, i, hq⟩ := h.exists_parent (Nat.lt_of_le_of_ne (Nat.le_of_lt_succ hlt) hc) hne
      exact ⟨q, i, (extends_append tree hp kind).getElem?_children hq⟩
  eq_root {id} hid := by
    rw [kind?_append] at hid
    split at hid
    · exact absurd (Option.some.inj hid) hkind
    · exact h.eq_root hid
  isElement {q} hq := by
    rw [children_append tree hp] at hq
    have hold : q = root ∨ tree.isElement q := by
      split at hq
      · rename_i hpq
        exact hpq ▸ hparent
      · exact h.isElement hq
    exact hold.imp id isElement_append

theorem linked_empty (mode : NamespaceMode) : (empty mode).Linked where
  kind?_root := rfl
  child {p c i} h := by
    cases p <;> cases h
  exists_parent hlt hne := absurd (Nat.lt_one_iff.1 hlt) hne
  eq_root {id} h := by
    cases id with
    | zero => rfl
    | succ id => cases h
  isElement {p} h := by
    cases p with
    | zero => exact Or.inl rfl
    | succ p => exact absurd rfl h

theorem attributesOf_append (tree : Tree) (p : NodeId) (kind : NodeKind) (id : NodeId) :
    (tree.append p kind).attributesOf id =
      if id = tree.size then (match kind with | .element _ attributes => attributes | _ => [])
      else tree.attributesOf id := by
  unfold attributesOf
  rw [kind?_append]
  by_cases hid : id = tree.size
  · rw [if_pos hid, if_pos hid]
    cases kind <;> rfl
  · rw [if_neg hid, if_neg hid]

theorem attributesOf_eq_nil_of_le (h : tree.size ≤ id) : tree.attributesOf id = [] := by
  unfold attributesOf
  rw [kind?_eq_none_iff.2 h]

theorem owned_empty (mode : NamespaceMode) : (empty mode).Owned where
  owner {id a} h := by
    cases id <;> cases h
  sorted id := by
    cases id <;> exact .nil
  mem h := by cases h

/-- A leaf brings no attributes. -/
theorem owned_append (h : tree.Owned) (hkind : ∀ name attrs, kind ≠ .element name attrs) :
    (tree.append p kind).Owned := by
  have hattributes : ∀ id, (tree.append p kind).attributesOf id = tree.attributesOf id := by
    intro id
    rw [attributesOf_append]
    split
    · rename_i hid
      rw [attributesOf_eq_nil_of_le (Nat.le_of_eq hid.symm)]
      cases kind with
      | element name attrs => exact absurd rfl (hkind name attrs)
      | _ => rfl
    · rfl
  refine ⟨?_, ?_, ?_⟩
  · intro id a ha
    rw [hattributes] at ha
    exact h.owner ha
  · intro id
    rw [hattributes]
    exact h.sorted id
  · intro a attr ha
    rw [hattributes]
    exact h.mem ha

private theorem attributesOf_appendElement (tree : Tree) (p : NodeId) (name : QName)
    (attrs : List (QName × String)) (id : NodeId) :
    (tree.appendElement p name attrs).attributesOf id =
      if id = tree.size then List.range' tree.attributes.size attrs.length
      else tree.attributesOf id :=
  attributesOf_append tree p (.element name (List.range' tree.attributes.size attrs.length)) id

/-- The attributes of an element are the latest. -/
theorem owned_appendElement (h : tree.Owned) (name : QName) (attrs : List (QName × String)) :
    (tree.appendElement p name attrs).Owned := by
  have hold : ∀ {a attr}, tree.attr? a = some attr → a < tree.attributes.size := by
    intro a attr ha
    exact (Array.getElem?_eq_some_iff.1 ha).1
  refine ⟨?_, ?_, ?_⟩
  · intro id a ha
    rw [attributesOf_appendElement] at ha
    rw [attr?_appendElement]
    split at ha
    · rename_i hid
      obtain ⟨hle, hlt⟩ := List.mem_range'_1.1 ha
      rw [if_neg (Nat.not_lt.2 hle), List.getElem?_eq_getElem (Nat.sub_lt_left_of_lt_add hle hlt)]
      exact ⟨_, rfl, hid.symm⟩
    · obtain ⟨attr, hattr, howner⟩ := h.owner ha
      rw [if_pos (hold hattr)]
      exact ⟨attr, hattr, howner⟩
  · intro id
    rw [attributesOf_appendElement]
    split
    · exact List.pairwise_lt_range'
    · exact h.sorted id
  · intro a attr ha
    rw [attr?_appendElement] at ha
    rw [attributesOf_appendElement]
    split at ha
    · have hmem := h.mem ha
      rw [if_neg]
      · exact hmem
      · -- Nothing that was there before belongs to the new node.
        intro howner
        rw [attributesOf_eq_nil_of_le (Nat.le_of_eq howner.symm)] at hmem
        cases hmem
    · rename_i hle
      obtain ⟨pair, hpair, rfl⟩ := Option.map_eq_some_iff.1 ha
      have hlt := (List.getElem?_eq_some_iff.1 hpair).1
      rw [if_pos rfl]
      exact List.mem_range'_1.2 ⟨Nat.le_of_not_lt hle, by omega⟩

theorem linked_appendElement (h : tree.Linked) (hp : p < tree.size)
    (hparent : p = root ∨ tree.isElement p) (name : QName) (attrs : List (QName × String)) :
    (tree.appendElement p name attrs).Linked :=
  (linked_append h hp hparent (by simp)).congr rfl

/-! ## One piece -/

namespace Builder

open Markup

variable {b b' : Builder} {start stop : Nat} {content raw written : List Char}
  {selfClosing : Bool} {mode : NamespaceMode} {scope : Scope} {name : QName}

theorem reportAt_eq_ok_iff {α : Type} {offset : Nat} {x : Except Fault α} {a : α} :
    reportAt offset x = .ok a ↔ x = .ok a := by
  cases x with
  | error fault => simp [reportAt]
  | ok b => simp [reportAt]

theorem unescape_of_expandReferences {out : List Char} (h : b.expandReferences raw = .ok out) :
    unescape (Entity.lookup b.entities) raw = .ok out := by
  unfold expandReferences at h
  split at h
  · rename_i heq
    cases h
    exact heq
  · cases h

/-- Resolving a name does not change how it is written. -/
theorem written_of_elementName (h : elementName mode scope written = .ok name) :
    name.written = String.ofList written := by
  rw [← QName.written_ofWritten written]
  unfold elementName at h
  split at h
  · cases h
    rfl
  · split at h <;> cases h <;> rfl

private theorem written_of_attributeName (h : attributeName mode scope written = .ok name) :
    name.written = String.ofList written := by
  rw [← QName.written_ofWritten written]
  unfold attributeName at h
  dsimp only at h
  split at h
  · cases h
    rfl
  · split at h
    · cases h
      rfl
    · split at h
      · cases h
        rfl
      · split at h <;> cases h <;> rfl

/-- An attribute of a tree is what one of a tag says. -/
def Reads (entities : List Entity) (raw : RawAttribute) (attr : QName × List Char) : Prop :=
  attr.1.written = String.ofList raw.key ∧ unescape (Entity.lookup entities) raw.value = .ok attr.2

theorem readAttributes_eq_ok {raws : List RawAttribute} {fault : Option AttributeFault}
    {attrs : List (QName × List Char)} (h : b.readAttributes scope (raws, fault) = .ok attrs) :
    fault = none ∧ List.Forall₂ (fun raw attr ↦
      attributeName b.tree.mode scope raw.key = .ok attr.1 ∧
        b.expandReferences raw.value = .ok attr.2) raws attrs := by
  induction raws generalizing attrs with
  | nil =>
    cases fault with
    | none =>
      rw [readAttributes] at h
      cases h
      exact ⟨rfl, .nil⟩
    | some fault =>
      rw [readAttributes] at h
      cases h
  | cons raw raws ih =>
    rw [readAttributes] at h
    obtain ⟨name, hname, h⟩ := bind_eq_ok_iff.1 h
    obtain ⟨value, hvalue, h⟩ := bind_eq_ok_iff.1 h
    obtain ⟨rest, hrest, h⟩ := bind_eq_ok_iff.1 h
    cases h
    obtain ⟨hfault, hall⟩ := ih hrest
    exact ⟨hfault, .cons ⟨hname, hvalue⟩ hall⟩

theorem forall₂_of_readAttributes {raws : List RawAttribute} {fault : Option AttributeFault}
    {attrs : List (QName × List Char)} (h : b.readAttributes scope (raws, fault) = .ok attrs) :
    fault = none ∧ List.Forall₂ (Reads b.entities) raws attrs := by
  obtain ⟨hfault, hall⟩ := readAttributes_eq_ok h
  exact ⟨hfault, hall.imp fun _ _ hread ↦
    ⟨written_of_attributeName hread.1, unescape_of_expandReferences hread.2⟩⟩

/-- The stages of taking a run of text. -/
theorem exists_of_takeText (h : b.takeText start stop raw = .ok b') :
    ∃ content, unescape (Entity.lookup b.entities) raw = .ok content ∧
      (b.frames = [] → content.all Text.isXmlBlank) ∧ checkChars content = .ok () ∧
      b' = b.appendLeaf (.text (String.ofList content)) := by
  unfold takeText at h
  obtain ⟨content, hcontent, h⟩ := bind_eq_ok_iff.1 h
  refine ⟨content, unescape_of_expandReferences (reportAt_eq_ok_iff.1 hcontent), ?_⟩
  split at h
  · cases h
  · rename_i hblank
    obtain ⟨_, hchars, h⟩ := bind_eq_ok_iff.1 h
    cases h
    exact ⟨fun hframes ↦ by simpa [hframes] using hblank, reportAt_eq_ok_iff.1 hchars, rfl⟩

theorem takeText_eq_ok (h : b.takeText start stop raw = .ok b') :
    ∃ content, unescape (Entity.lookup b.entities) raw = .ok content ∧
      b' = b.appendLeaf (.text (String.ofList content)) := by
  obtain ⟨content, hcontent, -, -, hb'⟩ := exists_of_takeText h
  exact ⟨content, hcontent, hb'⟩

theorem checks_of_takeCdata (h : b.takeCdata content = .ok b') :
    b.frames ≠ [] ∧ checkChars content = .ok () ∧
      b' = b.appendLeaf (.cdata (String.ofList content)) := by
  unfold takeCdata at h
  split at h
  · cases h
  · rename_i hframes
    obtain ⟨_, hchars, h⟩ := bind_eq_ok_iff.1 h
    cases h
    exact ⟨fun hnil ↦ hframes (by rw [hnil]; rfl), hchars, rfl⟩

theorem takeCdata_eq_ok (h : b.takeCdata content = .ok b') :
    b' = b.appendLeaf (.cdata (String.ofList content)) :=
  (checks_of_takeCdata h).2.2

theorem checks_of_takeComment (h : b.takeComment content = .ok b') :
    checkChars content = .ok () ∧ b' = b.appendLeaf (.comment (String.ofList content)) := by
  unfold takeComment at h
  obtain ⟨_, hchars, h⟩ := bind_eq_ok_iff.1 h
  cases h
  exact ⟨hchars, rfl⟩

theorem takeComment_eq_ok (h : b.takeComment content = .ok b') :
    b' = b.appendLeaf (.comment (String.ofList content)) :=
  (checks_of_takeComment h).2

theorem takeDoctype_eq_ok (h : b.takeDoctype content = .ok b') :
    b.rootSeen = false ∧ b.doctypeSeen = false ∧
      b' = { b with
        tree := b.tree.append root
          (.doctype (String.ofList (doctypeName content)) (String.ofList content))
        entities := Entity.declared content
        doctypeSeen := true } := by
  unfold takeDoctype at h
  split at h
  · cases h
  · rename_i hseen
    simp only [Bool.or_eq_true, not_or, Bool.not_eq_true] at hseen
    cases h
    exact ⟨hseen.1, hseen.2, rfl⟩

theorem takeCloseTag_eq_ok (h : b.takeCloseTag written = .ok b') :
    ∃ frame frames, b.frames = frame :: frames ∧ frame.name = written ∧
      b' = { b with frames, scope := frame.outer } := by
  unfold takeCloseTag at h
  split at h
  · cases h
  · rename_i frame frames hframes
    split at h
    · rename_i hname
      cases h
      exact ⟨frame, frames, hframes, hname, rfl⟩
    · cases h

/-- Declarations and instructions leave no trace in the tree. -/
theorem take_eq_ok_of_isInstruction {form : Form} (h : b.take ⟨start, raw, form⟩ = .ok b')
    (hform : form = .declaration ∨ form = .instruction) : b' = b := by
  rcases hform with rfl | rfl
  · rw [take] at h
    dsimp only at h
    split at h
    · exact (Except.ok.inj h).symm
    · cases h
  · exact (Except.ok.inj h).symm

theorem checks_of_addElement {attrs : List (QName × List Char)}
    (h : b.addElement name attrs = .ok b') :
    (b.frames = [] → b.rootSeen = false) ∧
      attrs.forM (fun attr ↦ checkChars attr.2) = .ok () ∧
      b' = { b with
        tree := b.tree.appendElement b.parent name
          (attrs.map fun attr ↦ (attr.1, String.ofList attr.2))
        rootSeen := true } := by
  unfold addElement at h
  split at h
  · cases h
  · rename_i hroot
    obtain ⟨_, hchars, h⟩ := bind_eq_ok_iff.1 h
    cases h
    exact ⟨fun hframes ↦ by simpa [hframes] using hroot, hchars, rfl⟩

theorem addElement_eq_ok {attrs : List (QName × List Char)} (h : b.addElement name attrs = .ok b') :
    b' = { b with
      tree := b.tree.appendElement b.parent name
        (attrs.map fun attr ↦ (attr.1, String.ofList attr.2))
      rootSeen := true } :=
  (checks_of_addElement h).2.2

/-- The stages of taking an opening tag. -/
theorem stages_of_takeOpenTag (h : b.takeOpenTag start stop content selfClosing = .ok b') :
    ∃ scope name attrs next,
      b.scope.enter (RawAttribute.readAll false []
        (Text.byteSize (content.takeWhile (!Text.isXmlBlank ·)))
        (content.dropWhile (!Text.isXmlBlank ·))).1 = .ok scope ∧
      elementName b.tree.mode scope (content.takeWhile (!Text.isXmlBlank ·)) = .ok name ∧
      b.readAttributes scope (RawAttribute.readAll true []
        (Text.byteSize (content.takeWhile (!Text.isXmlBlank ·)))
        (content.dropWhile (!Text.isXmlBlank ·))) = .ok attrs ∧
      b.addElement name attrs = .ok next ∧
      b' = if selfClosing then next else { next with
        frames := ⟨b.tree.size, content.takeWhile (!Text.isXmlBlank ·), b.scope⟩ :: b.frames
        scope := scope } := by
  unfold takeOpenTag at h
  dsimp only at h
  split at h
  case h_2 => cases h
  rename_i scope henter
  obtain ⟨_, hscope, h⟩ := bind_eq_ok_iff.1 h
  cases hscope
  obtain ⟨name, hname, h⟩ := bind_eq_ok_iff.1 h
  obtain ⟨attrs, hattrs, h⟩ := bind_eq_ok_iff.1 h
  obtain ⟨next, hnext, h⟩ := bind_eq_ok_iff.1 h
  refine ⟨scope, name, attrs, next, henter, reportAt_eq_ok_iff.1 hname,
    reportAt_eq_ok_iff.1 hattrs, reportAt_eq_ok_iff.1 hnext, ?_⟩
  split at h
  · cases h
    rw [if_pos (by assumption)]
  · cases h
    rw [if_neg (by assumption)]

theorem exists_of_takeOpenTag (h : b.takeOpenTag start stop content selfClosing = .ok b') :
    ∃ scope name attrs next,
      elementName b.tree.mode scope (content.takeWhile (!Text.isXmlBlank ·)) = .ok name ∧
      b.readAttributes scope (RawAttribute.readAll true []
        (Text.byteSize (content.takeWhile (!Text.isXmlBlank ·)))
        (content.dropWhile (!Text.isXmlBlank ·))) = .ok attrs ∧
      b.addElement name attrs = .ok next ∧
      b' = if selfClosing then next else { next with
        frames := ⟨b.tree.size, content.takeWhile (!Text.isXmlBlank ·), b.scope⟩ :: b.frames
        scope := scope } := by
  obtain ⟨scope, name, attrs, next, -, hrest⟩ := stages_of_takeOpenTag h
  exact ⟨scope, name, attrs, next, hrest⟩

/-- The name and the attributes of a tag go into the tree as they are written. -/
theorem takeOpenTag_eq_ok (h : b.takeOpenTag start stop content selfClosing = .ok b') :
    ∃ scope name raws attrs,
      name.written = String.ofList (content.takeWhile (!Text.isXmlBlank ·)) ∧
      RawAttribute.readAll true [] (Text.byteSize (content.takeWhile (!Text.isXmlBlank ·)))
        (content.dropWhile (!Text.isXmlBlank ·)) = (raws, none) ∧
      List.Forall₂ (Reads b.entities) raws attrs ∧
      b' = { b with
        tree := b.tree.appendElement b.parent name
          (attrs.map fun attr ↦ (attr.1, String.ofList attr.2))
        rootSeen := true
        frames := if selfClosing then b.frames else
          ⟨b.tree.size, content.takeWhile (!Text.isXmlBlank ·), b.scope⟩ :: b.frames
        scope := if selfClosing then b.scope else scope } := by
  obtain ⟨scope, name, attrs, next, hname, hattrs, hnext, rfl⟩ := exists_of_takeOpenTag h
  obtain ⟨hfault, hreads⟩ := forall₂_of_readAttributes hattrs
  refine ⟨scope, name, _, attrs, written_of_elementName hname, Prod.ext rfl hfault, hreads, ?_⟩
  rw [addElement_eq_ok hnext]
  cases selfClosing <;> rfl

/-! ## All pieces -/

/-- What holds of the state of building between any two pieces. -/
structure Sound (b : Builder) : Prop where
  linked : b.tree.Linked
  owned : b.tree.Owned
  isElement : ∀ frame ∈ b.frames, b.tree.isElement frame.node
  rootSeen : b.frames ≠ [] → b.rootSeen = true
  doctypeSeen : ∀ {id name raw}, b.tree.kind? id = some (.doctype name raw) →
    b.doctypeSeen = true
  doctype_unique : ∀ {id id' name name' raw raw'}, b.tree.kind? id = some (.doctype name raw) →
    b.tree.kind? id' = some (.doctype name' raw') → id = id'

theorem lt_size_of_isElement (h : tree.isElement id) : id < tree.size := by
  obtain ⟨name, attrs, hkind⟩ := exists_kind_of_isElement h
  exact lt_size_of_kind? hkind

theorem sound_initial (mode : NamespaceMode) : (initial mode).Sound where
  linked := linked_empty mode
  owned := owned_empty mode
  isElement _ h := by cases h
  rootSeen h := absurd rfl h
  doctypeSeen {id _ _} h := by
    cases id <;> cases h
  doctype_unique {id _ _ _ _ _} h := by
    cases id <;> cases h

namespace Sound

theorem parent (h : b.Sound) : b.parent = root ∨ b.tree.isElement b.parent := by
  unfold Builder.parent
  split
  · rename_i frame _ hframes
    exact Or.inr (h.isElement frame (by simp [hframes]))
  · exact Or.inl rfl

theorem parent_lt (h : b.Sound) : b.parent < b.tree.size := by
  rcases h.parent with hroot | helement
  · rw [hroot]
    exact h.linked.root_lt_size
  · exact lt_size_of_isElement helement

/-- The document is the parent of what comes before the root. -/
theorem parent_eq_root (h : b.Sound) (hseen : b.rootSeen = false) : b.parent = root := by
  unfold Builder.parent
  split
  · rename_i frame frames hframes
    have := h.rootSeen (by simp [hframes])
    rw [hseen] at this
    cases this
  · rfl

theorem appendLeaf (h : b.Sound) (hdocument : kind ≠ .document)
    (helement : ∀ name attrs, kind ≠ .element name attrs)
    (hdoctype : ∀ name raw, kind ≠ .doctype name raw) : (b.appendLeaf kind).Sound := by
  have hold : ∀ {id name raw}, (b.appendLeaf kind).tree.kind? id = some (.doctype name raw) →
      b.tree.kind? id = some (.doctype name raw) := by
    intro id name raw hid
    unfold Builder.appendLeaf at hid
    rw [kind?_append] at hid
    split at hid
    · exact absurd (Option.some.inj hid) (hdoctype _ _)
    · exact hid
  exact {
    linked := linked_append h.linked h.parent_lt h.parent hdocument
    owned := owned_append h.owned helement
    isElement := fun frame hframe ↦ isElement_append (h.isElement frame hframe)
    rootSeen := h.rootSeen
    doctypeSeen := fun hid ↦ h.doctypeSeen (hold hid)
    doctype_unique := fun hid hid' ↦ h.doctype_unique (hold hid) (hold hid') }

theorem takeDoctype (h : b.Sound) (ht : b.takeDoctype content = .ok b') : b'.Sound := by
  obtain ⟨hroot, hseen, rfl⟩ := takeDoctype_eq_ok ht
  have hnone : ∀ {id name raw}, b.tree.kind? id ≠ some (.doctype name raw) := by
    intro id name raw hid
    rw [h.doctypeSeen hid] at hseen
    cases hseen
  -- A second declaration is a fault, so the new one is the only one.
  have hnew : ∀ {id name raw kind}, (b.tree.append root kind).kind? id = some (.doctype name raw) →
      id = b.tree.size := by
    intro id name raw kind hid
    rw [kind?_append] at hid
    split at hid
    · assumption
    · exact absurd hid hnone
  exact {
    linked := linked_append h.linked h.linked.root_lt_size (Or.inl rfl) (by simp)
    owned := owned_append h.owned (by simp)
    isElement := fun frame hframe ↦ isElement_append (h.isElement frame hframe)
    rootSeen := h.rootSeen
    doctypeSeen := fun _ ↦ rfl
    doctype_unique := fun hid hid' ↦ (hnew hid).trans (hnew hid').symm }

theorem takeCloseTag (h : b.Sound) (ht : b.takeCloseTag written = .ok b') : b'.Sound := by
  obtain ⟨frame, frames, hframes, -, rfl⟩ := takeCloseTag_eq_ok ht
  refine ⟨h.linked, h.owned, ?_, ?_, h.doctypeSeen, h.doctype_unique⟩
  · intro inner hinner
    exact h.isElement inner (by rw [hframes]; exact List.mem_cons_of_mem _ hinner)
  · intro _
    exact h.rootSeen (by simp [hframes])

theorem takeOpenTag (h : b.Sound) (ht : b.takeOpenTag start stop content selfClosing = .ok b') :
    b'.Sound := by
  obtain ⟨scope, name, raws, attrs, -, -, -, rfl⟩ := takeOpenTag_eq_ok ht
  have hold : ∀ {id name' raw attrs'},
      (b.tree.appendElement b.parent name attrs').kind? id = some (.doctype name' raw) →
      b.tree.kind? id = some (.doctype name' raw) := by
    intro id name' raw attrs' hid
    rw [kind?_appendElement] at hid
    split at hid
    · cases hid
    · exact hid
  refine ⟨linked_appendElement h.linked h.parent_lt h.parent _ _,
    owned_appendElement h.owned _ _, ?_, fun _ ↦ rfl, fun hid ↦ h.doctypeSeen (hold hid),
    fun hid hid' ↦ h.doctype_unique (hold hid) (hold hid')⟩
  intro frame hframe
  have hcases : frame ∈ b.frames ∨ frame.node = b.tree.size := by
    dsimp only at hframe
    split at hframe
    · exact Or.inl hframe
    · rcases List.mem_cons.1 hframe with rfl | hframe
      · exact Or.inr rfl
      · exact Or.inl hframe
  rcases hcases with hframe | hnode
  · exact isElement_append (h.isElement frame hframe)
  · simp [Tree.isElement, name?, kind?_appendElement, hnode]

/-- What one piece does to a state, whatever it is. -/
theorem take {piece : Piece} (h : b.Sound) (ht : b.take piece = .ok b') :
    b'.Sound ∧ b.tree.Extends b'.tree := by
  unfold Builder.take at ht
  split at ht
  · obtain ⟨text, -, rfl⟩ := takeText_eq_ok ht
    exact ⟨h.appendLeaf (by simp) (by simp) (by simp), extends_append _ h.parent_lt _⟩
  · have hsound := h.takeOpenTag ht
    obtain ⟨scope, name, raws, attrs, -, -, -, rfl⟩ := takeOpenTag_eq_ok ht
    exact ⟨hsound, extends_appendElement _ h.parent_lt _ _⟩
  · have ht := reportAt_eq_ok_iff.1 ht
    have hsound := h.takeCloseTag ht
    obtain ⟨frame, frames, -, -, rfl⟩ := takeCloseTag_eq_ok ht
    exact ⟨hsound, Extends.refl _⟩
  · rw [takeComment_eq_ok (reportAt_eq_ok_iff.1 ht)]
    exact ⟨h.appendLeaf (by simp) (by simp) (by simp), extends_append _ h.parent_lt _⟩
  · rw [takeCdata_eq_ok (reportAt_eq_ok_iff.1 ht)]
    exact ⟨h.appendLeaf (by simp) (by simp) (by simp), extends_append _ h.parent_lt _⟩
  · have ht := reportAt_eq_ok_iff.1 ht
    have hsound := h.takeDoctype ht
    obtain ⟨-, -, rfl⟩ := takeDoctype_eq_ok ht
    exact ⟨hsound, extends_append _ h.linked.root_lt_size _⟩
  · split at ht
    · cases ht
      exact ⟨h, Extends.refl _⟩
    · cases ht
  · cases ht
    exact ⟨h, Extends.refl _⟩

theorem foldlM {pieces : List Piece} (h : b.Sound) (hrun : pieces.foldlM Builder.take b = .ok b') :
    b'.Sound ∧ b.tree.Extends b'.tree := by
  refine foldlM_induction (P := fun c ↦ c.Sound ∧ b.tree.Extends c.tree)
    (fun c piece c' hc htake ↦ ?_) ⟨h, Extends.refl _⟩ hrun
  obtain ⟨hsound, hextends⟩ := hc.1.take htake
  exact ⟨hsound, hc.2.trans hextends⟩

end Sound

theorem finish_eq_ok (h : b.finish = .ok tree) : b.frames = [] ∧ b.rootSeen ∧ b.tree = tree := by
  unfold finish at h
  split at h
  · cases h
  · rename_i hframes
    split at h
    · rename_i hseen
      exact ⟨hframes, hseen, Except.ok.inj h⟩
    · cases h

end Builder

/-! ## Built trees -/

/-- The run of pieces behind a built tree. -/
theorem exists_run_of_build {mode : NamespaceMode} {body : List Char}
    (h : build mode body = .ok tree) :
    ∃ pieces b, Markup.Piece.cutAll 0
        (if body.head? = some Text.byteOrderMark then body.drop 1 else body) = (pieces, none) ∧
      pieces.foldlM Builder.take (.initial mode) = .ok b ∧
      b.frames = [] ∧ b.rootSeen ∧ b.tree = tree := by
  unfold build at h
  dsimp only at h
  obtain ⟨b, hrun, h⟩ := bind_eq_ok_iff.1 h
  split at h
  · cases h
  · rename_i hfault
    exact ⟨_, b, Prod.ext rfl hfault, hrun, Builder.finish_eq_ok (Builder.reportAt_eq_ok_iff.1 h)⟩

/-- The links of a built tree agree, and its attributes belong to their elements. -/
theorem linked_of_build {mode : NamespaceMode} {body : List Char} (h : build mode body = .ok tree) :
    tree.Linked ∧ tree.Owned := by
  obtain ⟨pieces, b, -, hrun, -, -, rfl⟩ := exists_run_of_build h
  have hsound := ((Builder.sound_initial mode).foldlM hrun).1
  exact ⟨hsound.linked, hsound.owned⟩

/-- A built tree has at most one document type declaration. -/
theorem doctype_unique_of_build {mode : NamespaceMode} {body : List Char} {id id' : NodeId}
    {name name' raw raw' : String} (h : build mode body = .ok tree)
    (hid : tree.kind? id = some (.doctype name raw))
    (hid' : tree.kind? id' = some (.doctype name' raw')) : id = id' := by
  obtain ⟨pieces, b, -, hrun, -, -, rfl⟩ := exists_run_of_build h
  exact ((Builder.sound_initial mode).foldlM hrun).1.doctype_unique hid hid'

end Tree

end XmlInspect
