import XmlInspect.Proofs.Shown

/-!
# Well-formed documents

Most rules of well-formedness are about one node, and are checked before the node is added: the
characters of its text, the names that need a namespace, the attributes that a tag repeats. A rule
about the document as a whole is checked by what is remembered of the pieces so far: whether an
element is open and whether the root was seen. What these mean for the tree is the invariant here;
that the checks suffice follows piece by piece.
-/

namespace XmlInspect

open Markup

/-! ## The rules -/

/-- The characters of XML 1.0. -/
def IsXmlChar (c : Char) : Prop :=
  c.toNat = 0x9 ∨ c.toNat = 0xA ∨ c.toNat = 0xD ∨ (0x20 ≤ c.toNat ∧ c.toNat ≤ 0xD7FF) ∨
    (0xE000 ≤ c.toNat ∧ c.toNat ≤ 0xFFFD) ∨ (0x10000 ≤ c.toNat ∧ c.toNat ≤ 0x10FFFF)

/-- Where namespaces are resolved, a name with a qualifier has one. -/
def QName.Resolved (mode : NamespaceMode) (name : QName) : Prop :=
  mode = .aware → name.qualifier.isSome → name.namespaceUri.isSome

/-- A node may be in a document. -/
def NodeKind.Legal (mode : NamespaceMode) : NodeKind → Prop
  | .text content | .cdata content | .comment content => ∀ c ∈ content.toList, IsXmlChar c
  | .element name _ => name.Resolved mode
  | .document | .doctype _ _ => True

/-- A node may stand beside the root element. -/
def NodeKind.Outside : NodeKind → Prop
  | .text content => ∀ c ∈ content.toList, c = ' ' ∨ c = '\t' ∨ c = '\n' ∨ c = '\r'
  | .cdata _ => False
  | _ => True

def NodeKind.isElement : NodeKind → Bool
  | .element _ _ => true
  | _ => false

/-- An attribute may be in a document. -/
structure Attribute.Legal (mode : NamespaceMode) (attr : Attribute) : Prop where
  value : ∀ c ∈ attr.value.toList, IsXmlChar c
  name : attr.name.Resolved mode

/-- The document has one element, and a document type declaration comes before it. -/
def Tree.Rooted (tree : Tree) : Prop :=
  ∃ front element rest, tree.children root = front ++ element :: rest ∧
    tree.isElement element ∧ (∀ id ∈ front ++ rest, ¬ tree.isElement id) ∧
    ∀ id name raw, tree.kind? id = some (.doctype name raw) → id ∈ front

/-- The rules that a tree has to follow. -/
structure Tree.WellFormed (mode : NamespaceMode) (tree : Tree) : Prop where
  rooted : tree.Rooted
  doctype_unique : ∀ {id id' name name' raw raw'}, tree.kind? id = some (.doctype name raw) →
    tree.kind? id' = some (.doctype name' raw') → id = id'
  outside : ∀ id ∈ tree.children root, ∀ kind, tree.kind? id = some kind → kind.Outside
  legal : ∀ id kind, tree.kind? id = some kind → kind.Legal mode
  attr_legal : ∀ a attr, tree.attr? a = some attr → attr.Legal mode
  /-- No attribute is written twice in a tag. -/
  distinct : ∀ id, ((tree.attributesOf id).map tree.writtenAttr?).Nodup

/-! ## What the checks say -/

private theorem eq_ok_of_forM {ε α : Type} {f : α → Except ε Unit} {l : List α}
    (h : l.forM f = .ok ()) : ∀ a ∈ l, f a = .ok () := by
  induction l with
  | nil => simp
  | cons a l ih =>
    obtain ⟨⟨⟩, ha, hl⟩ := bind_eq_ok_iff.1 h
    exact List.forall_mem_cons.2 ⟨ha, ih hl⟩

namespace Tree

theorem isXmlChar_iff {c : Char} : isXmlChar c = true ↔ IsXmlChar c := by
  have hvalid : c.toNat < 0xD800 ∨ 0xDFFF < c.toNat ∧ c.toNat < 0x110000 := c.valid
  simp only [isXmlChar, IsXmlChar, Bool.or_eq_true, Bool.and_eq_true, beq_iff_eq, decide_eq_true_eq]
  omega

theorem checkChars_eq_ok {text : List Char} (h : checkChars text = .ok ()) :
    ∀ c ∈ text, IsXmlChar c := by
  intro c hc
  unfold checkChars at h
  split at h
  · cases h
  · rename_i hfind
    have := List.find?_eq_none.1 hfind c hc
    exact isXmlChar_iff.1 (by simpa using this)

end Tree

theorem Text.eq_of_isXmlBlank {c : Char} (h : isXmlBlank c = true) :
    c = ' ' ∨ c = '\t' ∨ c = '\n' ∨ c = '\r' := by
  simpa [isXmlBlank, or_assoc] using h

namespace Markup

/-- A qualifier is bound or a fault. -/
theorem Scope.resolve_ne_unbound (scope : Scope) (qualifier : List Char) :
    scope.resolve (some qualifier) ≠ .unbound := by
  unfold resolve
  split
  case h_1 heq => cases heq
  case h_2 => simp
  case h_3 =>
    split
    · split <;> simp
    · simp

namespace RawAttribute

variable {seen raws : List RawAttribute} {raw : RawAttribute} {offset stop : Nat} {first : Char}
  {text rest : List Char} {fault : Option AttributeFault}

private theorem key_notMem_of_read (h : read true seen offset first text = .ok (raw, stop, rest)) :
    raw.key ∉ seen.map (·.key) := by
  unfold read at h
  dsimp only at h
  split at h
  · split at h
    · cases h
    · rename_i hearlier
      split at h
      · cases h
        simpa [earlier?] using hearlier
      · cases h
  · cases h

/-- Attributes that have to be unique have other keys than each other and than those before. -/
theorem nodup_of_readAll (h : readAll true seen offset text = (raws, fault)) :
    (raws.map (·.key)).Nodup ∧ ∀ raw ∈ raws, raw.key ∉ seen.map (·.key) := by
  fun_induction readAll true seen offset text generalizing raws with
  | case1 =>
    cases h
    exact ⟨.nil, by simp⟩
  | case2 =>
    cases h
    exact ⟨.nil, by simp⟩
  | case3 seen _ _ _ _ _ _ raw _ _ hread _ raws' _ hrest ih =>
    cases h
    obtain ⟨hnodup, hseen⟩ := ih hrest
    have hlater : ∀ raw' ∈ raws', raw'.key ∉ seen.map (·.key) ∧ raw'.key ≠ raw.key := by
      intro raw' hraw'
      simpa [not_or] using hseen raw' hraw'
    constructor
    · refine List.nodup_cons.2 ⟨?_, hnodup⟩
      intro hmem
      obtain ⟨raw', hraw', hkey⟩ := List.mem_map.1 hmem
      exact (hlater raw' hraw').2 hkey
    · intro raw' hraw'
      rcases List.mem_cons.1 hraw' with rfl | hraw'
      · exact key_notMem_of_read hread
      · exact (hlater raw' hraw').1

end RawAttribute

end Markup

namespace Tree

namespace Builder

variable {b b' : Builder} {mode : NamespaceMode} {scope : Scope} {name : QName}
  {written content raw : List Char} {start stop : Nat} {selfClosing : Bool}

theorem exists_qualifierOf (h : (QName.ofWritten written).qualifier.isSome) :
    ∃ qualifier, qualifierOf written = some qualifier := by
  unfold QName.ofWritten at h
  unfold qualifierOf
  split at h
  · rename_i hcut
    rw [hcut]
    exact ⟨_, rfl⟩
  · cases h

private theorem resolved_of_elementName (h : elementName mode scope written = .ok name) :
    name.Resolved mode := by
  rintro rfl hqualifier
  unfold elementName at h
  dsimp only at h
  split at h
  · cases h
    rfl
  · rename_i hresolve
    cases h
    obtain ⟨qualifier, heq⟩ := exists_qualifierOf hqualifier
    rw [heq] at hresolve
    exact absurd hresolve (scope.resolve_ne_unbound qualifier)
  · cases h

private theorem resolved_of_attributeName (h : attributeName mode scope written = .ok name) :
    name.Resolved mode := by
  rintro rfl hqualifier
  unfold attributeName at h
  dsimp only at h
  split at h
  · cases h
    rfl
  · split at h
    · rename_i hnone
      cases h
      obtain ⟨qualifier, heq⟩ := exists_qualifierOf hqualifier
      rw [hnone] at heq
      cases heq
    · split at h
      · cases h
        rfl
      · rename_i hresolve
        exact absurd hresolve (scope.resolve_ne_unbound _)
      · cases h

private theorem resolved_of_readAttributes {raws : List RawAttribute}
    {fault : Option AttributeFault}
    {attrs : List (QName × List Char)} (h : b.readAttributes scope (raws, fault) = .ok attrs) :
    ∀ attr ∈ attrs, attr.1.Resolved b.tree.mode := by
  intro attr hattr
  obtain ⟨raw, -, hname, -⟩ :=
    exists_of_forall₂_of_mem (List.Forall₂.flip (readAttributes_eq_ok h).2) hattr
  exact resolved_of_attributeName hname

/-- The names of attributes are distinct if the keys are. -/
theorem nodup_of_readAttributes {raws : List RawAttribute} {fault : Option AttributeFault}
    {attrs : List (QName × List Char)} (hkeys : (raws.map (·.key)).Nodup)
    (h : b.readAttributes scope (raws, fault) = .ok attrs) :
    (attrs.map (·.1.written)).Nodup := by
  have hwritten : attrs.map (·.1.written) = (raws.map (·.key)).map String.ofList := by
    rw [List.map_map, ← List.forall₂_eq_eq_eq, List.forall₂_map_left_iff,
      List.forall₂_map_right_iff]
    exact List.Forall₂.flip ((forall₂_of_readAttributes h).2.imp fun _ _ hread ↦ hread.1)
  rw [hwritten, List.Nodup, List.pairwise_map]
  exact List.Pairwise.imp (fun hne heq ↦ hne (String.ofList_inj.1 heq)) hkeys

/-! ## One piece -/

/-- A node is added with attributes, and both were checked. -/
structure AddsChecked (b : Builder) (kind : NodeKind) (added : List Attribute) (b' : Builder) :
    Prop where
  adds : b.Adds kind b'
  mode : b'.tree.mode = b.tree.mode
  attributes : b'.tree.attributes = b.tree.attributes ++ added
  rootSeen : b'.rootSeen = (b.rootSeen || kind.isElement)
  legal : kind.Legal b.tree.mode
  outside : b.parent = root → kind.Outside
  /-- There is no second root. -/
  element : b.parent = root → kind.isElement → b.rootSeen = false
  /-- A document type declaration is not late. -/
  doctype : ∀ name raw, kind = .doctype name raw → b.rootSeen = false
  owner : ∀ attr ∈ added, attr.owner = b.tree.size
  attr_legal : ∀ attr ∈ added, attr.Legal b.tree.mode
  distinct : (added.map (·.name.written)).Nodup

theorem Sound.frames_eq_nil (h : b.Sound) (hparent : b.parent = root) : b.frames = [] := by
  cases hframes : b.frames with
  | nil => rfl
  | cons frame frames =>
    rw [Builder.parent, hframes] at hparent
    have helement := h.isElement frame (by simp [hframes])
    rw [show frame.node = root from hparent, Tree.isElement, name?, h.linked.kind?_root] at helement
    cases helement

/-- A leaf is added as soon as its text was checked. -/
theorem addsChecked_appendLeaf {kind : NodeKind} (hsound : b.Sound)
    (hlegal : kind.Legal b.tree.mode) (houtside : b.frames = [] → kind.Outside)
    (helement : kind.isElement = false) (hdoctype : ∀ name raw, kind ≠ .doctype name raw) :
    b.AddsChecked kind [] (b.appendLeaf kind) where
  adds := adds_appendLeaf b kind
  mode := rfl
  attributes := by simp [appendLeaf, append]
  rootSeen := by simp [appendLeaf, helement]
  legal := hlegal
  outside hparent := houtside (hsound.frames_eq_nil hparent)
  element _ h := by simp [helement] at h
  doctype name raw h := absurd h (hdoctype name raw)
  owner := by simp
  attr_legal := by simp
  distinct := .nil

private theorem takeText_checked (hsound : b.Sound) (h : b.takeText start stop raw = .ok b') :
    ∃ kind added, b.AddsChecked kind added b' := by
  obtain ⟨text, -, hblank, hchars, rfl⟩ := exists_of_takeText h
  refine ⟨_, [], addsChecked_appendLeaf hsound ?_ ?_ rfl (by simp)⟩
  · simpa [NodeKind.Legal] using checkChars_eq_ok hchars
  · intro hframes
    have hall := List.all_eq_true.1 (hblank hframes)
    simpa [NodeKind.Outside] using fun c hc ↦ Text.eq_of_isXmlBlank (hall c hc)

private theorem takeCdata_checked (hsound : b.Sound) (h : b.takeCdata content = .ok b') :
    ∃ kind added, b.AddsChecked kind added b' := by
  obtain ⟨hframes, hchars, rfl⟩ := checks_of_takeCdata h
  refine ⟨_, [], addsChecked_appendLeaf hsound ?_ (fun hnil ↦ absurd hnil hframes) rfl (by simp)⟩
  simpa [NodeKind.Legal] using checkChars_eq_ok hchars

private theorem takeComment_checked (hsound : b.Sound) (h : b.takeComment content = .ok b') :
    ∃ kind added, b.AddsChecked kind added b' := by
  obtain ⟨hchars, rfl⟩ := checks_of_takeComment h
  refine ⟨_, [], addsChecked_appendLeaf hsound ?_ (fun _ ↦ trivial) rfl (by simp)⟩
  simpa [NodeKind.Legal] using checkChars_eq_ok hchars

private theorem takeDoctype_checked (hsound : b.Sound) (h : b.takeDoctype content = .ok b') :
    ∃ kind added, b.AddsChecked kind added b' := by
  have hadds := adds_of_takeDoctype hsound h
  obtain ⟨hseen, -, rfl⟩ := takeDoctype_eq_ok h
  refine ⟨_, [], {
    adds := hadds
    mode := rfl
    attributes := by simp [append]
    rootSeen := by simp [NodeKind.isElement]
    legal := trivial
    outside := fun _ ↦ trivial
    element := fun _ h ↦ by cases h
    doctype := fun _ _ _ ↦ hseen
    owner := by simp
    attr_legal := by simp
    distinct := .nil }⟩

private theorem takeOpenTag_checked (hsound : b.Sound)
    (h : b.takeOpenTag start stop content selfClosing = .ok b') :
    ∃ kind added, b.AddsChecked kind added b' := by
  obtain ⟨scope, name, attrs, next, hname, hattrs, hnext, rfl⟩ := exists_of_takeOpenTag h
  generalize hraws : RawAttribute.readAll true [] _ _ = raws at hattrs
  obtain ⟨raws, fault⟩ := raws
  obtain ⟨hroot, hchars, heq⟩ := checks_of_addElement hnext
  have hdistinct := nodup_of_readAttributes (RawAttribute.nodup_of_readAll hraws).1 hattrs
  have hresolved := resolved_of_readAttributes hattrs
  have htree := congrArg tree heq
  have hseen := congrArg Builder.rootSeen heq
  refine ⟨_, attrs.map fun attr ↦ ⟨attr.1, String.ofList attr.2, b.tree.size⟩, {
    adds := adds_appendElement (by split <;> exact htree)
    mode := by split <;> exact (congrArg Tree.mode htree).trans rfl
    attributes := by
      split <;> simpa [appendElement, Function.comp_def] using congrArg Tree.attributes htree
    rootSeen := by split <;> simpa [NodeKind.isElement] using hseen
    legal := resolved_of_elementName hname
    outside := fun _ ↦ trivial
    element := fun hparent _ ↦ hroot (hsound.frames_eq_nil hparent)
    doctype := fun _ _ h ↦ by cases h
    owner := List.forall_mem_map.2 fun _ _ ↦ rfl
    attr_legal := List.forall_mem_map.2 fun attr hattr ↦
      ⟨by simpa using checkChars_eq_ok (eq_ok_of_forM hchars attr hattr), hresolved attr hattr⟩
    distinct := by simpa [Function.comp_def] using hdistinct }⟩

/-- A piece that is taken adds a node that was checked, or nothing. -/
theorem take_checked {piece : Piece} (hsound : b.Sound) (h : b.take piece = .ok b') :
    (∃ kind added, b.AddsChecked kind added b') ∨
      b'.tree = b.tree ∧ b'.rootSeen = b.rootSeen := by
  unfold take at h
  split at h
  · exact .inl (takeText_checked hsound h)
  · exact .inl (takeOpenTag_checked hsound h)
  · obtain ⟨frame, frames, -, -, rfl⟩ := takeCloseTag_eq_ok (reportAt_eq_ok_iff.1 h)
    exact .inr ⟨rfl, rfl⟩
  · exact .inl (takeComment_checked hsound (reportAt_eq_ok_iff.1 h))
  · exact .inl (takeCdata_checked hsound (reportAt_eq_ok_iff.1 h))
  · exact .inl (takeDoctype_checked hsound (reportAt_eq_ok_iff.1 h))
  · split at h
    · cases h
      exact .inr ⟨rfl, rfl⟩
    · cases h
  · cases h
    exact .inr ⟨rfl, rfl⟩

end Builder

/-! ## All pieces -/

/-- What is there of the document so far, if its element was seen or not. -/
def Outline (tree : Tree) : Bool → Prop
  | true => tree.Rooted
  | false => (∀ id ∈ tree.children root, ¬ tree.isElement id) ∧
    ∀ id name raw, tree.kind? id = some (.doctype name raw) → id ∈ tree.children root

theorem isElement_of_kind? {tree : Tree} {id : NodeId} {kind : NodeKind}
    (h : tree.kind? id = some kind) : tree.isElement id = kind.isElement := by
  rw [Tree.isElement, name?, h]
  cases kind <;> rfl

namespace Builder

variable {b b' : Builder} {mode : NamespaceMode} {kind : NodeKind} {added : List Attribute}

/-- What holds between any two pieces because of the checks. -/
structure Checked (mode : NamespaceMode) (b : Builder) : Prop where
  mode_eq : b.tree.mode = mode
  outline : b.tree.Outline b.rootSeen
  outside : ∀ id ∈ b.tree.children root, ∀ kind, b.tree.kind? id = some kind → kind.Outside
  legal : ∀ id kind, b.tree.kind? id = some kind → kind.Legal mode
  attr_legal : ∀ attr ∈ b.tree.attributes.toList, attr.Legal mode
  distinct : b.tree.attributes.toList.Pairwise fun attr attr' ↦
    attr.owner = attr'.owner → attr.name.written ≠ attr'.name.written

theorem checked_initial (mode : NamespaceMode) : (initial mode).Checked mode where
  mode_eq := rfl
  outline := by
    constructor
    · intro id h
      cases h
    · intro id name raw h
      cases id <;> cases h
  outside id h := by cases h
  legal id kind h := by
    cases id with
    | zero =>
      cases h
      trivial
    | succ id => cases h
  attr_legal _ h := by cases h
  distinct := .nil

theorem Adds.isElement_eq (h : b.Adds kind b') {id : NodeId} (hid : id < b.tree.size) :
    b'.tree.isElement id = b.tree.isElement id := by
  rw [Tree.isElement, name?, h.kind?_eq, if_neg (Nat.ne_of_lt hid)]
  rfl

theorem Adds.kind?_cases (h : b.Adds kind b') {id : NodeId} {kind' : NodeKind}
    (hid : b'.tree.kind? id = some kind') :
    id = b.tree.size ∧ kind' = kind ∨ b.tree.kind? id = some kind' := by
  rw [h.kind?_eq] at hid
  split at hid
  · exact .inl ⟨by assumption, (Option.some.inj hid).symm⟩
  · exact .inr hid

namespace AddsChecked

theorem isElement_new (h : b.AddsChecked kind added b') :
    b'.tree.isElement b.tree.size = kind.isElement :=
  isElement_of_kind? (by rw [h.adds.kind?_eq, if_pos rfl])

theorem not_isElement (h : b.AddsChecked kind added b') (hsound : b.Sound) {ids : List NodeId}
    (hids : ids ⊆ b.tree.children root) (hnone : ∀ id ∈ ids, ¬ b.tree.isElement id) :
    ∀ id ∈ ids, ¬ b'.tree.isElement id := by
  intro id hid
  rw [h.adds.isElement_eq (hsound.linked.lt_size_of_mem (hids hid))]
  exact hnone id hid

theorem not_isElement_concat (h : b.AddsChecked kind added b') (hsound : b.Sound)
    (hkind : kind.isElement = false) {ids : List NodeId} (hids : ids ⊆ b.tree.children root)
    (hnone : ∀ id ∈ ids, ¬ b.tree.isElement id) :
    ∀ id ∈ ids ++ [b.tree.size], ¬ b'.tree.isElement id := by
  refine List.forall_mem_append.2 ⟨h.not_isElement hsound hids hnone, ?_⟩
  rw [List.forall_mem_singleton, h.isElement_new, hkind]
  exact Bool.false_ne_true

/-- Before the root, what comes is one more thing in front of it or the root itself. -/
theorem outline_of_unseen (h : b.AddsChecked kind added b') (hsound : b.Sound)
    (hseen : b.rootSeen = false) (houtline : b.tree.Outline false) :
    b'.tree.Outline kind.isElement := by
  obtain ⟨hnone, hdoctype⟩ := houtline
  have hparent := hsound.parent_eq_root hseen
  have hchildren : b'.tree.children root = b.tree.children root ++ [b.tree.size] := by
    rw [h.adds.children_eq hsound, if_pos hparent, hparent]
  cases hkind : kind.isElement with
  | false =>
    refine ⟨?_, fun id name raw hid ↦ ?_⟩
    · rw [hchildren]
      exact h.not_isElement_concat hsound hkind (List.Subset.refl _) hnone
    · rw [hchildren, List.mem_append, List.mem_singleton]
      rcases h.adds.kind?_cases hid with ⟨rfl, -⟩ | hid
      · exact .inr rfl
      · exact .inl (hdoctype id name raw hid)
  | true =>
    refine ⟨b.tree.children root, b.tree.size, [], hchildren, h.isElement_new.trans hkind, ?_, ?_⟩
    · rw [List.append_nil]
      exact h.not_isElement hsound (List.Subset.refl _) hnone
    · intro id name raw hid
      rcases h.adds.kind?_cases hid with ⟨-, rfl⟩ | hid
      · cases hkind
      · exact hdoctype id name raw hid

/-- After the root, nothing comes that has to be in front of it, and no second one. -/
theorem rooted_of_seen (h : b.AddsChecked kind added b') (hsound : b.Sound)
    (hseen : b.rootSeen = true) (hrooted : b.tree.Rooted) : b'.tree.Rooted := by
  obtain ⟨front, element, rest, hsplit, helement, hnone, hdoctype⟩ := hrooted
  have hids : front ++ rest ⊆ b.tree.children root := by
    intro id hid
    rw [hsplit]
    grind
  have hdoctype' : ∀ id name raw, b'.tree.kind? id = some (.doctype name raw) → id ∈ front := by
    intro id name raw hid
    rcases h.adds.kind?_cases hid with ⟨-, hkind⟩ | hid
    · have hlate := h.doctype name raw hkind.symm
      rw [hseen] at hlate
      cases hlate
    · exact hdoctype id name raw hid
  have helement' : b'.tree.isElement element := by
    rw [h.adds.isElement_eq (hsound.linked.lt_size_of_mem (p := root) (by simp [hsplit]))]
    exact helement
  have hchildren := h.adds.children_eq hsound root
  by_cases hparent : b.parent = root
  · have hkind : kind.isElement = false := by
      by_contra hkind
      have hsecond := h.element hparent (by simpa using hkind)
      rw [hseen] at hsecond
      cases hsecond
    rw [if_pos hparent, hparent, hsplit] at hchildren
    refine ⟨front, element, rest ++ [b.tree.size], by simpa using hchildren, helement', ?_,
      hdoctype'⟩
    rw [← List.append_assoc]
    exact h.not_isElement_concat hsound hkind hids hnone
  · rw [if_neg hparent, hsplit] at hchildren
    exact ⟨front, element, rest, hchildren, helement', h.not_isElement hsound hids hnone,
      hdoctype'⟩

theorem outline (h : b.AddsChecked kind added b') (hsound : b.Sound)
    (houtline : b.tree.Outline b.rootSeen) : b'.tree.Outline b'.rootSeen := by
  rw [h.rootSeen]
  cases hseen : b.rootSeen with
  | false => exact h.outline_of_unseen hsound hseen (hseen ▸ houtline)
  | true =>
    rw [hseen] at houtline
    exact h.rooted_of_seen hsound hseen houtline

private theorem outside_root (h : b.AddsChecked kind added b') (hsound : b.Sound)
    (hchecked : b.Checked mode) :
    ∀ id ∈ b'.tree.children root, ∀ kind', b'.tree.kind? id = some kind' → kind'.Outside := by
  intro id hid kind' hkind
  rw [h.adds.children_eq hsound] at hid
  by_cases hparent : b.parent = root
  · rw [if_pos hparent, hparent] at hid
    rcases h.adds.kind?_cases hkind with ⟨-, rfl⟩ | hkind
    · exact h.outside hparent
    · rcases List.mem_append.1 hid with hid | hid
      · exact hchecked.outside id hid kind' hkind
      · exact absurd (lt_size_of_kind? hkind) (by simp [List.mem_singleton.1 hid])
  · rw [if_neg hparent] at hid
    rcases h.adds.kind?_cases hkind with ⟨rfl, -⟩ | hkind
    · exact absurd (hsound.linked.lt_size_of_mem hid) (Nat.lt_irrefl _)
    · exact hchecked.outside id hid kind' hkind

theorem checked (h : b.AddsChecked kind added b') (hsound : b.Sound)
    (hchecked : b.Checked mode) : b'.Checked mode where
  mode_eq := h.mode.trans hchecked.mode_eq
  outline := h.outline hsound hchecked.outline
  outside := h.outside_root hsound hchecked
  legal id kind' hkind := by
    rcases h.adds.kind?_cases hkind with ⟨-, rfl⟩ | hkind
    · exact hchecked.mode_eq ▸ h.legal
    · exact hchecked.legal id kind' hkind
  attr_legal := by
    rw [h.attributes, Array.toList_appendList]
    exact List.forall_mem_append.2 ⟨hchecked.attr_legal, hchecked.mode_eq ▸ h.attr_legal⟩
  distinct := by
    rw [h.attributes, Array.toList_appendList, List.pairwise_append]
    refine ⟨hchecked.distinct, ?_, ?_⟩
    · refine (List.pairwise_map.1 h.distinct).imp ?_
      intro attr attr' hne _
      exact hne
    · -- The owner of what was there before is older.
      intro attr hattr attr' hattr' howner
      obtain ⟨a, ha⟩ := List.getElem?_of_mem hattr
      obtain ⟨name, attrs, hkind⟩ := exists_kind_of_mem_attributesOf
        (hsound.owned.mem (by rwa [attr?, ← Array.getElem?_toList]))
      rw [howner, h.owner attr' hattr'] at hkind
      exact absurd (lt_size_of_kind? hkind) (Nat.lt_irrefl _)

end AddsChecked

namespace Checked

theorem take {piece : Piece} (h : b.Checked mode) (hsound : b.Sound)
    (ht : b.take piece = .ok b') : b'.Checked mode := by
  rcases take_checked hsound ht with ⟨kind, added, hadds⟩ | ⟨htree, hseen⟩
  · exact hadds.checked hsound h
  · exact ⟨htree ▸ h.mode_eq, htree ▸ hseen ▸ h.outline, htree ▸ h.outside, htree ▸ h.legal,
      htree ▸ h.attr_legal, htree ▸ h.distinct⟩

theorem foldlM {pieces : List Piece} (h : b.Checked mode) (hsound : b.Sound)
    (hrun : pieces.foldlM Builder.take b = .ok b') : b'.Checked mode :=
  (foldlM_induction (P := fun c ↦ c.Sound ∧ c.Checked mode)
    (fun _ _ _ hc htake ↦ ⟨(hc.1.take htake).1, hc.2.take hc.1 htake⟩) ⟨hsound, h⟩ hrun).2

end Checked

end Builder

/-! ## Finished trees -/

/-- Attributes are distinct within an element if they are wherever the owner is the same. -/
theorem Owned.nodup_written {tree : Tree} (h : tree.Owned)
    (hdistinct : tree.attributes.toList.Pairwise fun attr attr' ↦
      attr.owner = attr'.owner → attr.name.written ≠ attr'.name.written) (id : NodeId) :
    ((tree.attributesOf id).map tree.writtenAttr?).Nodup := by
  rw [List.Nodup, List.pairwise_map]
  refine (h.sorted id).imp_of_mem ?_
  intro a a' ha ha' hlt
  obtain ⟨attr, hattr, howner⟩ := h.owner ha
  obtain ⟨attr', hattr', howner'⟩ := h.owner ha'
  rw [writtenAttr?, writtenAttr?, hattr, hattr']
  rw [attr?, ← Array.getElem?_toList] at hattr hattr'
  obtain ⟨_, hget⟩ := List.getElem?_eq_some_iff.1 hattr
  obtain ⟨_, hget'⟩ := List.getElem?_eq_some_iff.1 hattr'
  have hne := List.pairwise_iff_getElem.1 hdistinct a a' ‹_› ‹_› hlt
  rw [hget, hget'] at hne
  exact fun heq ↦ hne (howner.trans howner'.symm) (Option.some.inj heq)

/-- The state behind a built tree. -/
theorem exists_checked_of_build {mode : NamespaceMode} {body : List Char} {tree : Tree}
    (h : build mode body = .ok tree) :
    ∃ b : Builder, b.Sound ∧ b.Checked mode ∧ b.rootSeen ∧ b.tree = tree := by
  obtain ⟨pieces, b, -, hrun, -, hseen, htree⟩ := exists_run_of_build h
  have hsound := Builder.sound_initial mode
  exact ⟨b, (hsound.foldlM hrun).1, (Builder.checked_initial mode).foldlM hsound hrun, hseen, htree⟩

theorem mode_of_build {mode : NamespaceMode} {body : List Char} {tree : Tree}
    (h : build mode body = .ok tree) : tree.mode = mode := by
  obtain ⟨b, -, hchecked, -, rfl⟩ := exists_checked_of_build h
  exact hchecked.mode_eq

theorem wellFormed_of_build {mode : NamespaceMode} {body : List Char} {tree : Tree}
    (h : build mode body = .ok tree) : tree.WellFormed mode := by
  obtain ⟨b, hsound, hchecked, hseen, rfl⟩ := exists_checked_of_build h
  have houtline := hchecked.outline
  rw [hseen] at houtline
  exact {
    rooted := houtline
    doctype_unique := hsound.doctype_unique
    outside := hchecked.outside
    legal := hchecked.legal
    attr_legal := fun a attr ha ↦
      hchecked.attr_legal attr (Array.mem_toList_iff.2 (Array.mem_of_getElem? ha))
    distinct := hsound.owned.nodup_written hchecked.distinct }

end Tree

namespace Document

/-- A parsed document follows the rules. -/
theorem wellFormed_of_parse {source : Source} {mode : NamespaceMode} {doc : Document}
    (h : parse source mode = .ok doc) : doc.tree.WellFormed mode := by
  obtain ⟨spans, hbuild, -, -⟩ := exists_spans_of_parse h
  exact Tree.wellFormed_of_build hbuild

/-- A document with something of each kind: the declaration, a blank, the root and a comment are its
children. -/
theorem wellFormed_of_parse_qualified :
    ∃ doc, parse (.ofText ""
        "<!DOCTYPE a>\n<p:a xmlns:p='u' p:b='c' b='d'><![CDATA[e]]></p:a><!--f-->") .aware =
          .ok doc ∧
      doc.tree.children Tree.root = [1, 2, 3, 5] ∧
      (doc.tree.attributesOf 3).map doc.tree.writtenAttr? =
        [some "xmlns:p", some "p:b", some "b"] ∧
      doc.tree.WellFormed .aware := by
  have hrun : (parse (.ofText ""
      "<!DOCTYPE a>\n<p:a xmlns:p='u' p:b='c' b='d'><![CDATA[e]]></p:a><!--f-->")
      .aware).toOption.any (fun doc ↦ doc.tree.children Tree.root == [1, 2, 3, 5] &&
        (doc.tree.attributesOf 3).map doc.tree.writtenAttr? ==
          [some "xmlns:p", some "p:b", some "b"]) = true := by
    decide +kernel
  obtain ⟨doc, hparse, hdoc⟩ := exists_of_any hrun
  obtain ⟨hchildren, hattrs⟩ := Bool.and_eq_true_iff.1 hdoc
  exact ⟨doc, hparse, beq_iff_eq.1 hchildren, beq_iff_eq.1 hattrs, wellFormed_of_parse hparse⟩

end Document

end XmlInspect
