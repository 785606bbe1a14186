import XmlInspect.Proofs.WrittenTags

/-!
# The tree of a written element

A written element becomes a subtree in which it is found again: the same names and attributes, the
same texts, and elements within elements in the same order, with blanks between them where lines
were broken. The element is followed through building from the tag that opens it to the one that
closes it. In between nodes are added below it only, so what was there before is left alone, and
once it is closed it is left alone in turn.
-/

namespace XmlInspect

open Markup

/-- What holds of the second list decides how a relation is weakened. -/
theorem forall₂_imp_of_mem {α β : Type} {r s : α → β → Prop} {l : List α} {l' : List β}
    (h : List.Forall₂ r l l') (himp : ∀ b ∈ l', ∀ a, r a b → s a b) : List.Forall₂ s l l' := by
  induction h with
  | nil => exact .nil
  | @cons a b l l' hab _ ih =>
    obtain ⟨hb, hl'⟩ := List.forall_mem_cons.1 himp
    exact .cons (hb a hab) (ih hl')

namespace Report.Element

/-- To show something of all elements, it is enough to show it of each one from what it holds. -/
@[elab_as_elim]
theorem induction {motive : Element → Prop}
    (empty : ∀ name attributes, motive (.empty name attributes))
    (text : ∀ name attributes content, motive (.text name attributes content))
    (group : ∀ name attributes children, (∀ child ∈ children, motive child) →
      motive (.group name attributes children)) : ∀ element, motive element
  | .empty name attributes => empty name attributes
  | .text name attributes content => text name attributes content
  | .group name attributes children =>
    group name attributes children fun child _ ↦ induction empty text group child

def name : Element → String
  | .empty name _ => name
  | .text name _ _ => name
  | .group name _ _ => name

end Report.Element

open Report

namespace Tree

variable {tree later last : Tree} {p id : NodeId} {n n' : Nat} {element : Element}
  {elements elements' : List Element} {name content : String}
  {attributes : List (String × String)}

/-! ## Elements in a tree -/

/-- An element has a name and attributes, all without qualifiers. -/
def Labelled (tree : Tree) (id : NodeId) (name : String) (attributes : List (String × String)) :
    Prop :=
  ∃ ids, tree.kind? id = some (.element (Builder.plainName name) ids) ∧
    List.Forall₂ (fun a attr ↦ tree.attr? a = some ⟨Builder.plainName attr.1, attr.2, id⟩)
      ids attributes

/-- A text is all that an element holds. -/
def HoldsText (tree : Tree) (id : NodeId) (content : String) : Prop :=
  if content = "" then tree.children id = []
  else ∃ t, tree.children id = [t] ∧ tree.kind? t = some (.text content)

/-- A node and what is below it are a written element. All of it comes after the first `n` nodes,
and what stands between elements does not count. -/
inductive Holds (tree : Tree) (n : Nat) : NodeId → Element → Prop
  | empty {id : NodeId} {name : String} {attributes : List (String × String)} :
    n ≤ id → tree.Labelled id name attributes → tree.children id = [] →
      Holds tree n id (.empty name attributes)
  | text {id : NodeId} {name content : String} {attributes : List (String × String)} :
    n ≤ id → tree.Labelled id name attributes → tree.HoldsText id content →
      Holds tree n id (.text name attributes content)
  | group {id : NodeId} {name : String} {attributes : List (String × String)}
    {children : List Element} : n ≤ id → tree.Labelled id name attributes →
      List.Forall₂ (Holds tree n) ((tree.children id).filter tree.isElement) children →
      Holds tree n id (.group name attributes children)

/-- Elements were added to a node, perhaps with something between them, and nothing else changed. -/
structure Grows (tree later : Tree) (p : NodeId) (elements : List Element) : Prop where
  grown : tree.Extends later
  size_le : tree.size ≤ later.size
  children_eq : ∀ id, id < tree.size → id ≠ p → later.children id = tree.children id
  exists_added : ∃ added, later.children p = tree.children p ++ added ∧
    List.Forall₂ (later.Holds tree.size) (added.filter later.isElement) elements

theorem Labelled.isElement (h : tree.Labelled id name attributes) : tree.isElement id := by
  obtain ⟨ids, hkind, -⟩ := h
  exact isElement_of_kind? hkind

theorem Labelled.lt_size (h : tree.Labelled id name attributes) : id < tree.size := by
  obtain ⟨ids, hkind, -⟩ := h
  exact lt_size_of_kind? hkind

theorem Labelled.mono (h : tree.Labelled id name attributes) (hextends : tree.Extends later) :
    later.Labelled id name attributes := by
  obtain ⟨ids, hkind, hattrs⟩ := h
  exact ⟨ids, hextends.kind? hkind, hattrs.imp fun _ _ hattr ↦ hextends.attr? hattr⟩

theorem Holds.exists_labelled (h : tree.Holds n id element) :
    ∃ attributes, tree.Labelled id element.name attributes := by
  cases h with
  | empty _ hlabelled _ => exact ⟨_, hlabelled⟩
  | text _ hlabelled _ => exact ⟨_, hlabelled⟩
  | group _ hlabelled _ => exact ⟨_, hlabelled⟩

theorem Holds.isElement (h : tree.Holds n id element) : tree.isElement id := by
  obtain ⟨attributes, hlabelled⟩ := h.exists_labelled
  exact hlabelled.isElement

theorem Extends.isElement_eq (h : tree.Extends later) (hid : id < tree.size) :
    later.isElement id = tree.isElement id := by
  cases hkind : tree.kind? id with
  | none => exact absurd hid (Nat.not_lt.2 (kind?_eq_none_iff.1 hkind))
  | some kind => rw [isElement_of_kind? (h.kind? hkind), isElement_of_kind? hkind]

theorem Extends.filter_isElement (h : tree.Extends later) {ids : List NodeId}
    (hids : ∀ id ∈ ids, id < tree.size) :
    ids.filter later.isElement = ids.filter tree.isElement :=
  List.filter_congr fun id hid ↦ h.isElement_eq (hids id hid)

/-- An element is left alone by what is added to a node before it. -/
theorem Holds.grow (h : tree.Holds n id element) (hlinked : tree.Linked)
    (hgrows : tree.Grows later p elements) (hp : p < n) (hn : n' ≤ n) :
    later.Holds n' id element := by
  have hchildren : ∀ {id name attributes}, n ≤ id → tree.Labelled id name attributes →
      later.children id = tree.children id := fun hle hlabelled ↦
    hgrows.children_eq _ hlabelled.lt_size (Nat.ne_of_gt (Nat.lt_of_lt_of_le hp hle))
  induction element using Element.induction generalizing id with
  | empty name attributes =>
    cases h with
    | empty hle hlabelled hnil =>
      exact .empty (Nat.le_trans hn hle) (hlabelled.mono hgrows.grown)
        ((hchildren hle hlabelled).trans hnil)
  | text name attributes content =>
    cases h with
    | text hle hlabelled htext =>
      refine .text (Nat.le_trans hn hle) (hlabelled.mono hgrows.grown) ?_
      unfold HoldsText at htext ⊢
      rw [hchildren hle hlabelled]
      split
      · rwa [if_pos ‹_›] at htext
      · rw [if_neg ‹_›] at htext
        obtain ⟨t, ht, hkind⟩ := htext
        exact ⟨t, ht, hgrows.grown.kind? hkind⟩
  | group name attributes children ih =>
    cases h with
    | group hle hlabelled hall =>
      refine .group (Nat.le_trans hn hle) (hlabelled.mono hgrows.grown) ?_
      rw [hchildren hle hlabelled, hgrows.grown.filter_isElement fun _ ↦ hlinked.lt_size_of_mem]
      exact forall₂_imp_of_mem hall fun child hchild _ ↦ ih child hchild

namespace Grows

theorem refl (tree : Tree) (p : NodeId) : tree.Grows tree p [] :=
  ⟨.refl tree, Nat.le_refl _, fun _ _ _ ↦ rfl, [], (List.append_nil _).symm, .nil⟩

theorem trans (h : tree.Grows later p elements) (h' : later.Grows last p elements')
    (hp : p < tree.size) (hlinked : later.Linked) (hlinked' : last.Linked) :
    tree.Grows last p (elements ++ elements') := by
  obtain ⟨added, hadded, hholds⟩ := h.exists_added
  obtain ⟨added', hadded', hholds'⟩ := h'.exists_added
  refine ⟨h.grown.trans h'.grown, Nat.le_trans h.size_le h'.size_le, ?_, added ++ added', ?_, ?_⟩
  · intro id hid hne
    rw [h'.children_eq id (Nat.lt_of_lt_of_le hid h.size_le) hne, h.children_eq id hid hne]
  · rw [hadded', hadded, List.append_assoc]
  · have hlt : ∀ id ∈ added, id < later.size := fun id hid ↦
      hlinked.lt_size_of_mem (p := p) (hadded ▸ List.mem_append_right _ hid)
    rw [List.filter_append, h'.grown.filter_isElement hlt]
    refine List.rel_append ?_ ?_
    · exact hholds.imp fun _ _ hold ↦ hold.grow hlinked h' hp (Nat.le_refl _)
    · exact hholds'.imp fun _ _ hnew ↦
        hnew.grow hlinked' (.refl last p) (Nat.lt_of_lt_of_le hp h.size_le) h.size_le

/-- A text is nothing among elements. -/
theorem text (tree : Tree) (hp : p < tree.size) (content : String) :
    tree.Grows (tree.append p (.text content)) p [] := by
  refine ⟨extends_append tree hp _, by simp, ?_, [tree.size], ?_, ?_⟩
  · intro id _ hne
    rw [children_append tree hp, if_neg (Ne.symm hne)]
  · rw [children_append tree hp, if_pos rfl]
  · have hkind : (tree.append p (.text content)).kind? tree.size = some (.text content) := by
      rw [kind?_append, if_pos rfl]
    have hnot : (tree.append p (.text content)).isElement tree.size = false :=
      isElement_of_kind? hkind
    rw [List.filter_singleton, hnot]
    exact .nil

/-- What is added to a new element is added with it. -/
theorem enclose {attrs : List (QName × String)} {qname : QName} (hp : p < tree.size)
    (h : (tree.appendElement p qname attrs).Grows later tree.size elements)
    (hholds : later.Holds tree.size tree.size element) : tree.Grows later p [element] := by
  have hsize : (tree.appendElement p qname attrs).size = tree.size + 1 := size_append _ _ _
  have hchildren : ∀ id, (tree.appendElement p qname attrs).children id =
      if p = id then tree.children p ++ [tree.size] else tree.children id :=
    children_append tree hp _
  have hold : ∀ id, id < tree.size → later.children id =
      if p = id then tree.children p ++ [tree.size] else tree.children id := fun id hid ↦ by
    rw [h.children_eq id (hsize ▸ Nat.lt_succ_of_lt hid) (Nat.ne_of_lt hid), hchildren]
  refine ⟨(extends_appendElement tree hp qname attrs).trans h.grown, ?_, ?_, [tree.size], ?_, ?_⟩
  · have hle := h.size_le
    rw [hsize] at hle
    exact Nat.le_of_succ_le hle
  · intro id hid hne
    rw [hold id hid, if_neg (Ne.symm hne)]
  · rw [hold p hp, if_pos rfl]
  · rw [List.filter_singleton, hholds.isElement]
    exact .cons hholds .nil

end Grows

theorem children_appendElement_size {attrs : List (QName × String)} {qname : QName}
    (hp : p < tree.size) : (tree.appendElement p qname attrs).children tree.size = [] :=
  (children_append tree hp _ _).trans
    ((if_neg (Nat.ne_of_lt hp)).trans (children_eq_nil_of_le (Nat.le_refl _)))

theorem labelled_appendElement (tree : Tree) (p : NodeId) (name : String)
    (attributes : List (String × String)) :
    (tree.appendElement p (Builder.plainName name)
      (attributes.map fun attr ↦ (Builder.plainName attr.1, attr.2))).Labelled tree.size name
        attributes := by
  have hattrs := forall₂_attr?_appendElement tree p (Builder.plainName name)
    (attributes.map fun attr ↦ (Builder.plainName attr.1, attr.2))
  rw [List.forall₂_map_right_iff] at hattrs
  refine ⟨_, ?_, hattrs⟩
  rw [kind?_appendElement, if_pos rfl]

end Tree

/-! ## States that are ready -/

namespace Tree.Builder

variable {b b' : Builder} {text rest inside : List Char} {name content : String}
  {attributes : List (String × String)}

/-- A state in which no namespace was declared, and no document type. -/
structure Ready (b : Builder) : Prop where
  sound : b.Sound
  mode : b.tree.mode = .aware
  scope : b.scope = Scope.initial
  doctypeSeen : b.doctypeSeen = false

theorem ready_initial : (initial .aware).Ready := ⟨sound_initial .aware, rfl, rfl, rfl⟩

theorem Runs.sound (h : b.Runs text rest b') (hsound : b.Sound) : b'.Sound := by
  obtain ⟨pieces, -, hrun, -⟩ := h 0
  exact (hsound.foldlM hrun).1

theorem parent_congr (h : b'.frames = b.frames) : b'.parent = b.parent := by
  rw [parent, parent, h]

theorem frames_addText (b : Builder) (content : String) :
    (b.addText content).frames = b.frames := by
  unfold addText
  split <;> rfl

theorem rootSeen_addText (b : Builder) (content : String) :
    (b.addText content).rootSeen = b.rootSeen := by
  unfold addText
  split <;> rfl

theorem Ready.addText (h : b.Ready) (hruns : b.Runs text rest (b.addText content)) :
    (b.addText content).Ready := by
  refine ⟨hruns.sound h.sound, ?_, ?_, ?_⟩
  all_goals unfold Builder.addText; split
  exacts [h.mode, h.mode, h.scope, h.scope, h.doctypeSeen, h.doctypeSeen]

theorem grows_addText (h : b.Ready) (content : String) :
    b.tree.Grows (b.addText content).tree b.parent [] := by
  unfold addText
  split
  · exact .refl b.tree b.parent
  · exact .text b.tree h.sound.parent_lt content

private theorem Ready.addTag (h : b.Ready) (hruns : b.Runs text rest (b.addTag name attributes)) :
    (b.addTag name attributes).Ready :=
  ⟨hruns.sound h.sound, h.mode, h.scope, h.doctypeSeen⟩

theorem Ready.openElement (h : b.Ready) (hruns : b.Runs text rest (b.openElement name attributes)) :
    (b.openElement name attributes).Ready :=
  ⟨hruns.sound h.sound, h.mode, rfl, h.doctypeSeen⟩

end Tree.Builder

/-! ## Written elements -/

namespace Report

open XmlInspect.Tree (Builder)

/-- What lines are indented by is blank. -/
def Indent.IsBlank (indent : Indent) : Prop :=
  ∀ unit, indent = some unit → ∀ c ∈ unit, Text.isXmlBlank c = true

theorem Indent.isBlank_none : Indent.IsBlank none := nofun

theorem Indent.isBlank_tab : Indent.tab.IsBlank := by
  rintro unit ⟨⟩
  exact List.forall_mem_singleton.2 rfl

theorem Indent.isBlank_spaces (count : Nat) : (Indent.spaces count).IsBlank := by
  rintro unit ⟨⟩ c hc
  rw [List.eq_of_mem_replicate hc]
  rfl

theorem isXmlBlank_of_mem_lineBreak {indent : Indent} (hindent : indent.IsBlank) (level : Nat) :
    ∀ c ∈ lineBreak indent level, Text.isXmlBlank c = true := by
  cases indent with
  | none => simp [lineBreak]
  | some unit =>
    refine List.forall_mem_cons.2 ⟨rfl, fun c hc ↦ ?_⟩
    obtain ⟨chars, hchars, hc⟩ := List.mem_flatten.1 hc
    rw [List.eq_of_mem_replicate hchars] at hc
    exact hindent unit rfl c hc

private theorem isXmlChar_of_isXmlBlank {c : Char} (h : Text.isXmlBlank c = true) :
    IsXmlChar c := by
  rcases Text.eq_of_isXmlBlank h with rfl | rfl | rfl | rfl <;> simp [IsXmlChar]

/-- Blanks become a text. -/
theorem runs_blanks {b : Builder} {blanks rest : List Char}
    (hblanks : ∀ c ∈ blanks, Text.isXmlBlank c = true) (hrest : rest.head? = some '<') :
    b.Runs blanks rest (b.addText (String.ofList blanks)) := by
  have hchars : ∀ c ∈ (String.ofList blanks).toList, Text.isXmlBlank c = true := by
    rwa [String.toList_ofList]
  have hruns : b.Runs (escape (String.ofList blanks)) rest (b.addText (String.ofList blanks)) :=
    Builder.runs_escape (fun c hc ↦ isXmlChar_of_isXmlBlank (hchars c hc)) (fun _ ↦ hchars) hrest
  rwa [escape_blanks hblanks] at hruns

namespace Element

variable {element : Element} {indent : Indent} {level : Nat}

/-- Elements whose names are words and whose texts may stand in a document. -/
inductive Proper : Element → Prop
  | empty {name : String} {attributes : List (String × String)} : isWord name = true →
    Builder.ProperAttributes attributes → Proper (.empty name attributes)
  | text {name content : String} {attributes : List (String × String)} : isWord name = true →
    Builder.ProperAttributes attributes → (∀ c ∈ content.toList, IsXmlChar c) →
      Proper (.text name attributes content)
  | group {name : String} {attributes : List (String × String)} {children : List Element} :
    isWord name = true → Builder.ProperAttributes attributes →
      (∀ child ∈ children, Proper child) → Proper (.group name attributes children)

/-- An element without the line break before it. -/
def bare (indent : Indent) (level : Nat) : Element → List Char
  | .empty name attributes => openTag name attributes ++ "/>".toList
  | .text name attributes content =>
    openTag name attributes ++ ">".toList ++ (escape content ++ closeTag name)
  | .group name attributes children =>
    openTag name attributes ++ ">".toList ++
      (writeAll indent (level + 1) children ++ lineBreak indent level ++ closeTag name)

theorem write_eq (indent : Indent) (level : Nat) (element : Element) :
    element.write indent level = lineBreak indent level ++ element.bare indent level := by
  cases element <;> simp [write, bare]

theorem head?_bare (element : Element) (indent : Indent) (level : Nat) (rest : List Char) :
    (element.bare indent level ++ rest).head? = some '<' := by
  cases element <;> rfl

/-- Writing an element and building from what was written adds that element where building is. -/
def Builds (element : Element) : Prop :=
  ∀ {indent : Indent}, indent.IsBlank → ∀ level (b : Builder) rest, b.Ready →
    (b.frames = [] → b.rootSeen = false) →
    ∃ b', b.Runs (element.bare indent level) rest b' ∧ b'.Ready ∧ b'.frames = b.frames ∧
      b'.rootSeen = true ∧ b.tree.Grows b'.tree b.parent [element]

section Builds

variable {b b' : Builder} {name : String} {attributes : List (String × String)}
  {inside rest : List Char} {elements : List Element}

/-- What runs inside a tag runs with the tag around it. -/
theorem runs_enclosed (hname : isWord name = true) (hattrs : Builder.ProperAttributes attributes)
    (hready : b.Ready) (hroot : b.frames = [] → b.rootSeen = false)
    (hinside : (b.openElement name attributes).Runs inside (closeTag name ++ rest) b')
    (hready' : b'.Ready) (hframes : b'.frames = (b.openElement name attributes).frames) :
    b.Runs (openTag name attributes ++ ">".toList ++ (inside ++ closeTag name)) rest
        { b' with frames := b.frames, scope := b.scope } ∧
      Builder.Ready { b' with frames := b.frames, scope := b.scope } ∧ b'.rootSeen = true := by
  have hopen : b.Runs (openTag name attributes ++ ">".toList) ((inside ++ closeTag name) ++ rest)
      (b.openElement name attributes) :=
    Builder.runs_openTag hname hattrs hready.mode hready.scope hroot false _
  have hclose := Builder.runs_closeTag hname hframes rfl rest
  refine ⟨hopen.trans (hinside.trans hclose), ⟨hclose.sound hready'.sound, hready'.mode,
    hready.scope, hready'.doctypeSeen⟩, hready'.sound.rootSeen ?_⟩
  rw [hframes]
  exact List.cons_ne_nil _ _

theorem builds_empty (hname : isWord name = true) (hattrs : Builder.ProperAttributes attributes) :
    Builds (.empty name attributes) := by
  intro indent _ level b rest hready hroot
  have hruns : b.Runs (openTag name attributes ++ "/>".toList) rest (b.addTag name attributes) :=
    Builder.runs_openTag hname hattrs hready.mode hready.scope hroot true rest
  refine ⟨_, hruns, hready.addTag hruns, rfl, rfl, .enclose hready.sound.parent_lt (.refl _ _) ?_⟩
  exact .empty (Nat.le_refl _) (Tree.labelled_appendElement b.tree b.parent name attributes)
    (Tree.children_appendElement_size hready.sound.parent_lt)

private theorem holdsText_addText (hready : b.Ready) (hnil : b.tree.children b.parent = [])
    (content : String) : (b.addText content).tree.HoldsText b.parent content := by
  unfold Tree.HoldsText Builder.addText
  split
  · exact hnil
  · refine ⟨b.tree.size, ?_, ?_⟩
    · rw [Builder.appendLeaf, Tree.children_append b.tree hready.sound.parent_lt, if_pos rfl, hnil,
        List.nil_append]
    · rw [Builder.appendLeaf, Tree.kind?_append, if_pos rfl]

theorem builds_text {content : String} (hname : isWord name = true)
    (hattrs : Builder.ProperAttributes attributes) (hchars : ∀ c ∈ content.toList, IsXmlChar c) :
    Builds (.text name attributes content) := by
  intro indent _ level b rest hready hroot
  have hopened := hready.openElement (Builder.runs_openTag hname hattrs hready.mode hready.scope
    hroot false [])
  have hinside : (b.openElement name attributes).Runs (escape content) (closeTag name ++ rest)
      ((b.openElement name attributes).addText content) :=
    Builder.runs_escape hchars nofun rfl
  have hready' := hopened.addText hinside
  obtain ⟨hruns, hclosed, hseen⟩ := runs_enclosed hname hattrs hready hroot hinside hready'
    (Builder.frames_addText _ content)
  have hgrows := Builder.grows_addText hopened content
  refine ⟨_, hruns, hclosed, rfl, hseen, .enclose hready.sound.parent_lt hgrows ?_⟩
  refine .text (Nat.le_refl _) ?_ ?_
  · exact (Tree.labelled_appendElement b.tree b.parent name attributes).mono hgrows.grown
  · exact holdsText_addText hopened
      (Tree.children_appendElement_size hready.sound.parent_lt) content

/-- Elements that are built one by one are built one after the other. -/
theorem runs_writeAll (hindent : indent.IsBlank) (helements : ∀ element ∈ elements, element.Builds)
    (level : Nat) (rest : List Char) (hready : b.Ready) (hframes : b.frames ≠ []) :
    ∃ b', b.Runs (writeAll indent level elements) rest b' ∧ b'.Ready ∧ b'.frames = b.frames ∧
      b.tree.Grows b'.tree b.parent elements := by
  induction elements generalizing b with
  | nil => exact ⟨b, by rw [writeAll]; exact .nil b rest, hready, rfl, .refl b.tree b.parent⟩
  | cons element elements ih =>
    obtain ⟨helement, helements⟩ := List.forall_mem_cons.1 helements
    -- The blanks before the element, the element, and the others.
    have hblanks : b.Runs (lineBreak indent level)
        (element.bare indent level ++ (writeAll indent level elements ++ rest)) _ :=
      runs_blanks (isXmlBlank_of_mem_lineBreak hindent level) (head?_bare element indent level _)
    have hready₁ := hready.addText hblanks
    have hframes₁ := Builder.frames_addText b (String.ofList (lineBreak indent level))
    obtain ⟨b₂, hruns₂, hready₂, hframes₂, -, hgrows₂⟩ := helement hindent level _
      (writeAll indent level elements ++ rest) hready₁ fun hnil ↦ absurd (hframes₁ ▸ hnil) hframes
    have hframes₂ := hframes₂.trans hframes₁
    obtain ⟨b₃, hruns₃, hready₃, hframes₃, hgrows₃⟩ :=
      ih helements hready₂ (hframes₂ ▸ hframes)
    refine ⟨b₃, ?_, hready₃, hframes₃.trans hframes₂, ?_⟩
    · rw [writeAll, write_eq]
      exact (hblanks.trans hruns₂).trans hruns₃
    · rw [Builder.parent_congr hframes₁] at hgrows₂
      rw [Builder.parent_congr hframes₂] at hgrows₃
      have hgrows₁ := Builder.grows_addText hready (String.ofList (lineBreak indent level))
      have hgrows := hgrows₁.trans hgrows₂ hready.sound.parent_lt hready₁.sound.linked
        hready₂.sound.linked
      exact hgrows.trans hgrows₃ hready.sound.parent_lt hready₂.sound.linked hready₃.sound.linked

theorem builds_group {children : List Element} (hname : isWord name = true)
    (hattrs : Builder.ProperAttributes attributes) (hchildren : ∀ child ∈ children, child.Builds) :
    Builds (.group name attributes children) := by
  intro indent hindent level b rest hready hroot
  have hopened := hready.openElement (Builder.runs_openTag hname hattrs hready.mode hready.scope
    hroot false [])
  obtain ⟨b₁, hruns₁, hready₁, hframes₁, hgrows₁⟩ := runs_writeAll hindent hchildren (level + 1)
    (lineBreak indent level ++ (closeTag name ++ rest)) hopened (List.cons_ne_nil _ _)
  have hblanks : b₁.Runs (lineBreak indent level) (closeTag name ++ rest) _ :=
    runs_blanks (isXmlBlank_of_mem_lineBreak hindent level) rfl
  have hready₂ := hready₁.addText hblanks
  obtain ⟨hruns, hclosed, hseen⟩ := runs_enclosed hname hattrs hready hroot
    (hruns₁.trans hblanks) hready₂ ((Builder.frames_addText b₁ _).trans hframes₁)
  have hgrows₂ := Builder.grows_addText hready₁ (String.ofList (lineBreak indent level))
  rw [Builder.parent_congr hframes₁] at hgrows₂
  have hgrows := hgrows₁.trans hgrows₂ hopened.sound.parent_lt hready₁.sound.linked
    hready₂.sound.linked
  rw [List.append_nil] at hgrows
  refine ⟨_, hruns, hclosed, rfl, hseen, .enclose hready.sound.parent_lt hgrows ?_⟩
  refine .group (Nat.le_refl _) ?_ ?_
  · exact (Tree.labelled_appendElement b.tree b.parent name attributes).mono hgrows.grown
  · obtain ⟨added, hadded, hholds⟩ := hgrows.exists_added
    have hnew : b.tree.size < (b.openElement name attributes).tree.size :=
      Nat.lt_of_lt_of_eq (Nat.lt_succ_self _) (Tree.size_append _ _ _).symm
    have hnil : (b.openElement name attributes).tree.children b.tree.size = [] :=
      Tree.children_appendElement_size hready.sound.parent_lt
    have hchildren : _ = added := hadded.trans ((congrArg (· ++ added) hnil).trans rfl)
    rw [← hchildren] at hholds
    exact hholds.imp fun _ _ hchild ↦
      hchild.grow hready₂.sound.linked (.refl _ b.tree.size) hnew (Nat.le_of_lt hnew)

/-- A written element is built. -/
theorem Proper.builds (h : element.Proper) : element.Builds := by
  induction h with
  | empty hname hattrs => exact builds_empty hname hattrs
  | text hname hattrs hchars => exact builds_text hname hattrs hchars
  | group hname hattrs _ ih => exact builds_group hname hattrs ih

end Builds

end Element

end Report

end XmlInspect
