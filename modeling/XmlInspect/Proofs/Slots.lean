import XmlInspect.Proofs.Replay

/-!
# Which slots the replay fills

During a replay a node is in one of three conditions. No slot of it is filled; or it is an element
the cursor is in, and the slots of its opening tag are filled; or exactly the slots of its kind are.
Which one it is depends on the cursor: the children that were found have their slots, the others do
not, and below a node that was left again the children have theirs exactly if it had a closing tag
of its own.

So a slot that is to be filled is always free. At the end every node has all its slots or none, and
the nodes without are those below an element that is bound to an empty tag.
-/

namespace XmlInspect

/-! ## Slots of a kind -/

/-- The parts that a node has. -/
def NodeKind.slots : NodeKind → List Slot
  | .element _ _ => [.whole, .opening, .closing, .name]
  | .comment _ | .cdata _ => [.whole, .opening, .closing]
  | .document | .text _ | .doctype _ _ => [.whole]

/-- The parts that a node has that a token calls for. -/
def Expected.slots : Expected → List Slot
  | .element => [.whole, .opening, .closing, .name]
  | .comment | .cdata => [.whole, .opening, .closing]
  | .text | .doctype => [.whole]

theorem Expected.slots_eq {expected : Expected} {kind : NodeKind}
    (h : expected.accepts kind = true) : kind.slots = expected.slots := by
  cases expected <;> cases kind <;> first | rfl | cases h

/-- The parts that an attribute has. -/
def Attribute.slots : List Slot := [.whole, .name, .value]

namespace Ranges

variable {α : Type} {ranges : Ranges α}

/-- Exactly these parts are known. -/
def Has (ranges : Ranges α) (slots : List Slot) : Prop :=
  ∀ slot, (ranges.get slot).isSome ↔ slot ∈ slots

/-- The construct has a closing tag apart from its opening tag. -/
def Closed (ranges : Ranges α) : Prop :=
  ranges.whole ≠ none ∧ ranges.opening ≠ none ∧ ranges.opening ≠ ranges.whole

theorem not_closed_empty : ¬ (empty : Ranges α).Closed := fun h ↦ h.1 rfl

theorem has_whole (whole : α) : (⟨some whole, none, none, none, none⟩ : Ranges α).Has [.whole] := by
  intro slot
  cases slot <;> simp [get]

theorem has_delimited (whole opening closing : α) :
    (⟨some whole, some opening, some closing, none, none⟩ : Ranges α).Has
      [.whole, .opening, .closing] := by
  intro slot
  cases slot <;> simp [get]

theorem has_element (whole opening closing name : α) :
    (⟨some whole, some opening, some closing, some name, none⟩ : Ranges α).Has
      [.whole, .opening, .closing, .name] := by
  intro slot
  cases slot <;> simp [get]

theorem Has.ne_empty {kind : NodeKind} (h : ranges.Has kind.slots) : ranges ≠ .empty := by
  rintro rfl
  have hwhole := (h .whole).2 (by cases kind <;> simp [NodeKind.slots])
  cases hwhole

end Ranges

namespace Binder

variable {tree : Tree} {d d' : Binder} {id p : NodeId} {kind : NodeKind} {i : Nat}
  {offset stop : Nat}

/-! ## The way to the cursor -/

/-- Each visit is at the last child that the visit around it has found. -/
def Path (tree : Tree) : List Visit → Prop
  | [] => False
  | [visit] => visit.node = Tree.root
  | visit :: outer :: rest =>
    (∃ i, i + 1 = outer.visited ∧ (tree.children outer.node)[i]? = some visit.node) ∧
      Path tree (outer :: rest)

/-- The nodes that the cursor is in, the innermost first. -/
def path (d : Binder) : List NodeId := (d.current :: d.outer).map (·.node)

private theorem Path.lt (hlinked : tree.Linked) {visit : Visit} {outer : List Visit}
    (h : Path tree (visit :: outer)) : ∀ other ∈ outer, other.node < visit.node := by
  induction outer generalizing visit with
  | nil => simp
  | cons next outer ih =>
    obtain ⟨⟨i, -, hchild⟩, hrest⟩ := h
    have hlt := (hlinked.child hchild).1
    intro other hother
    rcases List.mem_cons.1 hother with rfl | hother
    · exact hlt
    · exact Nat.lt_trans (ih hrest other hother) hlt

theorem Path.head {visit other : Visit} {outer : List Visit} (h : Path tree (visit :: outer))
    (hnode : other.node = visit.node) : Path tree (other :: outer) := by
  cases outer with
  | nil => exact hnode.trans h
  | cons next outer =>
    obtain ⟨⟨i, hi, hchild⟩, hrest⟩ := h
    exact ⟨⟨i, hi, by rw [hnode]; exact hchild⟩, hrest⟩

theorem Path.root_mem {visits : List Visit} (h : Path tree visits) :
    Tree.root ∈ visits.map (·.node) := by
  induction visits with
  | nil => exact h.elim
  | cons visit outer ih =>
    cases outer with
    | nil => simpa using (Eq.symm h)
    | cons next outer => exact List.mem_cons_of_mem _ (ih h.2)

/-! ## The conditions -/

/-- What is known of the slots when the cursor stands at an offset and awaits no text. -/
structure Filled (tree : Tree) (d : Binder) (offset : Nat) : Prop where
  tree_eq : d.tree = tree
  nodes_size : d.spans.nodes.size = tree.size
  attributes_size : d.spans.attributes.size = tree.attributes.size
  path : Path tree (d.current :: d.outer)
  root : d.spans.ranges Tree.root = .empty
  /-- The slots of the opening tags of the elements around the cursor are filled. -/
  isOpen : ∀ id ∈ d.path, id ≠ Tree.root →
    (∃ name attrs, tree.kind? id = some (.element name attrs)) ∧
      ∃ opening name, d.spans.ranges id = openPlaces opening name ∧ opening.stop ≤ offset
  /-- All other nodes have no slots or all. -/
  has : ∀ {id kind}, tree.kind? id = some kind → id ∉ d.path →
    d.spans.ranges id = .empty ∨ (d.spans.ranges id).Has kind.slots
  /-- Around the cursor, the children with slots are those that were found. -/
  found : ∀ visit ∈ d.current :: d.outer, ∀ {i : Nat} {id : NodeId},
    (tree.children visit.node)[i]? = some id →
    (d.spans.ranges id ≠ .empty ↔ i < visit.visited)
  /-- Elsewhere, they are those of elements with a closing tag. -/
  below : ∀ {p id : NodeId} {i : Nat}, p ∉ d.path → (tree.children p)[i]? = some id →
    (d.spans.ranges id ≠ .empty ↔ (d.spans.ranges p).Closed)
  attrs : ∀ {a attr}, tree.attr? a = some attr →
    if (d.spans.ranges attr.owner).opening = none then d.spans.attrRanges a = .empty
    else (d.spans.attrRanges a).Has Attribute.slots

theorem ranges_initial (tree : Tree) (id : NodeId) : (initial tree).spans.ranges id = .empty := by
  simp only [TreeSpans.ranges, initial, Array.getD_eq_getD_getElem?, Array.getElem?_replicate]
  split <;> rfl

private theorem attrRanges_initial (tree : Tree) (id : AttrId) :
    (initial tree).spans.attrRanges id = .empty := by
  simp only [TreeSpans.attrRanges, initial, Array.getD_eq_getD_getElem?, Array.getElem?_replicate]
  split <;> rfl

theorem filled_initial (tree : Tree) : Filled tree (initial tree) 0 where
  tree_eq := rfl
  nodes_size := Array.size_replicate
  attributes_size := Array.size_replicate
  path := rfl
  root := ranges_initial tree _
  isOpen id hid hne := absurd (List.mem_singleton.1 hid) hne
  has _ _ := Or.inl (ranges_initial tree _)
  found visit hvisit i id _ := by
    rw [List.mem_singleton.1 hvisit]
    exact ⟨fun hne ↦ absurd (ranges_initial tree id) hne, fun hlt ↦ absurd hlt (Nat.not_lt_zero i)⟩
  below _ _ := by
    simp [ranges_initial, Ranges.not_closed_empty]
  attrs {a attr} _ := by
    rw [ranges_initial]
    exact attrRanges_initial tree a

namespace Filled

/-! ## Around the next child -/

theorem mono (h : Filled tree d offset) (hle : offset ≤ stop) : Filled tree d stop where
  __ := h
  isOpen id hid hne := by
    obtain ⟨helement, opening, name, hranges, hstop⟩ := h.isOpen id hid hne
    exact ⟨helement, opening, name, hranges, Nat.le_trans hstop hle⟩

theorem current_mem (d : Binder) : d.current ∈ d.current :: d.outer := List.mem_cons_self

theorem getElem?_children (h : Filled tree d offset) (hnext : d.next? = some id) :
    (tree.children d.current.node)[d.current.visited]? = some id := by
  rw [← h.tree_eq]
  exact hnext

theorem next_empty (h : Filled tree d offset) (hnext : d.next? = some id) :
    d.spans.ranges id = .empty := by
  have hfound := h.found d.current (current_mem d) (h.getElem?_children hnext)
  by_contra hne
  exact Nat.lt_irrefl _ (hfound.1 hne)

theorem next_not_mem (h : Filled tree d offset) (hlinked : tree.Linked)
    (hnext : d.next? = some id) : id ∉ d.path := by
  intro hmem
  have hempty := h.next_empty hnext
  obtain ⟨-, opening, name, hranges, -⟩ :=
    h.isOpen id hmem (hlinked.ne_root (h.getElem?_children hnext))
  rw [hranges] at hempty
  cases hempty

/-- The next child is a child in one place only. -/
theorem eq_next_iff (h : Filled tree d offset) (hlinked : tree.Linked) (hnext : d.next? = some id)
    {x : NodeId} (hx : (tree.children p)[i]? = some x) :
    x = id ↔ p = d.current.node ∧ i = d.current.visited := by
  have hchild := h.getElem?_children hnext
  constructor
  · rintro rfl
    exact hlinked.child_unique hx hchild
  · rintro ⟨rfl, rfl⟩
    exact Option.some.inj (hx.symm.trans hchild)

theorem ne_current (h : Filled tree d offset) (hlinked : tree.Linked) {visit : Visit}
    (hvisit : visit ∈ d.outer) : visit.node ≠ d.current.node :=
  Nat.ne_of_lt (h.path.lt hlinked visit hvisit)

/-- Nothing below the next child has slots. -/
theorem below_next (h : Filled tree d offset) (hlinked : tree.Linked) (hnext : d.next? = some id)
    {x : NodeId} (hx : (tree.children id)[i]? = some x) : d.spans.ranges x = .empty := by
  have hbelow := h.below (h.next_not_mem hlinked hnext) hx
  rw [h.next_empty hnext] at hbelow
  by_contra hne
  exact Ranges.not_closed_empty (hbelow.1 hne)

/-- The cursor is in the document only if it is in nothing else. -/
theorem current_ne_root (h : Filled tree d offset) (hlinked : tree.Linked)
    (houter : d.outer ≠ []) : d.current.node ≠ Tree.root := by
  obtain ⟨next, outer, houter⟩ := List.exists_cons_of_ne_nil houter
  have hpath := h.path
  rw [houter] at hpath
  obtain ⟨⟨i, -, hchild⟩, -⟩ := hpath
  exact hlinked.ne_root hchild

theorem isOpen_current (h : Filled tree d offset) (hlinked : tree.Linked) (houter : d.outer ≠ []) :
    d.Open := by
  obtain ⟨⟨name, attrs, hkind⟩, opening, name', hranges, -⟩ :=
    h.isOpen d.current.node List.mem_cons_self (h.current_ne_root hlinked houter)
  rw [Open, h.nodes_size]
  exact ⟨Tree.lt_size_of_kind? hkind, opening, name', hranges⟩

theorem stop_le (h : Filled tree d offset) (hlinked : tree.Linked) (houter : d.outer ≠ [])
    {opening name : Span} (hranges : d.spans.ranges d.current.node = openPlaces opening name) :
    opening.stop ≤ offset := by
  obtain ⟨-, opening', name', hranges', hstop⟩ :=
    h.isOpen d.current.node List.mem_cons_self (h.current_ne_root hlinked houter)
  rw [hranges] at hranges'
  cases hranges'
  exact hstop

theorem ready (h : Filled tree d offset) (hlinked : tree.Linked) (howned : tree.Owned) :
    d.Ready where
  fresh id hnext := by
    refine ⟨?_, h.next_empty hnext⟩
    rw [h.nodes_size]
    exact (hlinked.child (h.getElem?_children hnext)).2.1
  freshAttrs id hnext := by
    rw [h.tree_eq]
    refine ⟨howned.nodup id, fun a ha ↦ ?_⟩
    obtain ⟨attr, hattr, rfl⟩ := howned.owner ha
    have hattrs := h.attrs hattr
    rw [h.next_empty hnext] at hattrs
    rw [h.attributes_size]
    exact ⟨(Array.getElem?_eq_some_iff.1 hattr).1, hattrs⟩
  isOpen := h.isOpen_current hlinked

/-! ## One step -/

end Filled

/-- The slots of one node are filled, and with them those of its attributes. -/
structure Fills (tree : Tree) (spans : TreeSpans) (id : NodeId) (ranges : Ranges Span)
    (spans' : TreeSpans) : Prop where
  ranges_eq : spans'.ranges = Function.update spans.ranges id ranges
  nodes_size : spans'.nodes.size = spans.nodes.size
  attributes_size : spans'.attributes.size = spans.attributes.size
  has : ∀ a ∈ tree.attributesOf id, (spans'.attrRanges a).Has Attribute.slots
  attrRanges_eq : ∀ a ∉ tree.attributesOf id, spans'.attrRanges a = spans.attrRanges a

namespace Fills

variable {spans spans' : TreeSpans} {ranges : Ranges Span}

theorem ranges_self (h : Fills tree spans id ranges spans') : spans'.ranges id = ranges := by
  rw [h.ranges_eq, Function.update_self]

theorem ranges_of_ne (h : Fills tree spans id ranges spans') {x : NodeId} (hx : x ≠ id) :
    spans'.ranges x = spans.ranges x := by
  rw [h.ranges_eq, Function.update_of_ne hx]

end Fills

end Binder

/-- What was found stays where it is. -/
structure TreeSpans.Grows (spans spans' : TreeSpans) : Prop where
  node : ∀ id slot span, (spans.ranges id).get slot = some span →
    (spans'.ranges id).get slot = some span
  attr : ∀ a slot span, (spans.attrRanges a).get slot = some span →
    (spans'.attrRanges a).get slot = some span

theorem TreeSpans.Grows.setProlog (spans : TreeSpans) (prolog : Option PrologSpans) :
    spans.Grows { spans with prolog } :=
  ⟨fun _ _ _ hspan ↦ hspan, fun _ _ _ hspan ↦ hspan⟩

theorem TreeSpans.Grows.of_update {spans spans' : TreeSpans} {id : NodeId} {ranges : Ranges Span}
    (hranges : spans'.ranges = Function.update spans.ranges id ranges)
    (hattrs : spans'.attrRanges = spans.attrRanges)
    (hkeep : ∀ {slot span}, (spans.ranges id).get slot = some span →
      ranges.get slot = some span) : spans.Grows spans' where
  node x slot span hspan := by
    rw [hranges]
    by_cases hx : x = id
    · subst hx
      rw [Function.update_self]
      exact hkeep hspan
    · rw [Function.update_of_ne hx]
      exact hspan
  attr a slot span hspan := by
    rw [hattrs]
    exact hspan

namespace Binder

variable {tree : Tree} {d d' : Binder} {id p : NodeId} {kind : NodeKind} {i : Nat}
  {offset stop : Nat}

namespace Filled

variable {ranges : Ranges Span} {spans : TreeSpans}

/-- Slots that are filled where none was leave all others as they are. -/
theorem grows_of_fills (h : Filled tree d offset) (hlinked : tree.Linked) (howned : tree.Owned)
    (hnext : d.next? = some id) (hfills : Fills tree d.spans id ranges spans) :
    d.spans.Grows spans where
  node x slot span hspan := by
    by_cases hx : x = id
    · rw [hx, h.next_empty hnext, Ranges.get_empty] at hspan
      cases hspan
    · rw [hfills.ranges_of_ne hx]
      exact hspan
  attr a slot span hspan := by
    by_cases ha : a ∈ tree.attributesOf id
    · rw [← h.tree_eq] at ha
      rw [((h.ready hlinked howned).freshAttrs id hnext).2 a ha |>.2, Ranges.get_empty] at hspan
      cases hspan
    · rw [hfills.attrRanges_eq a ha]
      exact hspan

theorem attrs_fills (h : Filled tree d offset) (howned : tree.Owned)
    (hfills : Fills tree d.spans id ranges spans)
    (hopening : tree.attributesOf id ≠ [] → ranges.opening ≠ none) {a : AttrId} {attr : Attribute}
    (ha : tree.attr? a = some attr) :
    if (spans.ranges attr.owner).opening = none then spans.attrRanges a = .empty
    else (spans.attrRanges a).Has Attribute.slots := by
  have hmem := howned.mem ha
  by_cases howner : attr.owner = id
  · rw [howner] at hmem ⊢
    rw [hfills.ranges_self, if_neg (hopening (List.ne_nil_of_mem hmem))]
    exact hfills.has a hmem
  · -- An attribute has one owner, so those of other nodes are untouched.
    have hnot : a ∉ tree.attributesOf id := by
      intro hid
      obtain ⟨attr', hattr', rfl⟩ := howned.owner hid
      rw [ha] at hattr'
      exact howner (congrArg Attribute.owner (Option.some.inj hattr'))
    rw [hfills.ranges_of_ne howner, hfills.attrRanges_eq a hnot]
    exact h.attrs ha

theorem ranges_of_mem_path (h : Filled tree d offset) (hlinked : tree.Linked)
    (hnext : d.next? = some id) (hfills : Fills tree d.spans id ranges spans) {x : NodeId}
    (hx : x ∈ d.path) : spans.ranges x = d.spans.ranges x :=
  hfills.ranges_of_ne fun he ↦ h.next_not_mem hlinked hnext (he ▸ hx)

theorem found_advance (h : Filled tree d offset) (hlinked : tree.Linked)
    (hnext : d.next? = some id) (hfills : Fills tree d.spans id ranges spans)
    (hne : ranges ≠ .empty) :
    ∀ visit ∈ d.advance.current :: d.outer, ∀ {i : Nat} {x : NodeId},
      (tree.children visit.node)[i]? = some x → (spans.ranges x ≠ .empty ↔ i < visit.visited) := by
  intro visit hvisit i x hx
  have heq := h.eq_next_iff hlinked hnext hx
  rcases List.mem_cons.1 hvisit with rfl | hvisit
  · change (tree.children d.current.node)[i]? = some x at hx
    have hfound := h.found d.current (current_mem d) hx
    change _ ↔ i < d.current.visited + 1
    by_cases hi : i = d.current.visited
    · rw [heq.2 ⟨rfl, hi⟩, hfills.ranges_self]
      exact ⟨fun _ ↦ by omega, fun _ ↦ hne⟩
    · rw [hfills.ranges_of_ne fun he ↦ hi (heq.1 he).2, hfound]
      omega
  · -- Further out nothing changes: a child of the current node is no child of these.
    have hother : x ≠ id := fun he ↦ h.ne_current hlinked hvisit (heq.1 he).1
    rw [hfills.ranges_of_ne hother]
    exact h.found visit (List.mem_cons_of_mem _ hvisit) hx

/-- Below the nodes that the cursor is not in, nothing changes when the next child is bound, unless
this child gets a closing tag. -/
theorem below_fills (h : Filled tree d offset) (hlinked : tree.Linked) (hnext : d.next? = some id)
    (hfills : Fills tree d.spans id ranges spans) {x : NodeId} (hp : p ∉ d.path)
    (hclosed : p = id → ¬ ranges.Closed) (hx : (tree.children p)[i]? = some x) :
    spans.ranges x ≠ .empty ↔ (spans.ranges p).Closed := by
  have hne : x ≠ id := by
    intro he
    refine hp ?_
    rw [((h.eq_next_iff hlinked hnext hx).1 he).1]
    exact List.mem_cons_self
  rw [hfills.ranges_of_ne hne]
  by_cases hpid : p = id
  · subst hpid
    rw [hfills.ranges_self, h.below_next hlinked hnext hx]
    exact ⟨fun hempty ↦ absurd rfl hempty, fun hc ↦ absurd hc (hclosed rfl)⟩
  · rw [hfills.ranges_of_ne hpid]
    exact h.below hp hx

/-- The next child gets all its slots at once. -/
theorem bound (h : Filled tree d offset) (hlinked : tree.Linked) (howned : tree.Owned)
    (hnext : d.next? = some id) (hkind : tree.kind? id = some kind)
    (hfills : Fills tree d.spans id ranges spans) (hhas : ranges.Has kind.slots)
    (hclosed : tree.children id ≠ [] → ¬ ranges.Closed)
    (hopening : tree.attributesOf id ≠ [] → ranges.opening ≠ none) :
    Filled tree { d.advance with spans } offset := by
  have hold := fun x ↦ h.ranges_of_mem_path (x := x) hlinked hnext hfills
  exact {
    tree_eq := h.tree_eq
    nodes_size := hfills.nodes_size.trans h.nodes_size
    attributes_size := hfills.attributes_size.trans h.attributes_size
    path := h.path.head rfl
    root := (hold _ h.path.root_mem).trans h.root
    isOpen := fun x hx hne ↦ by
      rw [hold x hx]
      exact h.isOpen x hx hne
    has := fun {x kind'} hx hxpath ↦ by
      by_cases hxid : x = id
      · subst hxid
        rw [hkind] at hx
        cases hx
        exact Or.inr (by rw [hfills.ranges_self]; exact hhas)
      · rw [hfills.ranges_of_ne hxid]
        exact h.has hx hxpath
    found := h.found_advance hlinked hnext hfills hhas.ne_empty
    below := fun hp hx ↦ h.below_fills hlinked hnext hfills hp
      (fun he ↦ hclosed (he ▸ List.ne_nil_of_mem (List.mem_of_getElem? hx))) hx
    attrs := h.attrs_fills howned hfills hopening }

/-- The cursor goes into the next child, of which the slots of the opening tag are filled. -/
theorem entered {opening name : Span} (h : Filled tree d offset) (hlinked : tree.Linked)
    (howned : tree.Owned) (hnext : d.next? = some id) {qname : QName} {attrs : List AttrId}
    (hkind : tree.kind? id = some (.element qname attrs))
    (hfills : Fills tree d.spans id (openPlaces opening name) spans)
    (hstop : opening.stop ≤ offset) :
    Filled tree { d with current := ⟨id, 0⟩, outer := d.advance.current :: d.outer, spans }
      offset := by
  have hold := fun x ↦ h.ranges_of_mem_path (x := x) hlinked hnext hfills
  exact {
    tree_eq := h.tree_eq
    nodes_size := hfills.nodes_size.trans h.nodes_size
    attributes_size := hfills.attributes_size.trans h.attributes_size
    path := ⟨⟨d.current.visited, rfl, h.getElem?_children hnext⟩, h.path.head rfl⟩
    root := (hold _ h.path.root_mem).trans h.root
    isOpen := fun x hx hne ↦ by
      rcases List.mem_cons.1 hx with rfl | hx
      · exact ⟨⟨qname, attrs, hkind⟩, opening, name, hfills.ranges_self, hstop⟩
      · rw [hold x hx]
        exact h.isOpen x hx hne
    has := fun {x kind'} hx hxpath ↦ by
      have hxid : x ≠ id := fun he ↦ hxpath (he ▸ List.mem_cons_self)
      rw [hfills.ranges_of_ne hxid]
      exact h.has hx fun hmem ↦ hxpath (List.mem_cons_of_mem _ hmem)
    found := fun visit hvisit {i x} hx ↦ by
      rcases List.mem_cons.1 hvisit with rfl | hvisit
      · -- No child of the node that was just entered is found yet.
        have hxid : x ≠ id := by
          intro he
          exact Nat.ne_of_gt (hlinked.child hx).1 he
        rw [hfills.ranges_of_ne hxid, h.below_next hlinked hnext hx]
        exact ⟨fun hne ↦ absurd rfl hne, fun hlt ↦ absurd hlt (Nat.not_lt_zero i)⟩
      · exact h.found_advance hlinked hnext hfills (by simp [openPlaces, Ranges.empty])
          visit hvisit hx
    below := fun {p x i} hp hx ↦ h.below_fills hlinked hnext hfills
      (fun hmem ↦ hp (List.mem_cons_of_mem _ hmem))
      (fun he ↦ absurd (he ▸ List.mem_cons_self) hp) hx
    attrs := h.attrs_fills howned hfills (by simp [openPlaces]) }

theorem ranges_left (h : Filled tree d offset) (hlinked : tree.Linked) {visit : Visit}
    {outer : List Visit} (houter : d.outer = visit :: outer) (ranges : Ranges Span) :
    (d.spans.fill d.current.node ranges).ranges =
      Function.update d.spans.ranges d.current.node ranges :=
  d.spans.ranges_fill (h.isOpen_current hlinked (by simp [houter])).1 ranges

theorem ranges_left_self (h : Filled tree d offset) (hlinked : tree.Linked) {visit : Visit}
    {outer : List Visit} (houter : d.outer = visit :: outer) (ranges : Ranges Span) :
    (d.spans.fill d.current.node ranges).ranges d.current.node = ranges := by
  rw [h.ranges_left hlinked houter, Function.update_self]

theorem ranges_left_of_ne (h : Filled tree d offset) (hlinked : tree.Linked) {visit : Visit}
    {outer : List Visit} (houter : d.outer = visit :: outer) (ranges : Ranges Span) {x : NodeId}
    (hx : x ≠ d.current.node) :
    (d.spans.fill d.current.node ranges).ranges x = d.spans.ranges x := by
  rw [h.ranges_left hlinked houter, Function.update_of_ne hx]

/-- Leaving a node makes no difference to which nodes have slots. -/
theorem ranges_left_ne_empty_iff (h : Filled tree d offset) (hlinked : tree.Linked) {visit : Visit}
    {outer : List Visit} (houter : d.outer = visit :: outer) {opening name : Span}
    (hranges : d.spans.ranges d.current.node = openPlaces opening name) (closing : Span)
    (x : NodeId) :
    (d.spans.fill d.current.node (closedPlaces opening closing name)).ranges x ≠ .empty ↔
      d.spans.ranges x ≠ .empty := by
  by_cases hx : x = d.current.node
  · rw [hx, h.ranges_left_self hlinked houter, hranges]
    simp [closedPlaces, openPlaces, Ranges.empty]
  · rw [h.ranges_left_of_ne hlinked houter _ hx]

theorem mem_path_iff_of_outer {visit : Visit} {outer : List Visit}
    (houter : d.outer = visit :: outer) {x : NodeId} :
    x ∈ d.path ↔ x = d.current.node ∨ x ∈ (visit :: outer).map (·.node) := by
  rw [Binder.path, houter, List.map_cons, List.mem_cons]

/-- A closing tag that ends later than the opening tag makes an element more than the latter. -/
theorem closed_closedPlaces (opening closing name : Span)
    (hlt : opening.stop < closing.stop) : (closedPlaces opening closing name).Closed := by
  refine ⟨by simp [closedPlaces], by simp [closedPlaces], fun heq ↦ ?_⟩
  have hstops : opening.stop = closing.stop :=
    congrArg (fun whole : Option Span ↦ (whole.getD opening).stop) heq
  omega

/-- The cursor leaves a node, which gets the slots that its closing tag fills. -/
theorem left (h : Filled tree d offset) (hlinked : tree.Linked) {visit : Visit}
    {outer : List Visit} (houter : d.outer = visit :: outer) {opening closing name : Span}
    (hranges : d.spans.ranges d.current.node = openPlaces opening name)
    (hvisited : d.current.visited = (tree.children d.current.node).length)
    (hclosing : offset < closing.stop) :
    Filled tree { d with
      current := visit
      outer
      spans := d.spans.fill d.current.node (closedPlaces opening closing name) } offset := by
  have hne := h.current_ne_root hlinked (by simp [houter])
  obtain ⟨⟨qname, attrs, hkind⟩, -⟩ := h.isOpen d.current.node List.mem_cons_self hne
  have hstop := h.stop_le hlinked (by simp [houter]) hranges
  have hpath := h.path
  rw [houter] at hpath
  have hself := h.ranges_left_self hlinked houter (closedPlaces opening closing name)
  have hother := fun x ↦
    h.ranges_left_of_ne (x := x) hlinked houter (closedPlaces opening closing name)
  have hsame := h.ranges_left_ne_empty_iff hlinked houter hranges closing
  exact {
    tree_eq := h.tree_eq
    nodes_size := by
      rw [← h.nodes_size]
      exact Array.size_setIfInBounds
    attributes_size := h.attributes_size
    path := hpath.2
    root := (hother _ (Ne.symm hne)).trans h.root
    isOpen := fun x hx hroot ↦ by
      obtain ⟨other, hmem, rfl⟩ := List.mem_map.1 hx
      rw [hother _ (h.ne_current hlinked (houter ▸ hmem))]
      exact h.isOpen _ ((mem_path_iff_of_outer houter).2 (Or.inr hx)) hroot
    has := fun {x kind} hx hxpath ↦ by
      by_cases hxid : x = d.current.node
      · subst hxid
        rw [hkind] at hx
        cases hx
        rw [hself]
        exact Or.inr (Ranges.has_element _ _ _ _)
      · rw [hother x hxid]
        exact h.has hx fun hxmem ↦ ((mem_path_iff_of_outer houter).1 hxmem).elim hxid hxpath
    found := fun v hv {i x} hx ↦ by
      rw [hsame]
      exact h.found v (by rw [houter]; exact List.mem_cons_of_mem _ hv) hx
    below := fun {p x i} hp hx ↦ by
      rw [hsame]
      by_cases hpid : p = d.current.node
      · -- All children of the node were found, and it has a closing tag now.
        subst hpid
        rw [hself, h.found d.current (current_mem d) hx, hvisited]
        exact ⟨fun _ ↦ closed_closedPlaces _ _ _ (Nat.lt_of_le_of_lt hstop hclosing),
          fun _ ↦ (List.getElem?_eq_some_iff.1 hx).1⟩
      · rw [hother p hpid]
        exact h.below (fun hpmem ↦ ((mem_path_iff_of_outer houter).1 hpmem).elim hpid hp) hx
    attrs := fun {a attr} ha ↦ by
      have hattrs := h.attrs ha
      by_cases howner : attr.owner = d.current.node
      · rw [howner] at hattrs ⊢
        rw [hself]
        rw [hranges] at hattrs
        exact hattrs
      · rw [hother _ howner]
        exact hattrs }

/-! ## Any token -/

theorem not_isElement {expected : Expected} (h : Filled tree d offset)
    (hexpected : expected ≠ .element) (hmeets : d.Meets expected id kind) (name : QName)
    (attrs : List AttrId) : tree.kind? id ≠ some (.element name attrs) := by
  obtain ⟨-, hkind, haccepts⟩ := hmeets
  rw [h.tree_eq] at hkind
  rw [hkind]
  intro heq
  rw [Option.some.inj heq] at haccepts
  cases expected <;> first | exact hexpected rfl | cases haccepts

theorem fills_of_meets {expected : Expected} (h : Filled tree d offset) (hlinked : tree.Linked)
    (howned : tree.Owned) (hexpected : expected ≠ .element) (hmeets : d.Meets expected id kind) :
    tree.attributesOf id = [] ∧ Fills tree d.spans id ranges (d.spans.fill id ranges) := by
  have hattributes : tree.attributesOf id = [] := by
    refine List.eq_nil_iff_forall_not_mem.2 fun a ha ↦ ?_
    obtain ⟨name, attrs, hkind⟩ := Tree.exists_kind_of_mem_attributesOf ha
    exact h.not_isElement hexpected hmeets name attrs hkind
  have hlt := ((h.ready hlinked howned).fresh id hmeets.1).1
  refine ⟨hattributes, d.spans.ranges_fill hlt _, Array.size_setIfInBounds, rfl, ?_, fun _ _ ↦ rfl⟩
  rw [hattributes]
  simp

theorem binds {expected : Expected} (h : Filled tree d offset) (hlinked : tree.Linked)
    (howned : tree.Owned) (hexpected : expected ≠ .element) (hhas : ranges.Has expected.slots)
    (hbinds : d.Binds expected ranges d') : Filled tree d' offset := by
  obtain ⟨id, kind, hmeets, rfl⟩ := hbinds
  obtain ⟨hattributes, hfills⟩ := h.fills_of_meets hlinked howned hexpected hmeets
  have helement := h.not_isElement hexpected hmeets
  obtain ⟨hnext, hkind, haccepts⟩ := hmeets
  rw [h.tree_eq] at hkind
  have hchildren : tree.children id = [] := by
    by_contra hne
    rcases hlinked.isElement hne with hroot | helement'
    · exact hlinked.ne_root (h.getElem?_children hnext) hroot
    · obtain ⟨name, attrs, hkind'⟩ := Tree.exists_kind_of_isElement helement'
      exact helement name attrs hkind'
  rw [← Expected.slots_eq haccepts] at hhas
  exact h.bound hlinked howned hnext hkind hfills hhas (fun hne ↦ absurd hchildren hne)
    (fun hne ↦ absurd hattributes hne)

private theorem has_places (attr : AttributeLexeme) : attr.places.Has Attribute.slots := by
  intro slot
  cases slot <;> simp [AttributeLexeme.places, Ranges.get, Attribute.slots]

theorem fills_of_tagged {name : Lexeme} {attrs : List AttributeLexeme} {ids : List AttrId}
    (h : Filled tree d offset) (hlinked : tree.Linked) (howned : tree.Owned)
    (htagged : d.Tagged name attrs id ids) (ranges : Ranges Span) :
    Fills tree d.spans id ranges ((d.spans.fill id ranges).fillAttrs ids attrs) := by
  obtain ⟨⟨kind, hnext, -, -⟩, -, hperm, hnames, -⟩ := htagged
  have hready := h.ready hlinked howned
  have hlt := (hready.fresh id hnext).1
  have hroom := (hready.freshAttrs id hnext).2
  rw [h.tree_eq] at hperm hroom
  have hids : ∀ a ∈ ids, a < (d.spans.fill id ranges).attributes.size := fun a ha ↦
    (hroom a (hperm.mem_iff.2 ha)).1
  have hforall := TreeSpans.forall₂_fillAttrs hnames.length_eq
    (hperm.nodup_iff.1 (howned.nodup id)) hids
  refine ⟨?_, ?_, ?_, ?_, ?_⟩
  · have hnodes : ((d.spans.fill id ranges).fillAttrs ids attrs).nodes =
        (d.spans.fill id ranges).nodes := TreeSpans.nodes_fillAttrs ids attrs
    funext x
    rw [TreeSpans.ranges, hnodes, ← d.spans.ranges_fill hlt]
    rfl
  · rw [TreeSpans.nodes_fillAttrs]
    exact Array.size_setIfInBounds
  · rw [TreeSpans.size_fillAttrs]
    rfl
  · intro a ha
    obtain ⟨attr, -, hattr⟩ := exists_of_forall₂_of_mem hforall (hperm.mem_iff.1 ha)
    rw [hattr]
    exact has_places attr
  · intro a ha
    rw [TreeSpans.attrRanges_fillAttrs_of_not_mem (fun hmem ↦ ha (hperm.mem_iff.2 hmem)) hids]
    rfl

theorem bindsEmpty {token : Token} {name : Lexeme} {attrs : List AttributeLexeme}
    (h : Filled tree d offset) (hlinked : tree.Linked) (howned : tree.Owned)
    (hbinds : d.BindsEmpty token name attrs d') : Filled tree d' offset := by
  obtain ⟨id, ids, htagged, rfl⟩ := hbinds
  obtain ⟨kind, hnext, hkind, haccepts⟩ := htagged.meets
  rw [h.tree_eq] at hkind
  refine h.bound hlinked howned hnext hkind (h.fills_of_tagged hlinked howned htagged _) ?_
    (fun _ hclosed ↦ hclosed.2.2 rfl) (by simp)
  rw [Expected.slots_eq haccepts]
  exact Ranges.has_element _ _ _ _

theorem enters {token : Token} {name : Lexeme} {attrs : List AttributeLexeme}
    (h : Filled tree d offset) (hlinked : tree.Linked) (howned : tree.Owned)
    (hstop : token.stop ≤ offset) (henters : d.Enters token name attrs d') :
    Filled tree d' offset := by
  obtain ⟨id, ids, htagged, rfl⟩ := henters
  obtain ⟨kind, hnext, hkind, haccepts⟩ := htagged.meets
  rw [h.tree_eq] at hkind
  cases kind with
  | element qname attrs' =>
    exact h.entered hlinked howned hnext hkind (h.fills_of_tagged hlinked howned htagged _) hstop
  | _ => cases haccepts

theorem grows_of_leaves {token : Token} {written : Lexeme} (h : Filled tree d offset)
    (hlinked : tree.Linked) (hleaves : d.Leaves token written d') : d.spans.Grows d'.spans := by
  obtain ⟨visit, outer, opening, name, houter, hranges, -, -, rfl⟩ := hleaves
  refine .of_update (h.ranges_left hlinked houter _) rfl fun {slot span} hspan ↦ ?_
  rw [hranges] at hspan
  cases slot <;> first | exact hspan | cases hspan

end Filled

/-- The conditions hold throughout a replay. -/
theorem invariant_filled (hlinked : tree.Linked) (howned : tree.Owned) (tokens : List Token)
    (text : List Char) : Invariant tokens text (Filled tree) where
  ready h := h.ready hlinked howned
  bindsText h hrun _ hbinds :=
    (h.mono (Nat.le_of_lt hrun.start_lt_stop)).binds hlinked howned (by simp) (Ranges.has_whole _)
      hbinds
  takes {d d' token} h _ htoken htakes := by
    have hlt : token.start < token.span.stop := htoken.start_lt_stop
    have hmono := h.mono (Nat.le_of_lt hlt)
    unfold Takes at htakes
    split at htakes
    · cases htakes
    · obtain ⟨-, -, rfl⟩ := htakes
      exact { hmono with }
    · rw [htakes]
      exact hmono
    · exact hmono.binds hlinked howned (by simp) (Ranges.has_whole _) htakes
    · exact hmono.binds hlinked howned (by simp) (Ranges.has_delimited _ _ _) htakes
    · exact hmono.binds hlinked howned (by simp) (Ranges.has_delimited _ _ _) htakes
    · exact hmono.bindsEmpty hlinked howned htakes
    · exact hmono.enters hlinked howned (Nat.le_refl _) htakes
    · obtain ⟨visit, outer, opening, name, houter, hranges, hvisited, -, rfl⟩ := htakes
      rw [h.tree_eq] at hvisited
      exact (h.left hlinked houter hranges hvisited hlt).mono (Nat.le_of_lt hlt)

end Binder

/-! ## After the replay -/

/-- What is known of the slots when the replay is over. -/
structure TreeSpans.Settled (tree : Tree) (spans : TreeSpans) : Prop where
  root : ∃ whole, spans.ranges Tree.root = ⟨some whole, none, none, none, none⟩
  has : ∀ {id kind}, tree.kind? id = some kind →
    spans.ranges id = .empty ∨ (spans.ranges id).Has kind.slots
  top : ∀ {id}, id ∈ tree.children Tree.root → spans.ranges id ≠ .empty
  below : ∀ {p id : NodeId}, p ≠ Tree.root → id ∈ tree.children p →
    (spans.ranges id ≠ .empty ↔ (spans.ranges p).Closed)
  attrs : ∀ {a attr}, tree.attr? a = some attr →
    if (spans.ranges attr.owner).opening = none then spans.attrRanges a = .empty
    else (spans.attrRanges a).Has Attribute.slots

/-- All nodes and attributes have their slots. -/
structure TreeSpans.Complete (tree : Tree) (spans : TreeSpans) : Prop where
  nodes : ∀ {id kind}, tree.kind? id = some kind → (spans.ranges id).Has kind.slots
  attrs : ∀ {a attr}, tree.attr? a = some attr → (spans.attrRanges a).Has Attribute.slots

namespace Binder

variable {tree : Tree} {d : Binder} {spans : TreeSpans} {offset : Nat}

theorem Filled.current_eq_root (h : Filled tree d offset) (houter : d.outer = []) :
    d.current.node = Tree.root := by
  have hpath := h.path
  rw [houter] at hpath
  exact hpath

/-- At the end the document gets its place, and nothing else changes. -/
theorem Filled.exists_ranges_eq (h : Filled tree d offset) (hlinked : tree.Linked)
    (hfinishes : d.Finishes spans) : d.spans.Grows spans ∧ ∃ whole, spans.ranges =
      Function.update d.spans.ranges Tree.root ⟨some whole, none, none, none, none⟩ := by
  obtain ⟨-, -, whole, -, rfl⟩ := hfinishes
  have hupdate := d.spans.ranges_fill (h.nodes_size ▸ hlinked.root_lt_size)
    ⟨some whole, none, none, none, none⟩
  refine ⟨.of_update hupdate rfl fun hspan ↦ ?_, whole, hupdate⟩
  rw [h.root, Ranges.get_empty] at hspan
  cases hspan

/-- Then the cursor is in the document only. -/
theorem Filled.mem_path_iff (h : Filled tree d offset) (houter : d.outer = []) {id : NodeId} :
    id ∈ d.path ↔ id = Tree.root := by
  rw [Binder.path, houter, List.map_singleton, List.mem_singleton, h.current_eq_root houter]

theorem Filled.settled (h : Filled tree d offset) (hlinked : tree.Linked) (howned : tree.Owned)
    (hfinishes : d.Finishes spans) : spans.Settled tree := by
  obtain ⟨-, whole, hupdate⟩ := h.exists_ranges_eq hlinked hfinishes
  obtain ⟨houter, hvisited, _, -, rfl⟩ := hfinishes
  have hroot := h.current_eq_root houter
  have hother := fun (id : NodeId) (hne : id ≠ Tree.root) ↦
    (congrFun hupdate id).trans (Function.update_of_ne hne _ _)
  have hself := (congrFun hupdate Tree.root).trans (Function.update_self _ _ _)
  refine ⟨⟨whole, hself⟩, ?_, ?_, ?_, ?_⟩
  · intro id kind hkind
    by_cases hid : id = Tree.root
    · subst hid
      rw [hlinked.kind?_root] at hkind
      cases hkind
      rw [hself]
      exact Or.inr (Ranges.has_whole whole)
    · rw [hother id hid]
      exact h.has hkind (mt (h.mem_path_iff houter).1 hid)
  · intro id hid
    obtain ⟨i, hi⟩ := List.mem_iff_getElem?.1 hid
    rw [hother id (hlinked.ne_root hi)]
    rw [h.tree_eq, hroot] at hvisited
    refine (h.found d.current List.mem_cons_self (by rw [hroot]; exact hi)).2 ?_
    rw [hvisited]
    exact (List.getElem?_eq_some_iff.1 hi).1
  · intro p id hp hid
    obtain ⟨i, hi⟩ := List.mem_iff_getElem?.1 hid
    rw [hother id (hlinked.ne_root hi), hother p hp]
    exact h.below (mt (h.mem_path_iff houter).1 hp) hi
  · intro a attr ha
    have howner : attr.owner ≠ Tree.root := by
      intro howner
      have hmem := howned.mem ha
      rw [howner, Tree.attributesOf, hlinked.kind?_root] at hmem
      cases hmem
    rw [hother _ howner]
    exact h.attrs ha

end Binder

namespace TreeSpans.Settled

variable {tree : Tree} {spans : TreeSpans}

private theorem has_of_childless (h : spans.Settled tree) (hlinked : tree.Linked)
    (hempty : ∀ {id span}, (spans.ranges id).opening = some span →
      (spans.ranges id).whole = some span → tree.children id = []) {id : NodeId} {kind : NodeKind}
    (hkind : tree.kind? id = some kind) : (spans.ranges id).Has kind.slots := by
  -- Down from the document: a node has its slots if its parent has, and parents come first.
  induction id using Nat.strong_induction_on generalizing kind with
  | _ id ih =>
    refine (h.has hkind).resolve_left ?_
    by_cases hid : id = Tree.root
    · subst hid
      obtain ⟨whole, hroot⟩ := h.root
      rw [hroot]
      simp [Ranges.empty]
    · obtain ⟨p, i, hi⟩ := hlinked.exists_parent (Tree.lt_size_of_kind? hkind) hid
      have hmem := List.mem_of_getElem? hi
      by_cases hp : p = Tree.root
      · subst hp
        exact h.top hmem
      · obtain ⟨name, attrs, hparent⟩ := Tree.exists_kind_of_isElement
          ((hlinked.isElement (List.ne_nil_of_mem hmem)).resolve_left hp)
        have hhas := ih p (hlinked.child hi).1 hparent
        obtain ⟨whole, hwhole⟩ := Option.isSome_iff_exists.1
          ((hhas .whole).2 (by simp [NodeKind.slots]))
        obtain ⟨opening, hopening⟩ := Option.isSome_iff_exists.1
          ((hhas .opening).2 (by simp [NodeKind.slots]))
        refine (h.below hp hmem).2 ⟨?_, ?_, fun heq ↦ ?_⟩
        · exact Option.ne_none_iff_exists'.2 ⟨whole, hwhole⟩
        · exact Option.ne_none_iff_exists'.2 ⟨opening, hopening⟩
        · exact List.ne_nil_of_mem hmem (hempty hopening (heq ▸ hopening))

/-- All slots are filled exactly if no element that is bound to an empty tag has children. -/
theorem complete_iff (h : spans.Settled tree) (hlinked : tree.Linked) (howned : tree.Owned) :
    spans.Complete tree ↔ ∀ {id span}, (spans.ranges id).opening = some span →
      (spans.ranges id).whole = some span → tree.children id = [] := by
  constructor
  · intro hcomplete id span hopening hwhole
    by_contra hne
    obtain ⟨child, hchild⟩ := List.exists_mem_of_ne_nil _ hne
    have hid : id ≠ Tree.root := by
      rintro rfl
      obtain ⟨whole, hroot⟩ := h.root
      rw [hroot] at hopening
      cases hopening
    obtain ⟨i, hi⟩ := List.mem_iff_getElem?.1 hchild
    obtain ⟨kind, hkind⟩ : ∃ kind, tree.kind? child = some kind := by
      rw [← Option.isSome_iff_exists, Option.isSome_iff_ne_none, Ne, Tree.kind?_eq_none_iff]
      exact Nat.not_le.2 (hlinked.child hi).2.1
    have hclosed := (h.below hid hchild).1 (hcomplete.nodes hkind).ne_empty
    exact hclosed.2.2 (hopening.trans hwhole.symm)
  · intro hempty
    refine ⟨h.has_of_childless hlinked hempty, fun {a attr} ha ↦ ?_⟩
    -- The owner of an attribute has an opening tag, and the attribute was bound with that.
    obtain ⟨name, attrs, howner⟩ := Tree.exists_kind_of_mem_attributesOf (howned.mem ha)
    have hopening : (spans.ranges attr.owner).opening ≠ none := Option.isSome_iff_ne_none.1
      ((h.has_of_childless hlinked hempty howner .opening).2 (by simp [NodeKind.slots]))
    have hattrs := h.attrs ha
    rw [if_neg hopening] at hattrs
    exact hattrs

end TreeSpans.Settled

end XmlInspect
