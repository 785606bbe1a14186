import Mathlib.Data.List.Chain
import Mathlib.Data.List.Sort
import XmlInspect.Proofs.Shown
import XmlInspect.Query.Node

/-!
# Document order

The nodes of a tree are numbered as they are added, and they are added in the order of the text. So
the numbers tell the order of the document: whatever is below a node comes right after it, without a
gap, and what comes next is outside of it. Going through a tree from a node downwards, each node
before its children, is counting.

The order is said by `Tree.Traverses`, which knows nothing of numbers: a tree is gone through node
by node, each giving something of its own before all that is below it. With the nodes themselves it
is the order of the descendants; with each node followed by its attributes it is the order in which
queries give their results.

While a tree is built, what is still open is the right edge of the tree, and this is the only place
at which it grows. This carries the induction.
-/

namespace XmlInspect

/-! ## Going through a tree -/

namespace Tree

variable {α : Type} {tree later : Tree} {ids ids' : List NodeId}

/-- A list goes through some siblings and all that is below them. Each node gives something of its
own before what is below it. -/
inductive Traverses (tree : Tree) (own : NodeId → List α) : List NodeId → List α → Prop
  | nil : Traverses tree own [] []
  | cons {id : NodeId} {ids : List NodeId} {below after : List α} :
    Traverses tree own (tree.children id) below → Traverses tree own ids after →
      Traverses tree own (id :: ids) (own id ++ below ++ after)

namespace Traverses

variable {own : NodeId → List α} {l l' : List α}

theorem append (h : tree.Traverses own ids l) (h' : tree.Traverses own ids' l') :
    tree.Traverses own (ids ++ ids') (l ++ l') := by
  induction ids generalizing l with
  | nil =>
    cases h
    exact h'
  | cons id ids ih =>
    cases h with
    | cons hbelow hafter =>
      rw [List.cons_append, List.append_assoc]
      exact .cons hbelow (ih hafter)

private theorem exists_of_append (h : tree.Traverses own (ids ++ ids') l) :
    ∃ front rest, l = front ++ rest ∧ tree.Traverses own ids front ∧
      tree.Traverses own ids' rest := by
  induction ids generalizing l with
  | nil => exact ⟨[], l, rfl, .nil, h⟩
  | cons id ids ih =>
    cases h with
    | cons hbelow hafter =>
      obtain ⟨front, rest, rfl, hfront, hrest⟩ := ih hafter
      exact ⟨_, rest, (List.append_assoc _ _ _).symm, .cons hbelow hfront, hrest⟩

theorem singleton {id : NodeId} (h : tree.Traverses own (tree.children id) l) :
    tree.Traverses own [id] (own id ++ l) := by
  simpa using h.cons (.nil : tree.Traverses own [] [])

theorem exists_of_singleton {id : NodeId} (h : tree.Traverses own [id] l) :
    ∃ below, l = own id ++ below ∧ tree.Traverses own (tree.children id) below := by
  cases h with
  | cons hbelow hafter =>
    cases hafter
    exact ⟨_, List.append_nil _, hbelow⟩

/-- There is only one way to go through a tree. -/
theorem unique (h : tree.Traverses own ids l) (h' : tree.Traverses own ids l') : l = l' := by
  induction h generalizing l' with
  | nil =>
    cases h'
    rfl
  | cons _ _ ihbelow ihafter =>
    cases h' with
    | cons hbelow' hafter' => rw [ihbelow hbelow', ihafter hafter']

end Traverses

/-- A list goes through some siblings and all that is below them, each node before what is below
it. -/
abbrev Preorder (tree : Tree) : List NodeId → List NodeId → Prop := tree.Traverses fun id ↦ [id]

namespace Preorder

variable {l : List NodeId}

theorem flatMap (h : tree.Preorder ids l) (own : NodeId → List α) :
    tree.Traverses own ids (l.flatMap own) := by
  induction h with
  | nil => exact .nil
  | cons _ _ ihbelow ihafter =>
    rw [List.flatMap_append, List.flatMap_append, List.flatMap_singleton]
    exact .cons ihbelow ihafter

theorem congr (h : tree.Preorder ids l) (hl : ∀ id ∈ l, later.children id = tree.children id) :
    later.Preorder ids l := by
  induction h with
  | nil => exact .nil
  | cons _ _ ihbelow ihafter =>
    refine .cons ?_ (ihafter fun id hid ↦ hl id (List.mem_append_right _ hid))
    rw [hl _ (by simp)]
    exact ihbelow fun id hid ↦ hl id (by simp [hid])

theorem exists_below (h : tree.Preorder ids l) {id : NodeId} (hid : id ∈ l) :
    ∃ front below rest, l = front ++ id :: (below ++ rest) ∧
      tree.Preorder (tree.children id) below := by
  induction h with
  | nil => cases hid
  | @cons first ids below after hbelow hafter ihbelow ihafter =>
    rw [List.append_assoc, List.singleton_append, List.mem_cons, List.mem_append] at hid
    rcases hid with rfl | hid | hid
    · exact ⟨[], below, after, by simp, hbelow⟩
    · obtain ⟨front, below', rest, rfl, h⟩ := ihbelow hid
      exact ⟨first :: front, below', rest ++ after, by simp, h⟩
    · obtain ⟨front, below', rest, rfl, h⟩ := ihafter hid
      exact ⟨first :: below ++ front, below', rest, by simp, h⟩

/-- Visiting a stack goes through it, if there is fuel for all nodes. -/
theorem visit_eq {fuel : Nat} (h : tree.Preorder ids l) (hfuel : l.length ≤ fuel) :
    tree.visit fuel ids = l := by
  induction fuel generalizing ids l with
  | zero =>
    rw [visit, List.eq_nil_of_length_eq_zero (Nat.le_zero.1 hfuel)]
  | succ fuel ih =>
    cases h with
    | nil => rw [visit]; simp
    | cons hbelow hafter =>
      rw [visit, ih (hbelow.append hafter)]
      · simp
      · simpa [Nat.add_comm] using hfuel

end Preorder

/-! ## The right edge -/

/-- The second node has the first as its last child. -/
def EdgeStep (tree : Tree) (inner outer : NodeId) : Prop :=
  (tree.children outer).getLast? = some inner

/-- A tree that grows at its right edge is gone through with the new node last. -/
theorem Preorder.grow {p : NodeId} {edge : List NodeId} (kind : NodeKind) (hp : p < tree.size)
    (hedge : (p :: edge).IsChain tree.EdgeStep) {q : NodeId} (hq : q ∈ p :: edge)
    {l : List NodeId} (h : tree.Preorder (tree.children q) l) (hnodup : (q :: l).Nodup) :
    (tree.append p kind).Preorder ((tree.append p kind).children q) (l ++ [tree.size]) ∧
      p ∈ q :: l := by
  have hchildren := children_append tree hp kind
  -- From `p` outwards: what the edge passes before it comes to `p` is as it was.
  refine hedge.induction (fun q ↦ ∀ l, tree.Preorder (tree.children q) l → (q :: l).Nodup →
    (tree.append p kind).Preorder ((tree.append p kind).children q) (l ++ [tree.size]) ∧
      p ∈ q :: l) _ ?_ ?_ q hq l h hnodup
  · intro inner outer hstep ih l hl hnodup
    obtain ⟨init, hinit⟩ := List.getLast?_eq_some_iff.1 hstep
    rw [hinit] at hl
    obtain ⟨front, rest, rfl, hfront, hrest⟩ := hl.exists_of_append
    obtain ⟨below, rfl, hbelow⟩ := hrest.exists_of_singleton
    obtain ⟨houter, hnodup⟩ := List.nodup_cons.1 hnodup
    obtain ⟨-, hinner, hdisjoint⟩ := List.nodup_append.1 hnodup
    obtain ⟨hgrown, hmem⟩ := ih below hbelow hinner
    have hmem' : p ∈ front ++ ([inner] ++ below) := List.mem_append_right _ hmem
    refine ⟨?_, List.mem_cons_of_mem _ hmem'⟩
    rw [hchildren, if_neg fun (he : p = outer) ↦ houter (he ▸ hmem'), hinit, List.append_assoc,
      List.append_assoc]
    refine .append (Preorder.congr hfront fun id hid ↦ ?_) hgrown.singleton
    rw [hchildren, if_neg fun he ↦ hdisjoint id hid p hmem he.symm]
  · intro _ l hl hnodup
    have hnew : (tree.append p kind).children tree.size = [] := by
      rw [hchildren, if_neg (Nat.ne_of_lt hp), children_eq_nil_of_le (Nat.le_refl _)]
    refine ⟨?_, List.mem_cons_self⟩
    rw [List.head_cons, hchildren, if_pos rfl]
    refine .append (hl.congr fun id hid ↦ ?_) ?_
    · rw [hchildren, if_neg]
      rintro rfl
      exact (List.nodup_cons.1 hnodup).1 hid
    · have hnil : (tree.append p kind).Preorder ((tree.append p kind).children tree.size) [] := by
        rw [hnew]
        exact .nil
      exact hnil.singleton

/-! ## Building in order -/

namespace Builder

open Markup

variable {b b' : Builder} {kind : NodeKind}

/-- What a piece does to the nodes, to the attributes and to what is open: it adds a node with its
attributes and may leave it open, or it closes what is innermost, or it does nothing. -/
theorem take_cases {piece : Piece} (hsound : b.Sound) (h : b.take piece = .ok b') :
    (∃ kind, ∃ added : List Attribute, b.Adds kind b' ∧
      (b'.path = b.path ∨ b'.path = b.tree.size :: b.path) ∧
      b'.tree.attributes = b.tree.attributes ++ added ∧
      ∀ attr ∈ added, attr.owner = b.tree.size) ∨
    b'.tree = b.tree ∧ b'.rootSeen = b.rootSeen ∧
      (b'.path = b.path ∨ ∃ p, b.path = p :: b'.path) := by
  unfold take at h
  split at h
  · obtain ⟨text, -, rfl⟩ := takeText_eq_ok h
    exact Or.inl ⟨_, [], adds_appendLeaf b _, Or.inl rfl, by simp [appendLeaf, append], by simp⟩
  · rename_i selfClosing _
    obtain ⟨scope, name, raws, attrs, -, -, -, rfl⟩ := takeOpenTag_eq_ok h
    refine Or.inl ⟨_, _, adds_appendElement rfl, ?_, rfl, ?_⟩
    · cases selfClosing with
      | true => exact Or.inl rfl
      | false => exact Or.inr rfl
    · intro attr hattr
      obtain ⟨_, -, rfl⟩ := List.mem_map.1 hattr
      rfl
  · obtain ⟨frame, frames, hframes, -, rfl⟩ := takeCloseTag_eq_ok (reportAt_eq_ok_iff.1 h)
    refine Or.inr ⟨rfl, rfl, Or.inr ⟨frame.node, ?_⟩⟩
    rw [path, hframes]
    rfl
  · rw [takeComment_eq_ok (reportAt_eq_ok_iff.1 h)]
    exact Or.inl ⟨_, [], adds_appendLeaf b _, Or.inl rfl, by simp [appendLeaf, append], by simp⟩
  · rw [takeCdata_eq_ok (reportAt_eq_ok_iff.1 h)]
    exact Or.inl ⟨_, [], adds_appendLeaf b _, Or.inl rfl, by simp [appendLeaf, append], by simp⟩
  · have h := reportAt_eq_ok_iff.1 h
    have hadds := adds_of_takeDoctype hsound h
    obtain ⟨-, -, rfl⟩ := takeDoctype_eq_ok h
    exact Or.inl ⟨_, [], hadds, Or.inl rfl, by simp [append], by simp⟩
  · split at h
    · cases h
      exact Or.inr ⟨rfl, rfl, Or.inl rfl⟩
    · cases h
  · cases h
    exact Or.inr ⟨rfl, rfl, Or.inl rfl⟩

/-- What holds of the order of a tree between any two pieces. -/
structure Ordered (b : Builder) : Prop where
  preorder : b.tree.Preorder [root] (List.range b.tree.size)
  /-- What is open is the right edge of the tree. -/
  edge : b.path.IsChain b.tree.EdgeStep
  parent?_root : b.tree.parent? root = none
  owners : b.tree.attributes.toList.Pairwise fun attr attr' ↦ attr.owner ≤ attr'.owner

theorem ordered_initial (mode : NamespaceMode) : (initial mode).Ordered where
  preorder := Traverses.singleton .nil
  edge := .singleton _
  parent?_root := rfl
  owners := .nil

namespace Ordered

private theorem preorder_adds (h : b.Ordered) (hsound : b.Sound) (hadds : b.Adds kind b') :
    b'.tree.Preorder [root] (List.range b'.tree.size) := by
  obtain ⟨edge, hpath⟩ := b.exists_path_eq
  obtain ⟨below, hrange, hbelow⟩ := h.preorder.exists_of_singleton
  have hroot : root ∈ b.parent :: edge := by
    rw [← hpath, path]
    exact List.mem_append_right _ List.mem_cons_self
  have hnodup : (root :: below).Nodup := by
    rw [← List.singleton_append, ← hrange]
    exact List.nodup_range
  have hsize : b'.tree.size = b.tree.size + 1 := by
    rw [size, hadds, ← size, size_append]
  have hgrown := (Preorder.grow kind hsound.parent_lt (hpath ▸ h.edge) hroot hbelow hnodup).1
  rw [hsize, List.range_succ, hrange, List.append_assoc]
  exact Preorder.congr hgrown.singleton fun id _ ↦ children_congr hadds id

/-- The right edge stays one, and the new node may be put at its end. -/
theorem edge_adds (h : b.Ordered) (hsound : b.Sound) (hadds : b.Adds kind b') :
    b.path.IsChain b'.tree.EdgeStep ∧ (b.tree.size :: b.path).IsChain b'.tree.EdgeStep := by
  obtain ⟨edge, hpath⟩ := b.exists_path_eq
  have hedge := h.edge
  rw [hpath] at hedge ⊢
  have hdecreasing : (b.parent :: edge).Pairwise (· > ·) := by
    refine (hedge.imp fun inner outer hstep ↦ ?_).pairwise
    obtain ⟨i, hi⟩ := List.getElem?_of_mem (List.mem_of_getLast? hstep)
    exact (hsound.linked.child hi).1
  have hold : (b.parent :: edge).IsChain b'.tree.EdgeStep := by
    refine hedge.imp_of_mem_tail_imp fun inner outer _ houter hstep ↦ ?_
    rw [EdgeStep, hadds.children_eq hsound, if_neg]
    · exact hstep
    · exact Nat.ne_of_gt ((List.pairwise_cons.1 hdecreasing).1 outer houter)
  refine ⟨hold, List.isChain_cons_cons.2 ⟨?_, hold⟩⟩
  rw [EdgeStep, hadds.children_eq hsound, if_pos rfl, List.getLast?_concat]

theorem take {piece : Piece} (h : b.Ordered) (hsound : b.Sound) (ht : b.take piece = .ok b') :
    b'.Ordered := by
  rcases take_cases hsound ht with ⟨kind, added, hadds, hpath, hattributes, howner⟩ |
    ⟨htree, -, hpath⟩
  · obtain ⟨hold, hnew⟩ := h.edge_adds hsound hadds
    refine ⟨h.preorder_adds hsound hadds, ?_, ?_, ?_⟩
    · rcases hpath with hpath | hpath
      · rw [hpath]
        exact hold
      · rw [hpath]
        exact hnew
    · rw [parent?, hadds, ← parent?, parent?_append,
        if_neg (Nat.ne_of_lt hsound.linked.root_lt_size)]
      exact h.parent?_root
    · rw [hattributes, Array.toList_appendList, List.pairwise_append]
      refine ⟨h.owners, ?_, ?_⟩
      · refine List.pairwise_of_forall_mem_list fun attr hattr attr' hattr' ↦ ?_
        rw [howner attr hattr, howner attr' hattr']
      · intro attr hattr attr' hattr'
        obtain ⟨a, ha⟩ := List.getElem?_of_mem hattr
        obtain ⟨name, attrs, hkind⟩ := exists_kind_of_mem_attributesOf
          (hsound.owned.mem (by rwa [attr?, ← Array.getElem?_toList]))
        rw [howner attr' hattr']
        exact Nat.le_of_lt (lt_size_of_kind? hkind)
  · refine ⟨htree ▸ h.preorder, ?_, htree ▸ h.parent?_root, htree ▸ h.owners⟩
    rw [htree]
    rcases hpath with hpath | ⟨p, hpath⟩
    · rw [hpath]
      exact h.edge
    · have hedge := h.edge
      rw [hpath] at hedge
      exact hedge.tail

theorem foldlM {pieces : List Piece} (h : b.Ordered) (hsound : b.Sound)
    (hrun : pieces.foldlM Builder.take b = .ok b') : b'.Ordered :=
  (foldlM_induction (P := fun c ↦ c.Sound ∧ c.Ordered)
    (fun _ _ _ hc htake ↦ ⟨(hc.1.take htake).1, hc.2.take hc.1 htake⟩) ⟨hsound, h⟩ hrun).2

end Ordered

end Builder

/-! ## Built trees in order -/

theorem eq_range'_of_range_eq {n id : Nat} {front below rest : List Nat}
    (h : List.range n = front ++ id :: (below ++ rest)) :
    below = List.range' (id + 1) below.length := by
  have hget : ∀ i (hi : i < (front ++ id :: (below ++ rest)).length),
      (front ++ id :: (below ++ rest))[i] = i := by
    intro i hi
    simp only [← h, List.getElem_range]
  have hid : id = front.length := by
    simpa using hget front.length (by simp)
  refine List.ext_getElem (by simp) fun i hi _ ↦ ?_
  have hi' := hget (front.length + 1 + i) (by simp; omega)
  rw [List.getElem_append_right (by omega)] at hi'
  simp only [show front.length + 1 + i - front.length = i + 1 by omega, List.getElem_cons_succ,
    List.getElem_append_left hi] at hi'
  rw [hi', List.getElem_range', Nat.one_mul, hid]

/-- What is below a node has the numbers right after it, and the stack gives it in this order. -/
theorem exists_descendants_eq (h : tree.Preorder [root] (List.range tree.size)) (id : NodeId) :
    tree.Preorder (tree.children id) (tree.descendants id) ∧
      ∃ k, tree.descendants id = List.range' (id + 1) k := by
  by_cases hid : id < tree.size
  · obtain ⟨front, below, rest, hrange, hbelow⟩ := h.exists_below (List.mem_range.2 hid)
    have hlength : below.length ≤ tree.size := by
      have := congrArg List.length hrange
      simp at this
      omega
    have hdescendants : tree.descendants id = below := hbelow.visit_eq hlength
    rw [hdescendants]
    exact ⟨hbelow, below.length, eq_range'_of_range_eq hrange⟩
  · have hchildren := children_eq_nil_of_le (Nat.le_of_not_lt hid)
    have hdescendants : tree.descendants id = [] := by
      rw [descendants, hchildren]
      exact Preorder.visit_eq (.nil : tree.Preorder [] []) (Nat.zero_le _)
    rw [hdescendants, hchildren]
    exact ⟨.nil, 0, rfl⟩

/-- The numbers of the nodes and attributes of a tree tell their order. -/
structure InDocumentOrder (tree : Tree) : Prop where
  document_iff : ∀ {id}, tree.kind? id = some .document ↔ id = root
  parent?_root : tree.parent? root = none
  /-- Every other node has its place among the children of a node before it, and no other place. -/
  exists_parent : ∀ {id}, id < tree.size → id ≠ root → ∃ p, tree.parent? id = some p ∧ p < id ∧
    (p = root ∨ tree.isElement p) ∧ (tree.children p)[tree.indexOf id]? = some id ∧
    ∀ q i, (tree.children q)[i]? = some id → q = p ∧ i = tree.indexOf id
  /-- Going through the document is counting its nodes. -/
  preorder_root : tree.Preorder [root] (List.range tree.size)
  preorder : ∀ id, tree.Preorder (tree.children id) (tree.descendants id)
  descendants_eq : ∀ id, ∃ k, tree.descendants id = List.range' (id + 1) k
  /-- An attribute is listed by its owner, once, and by no other element. -/
  attributesOf_iff : ∀ {a attr}, tree.attr? a = some attr →
    ∀ id, a ∈ tree.attributesOf id ↔ id = attr.owner
  exists_attr : ∀ {id a}, a ∈ tree.attributesOf id → ∃ attr, tree.attr? a = some attr
  attributesOf_sorted : ∀ id, (tree.attributesOf id).Pairwise (· < ·)
  lt_of_owner_lt : ∀ {a a' attr attr'}, tree.attr? a = some attr → tree.attr? a' = some attr' →
    attr.owner < attr'.owner → a < a'

theorem inDocumentOrder_of_build {mode : NamespaceMode} {body : List Char}
    (h : build mode body = .ok tree) : tree.InDocumentOrder := by
  obtain ⟨pieces, b, -, hrun, -, -, rfl⟩ := exists_run_of_build h
  have hsound := ((Builder.sound_initial mode).foldlM hrun).1
  have hordered := (Builder.ordered_initial mode).foldlM (Builder.sound_initial mode) hrun
  have hlinked := hsound.linked
  have howned := hsound.owned
  refine {
    document_iff := ⟨hlinked.eq_root, fun hid ↦ hid ▸ hlinked.kind?_root⟩
    parent?_root := hordered.parent?_root
    exists_parent := ?_
    preorder_root := hordered.preorder
    preorder := fun id ↦ (exists_descendants_eq hordered.preorder id).1
    descendants_eq := fun id ↦ (exists_descendants_eq hordered.preorder id).2
    attributesOf_iff := ?_
    exists_attr := fun ha ↦ (howned.owner ha).imp fun _ ↦ And.left
    attributesOf_sorted := howned.sorted
    lt_of_owner_lt := ?_ }
  · intro id hlt hne
    obtain ⟨p, i, hp⟩ := hlinked.exists_parent hlt hne
    obtain ⟨hpid, -, hparent, rfl⟩ := hlinked.child hp
    refine ⟨p, hparent, hpid, hlinked.isElement ?_, hp, fun q i hq ↦ hlinked.child_unique hq hp⟩
    exact List.ne_nil_of_mem (List.mem_of_getElem? hp)
  · intro a attr ha id
    constructor
    · intro hid
      obtain ⟨attr', ha', howner⟩ := howned.owner hid
      rw [ha] at ha'
      cases ha'
      exact howner.symm
    · rintro rfl
      exact howned.mem ha
  · intro a a' attr attr' ha ha' hlt
    obtain ⟨hsize, rfl⟩ := Array.getElem?_eq_some_iff.1 ha
    obtain ⟨hsize', rfl⟩ := Array.getElem?_eq_some_iff.1 ha'
    by_contra hle
    rcases Nat.lt_or_eq_of_le (Nat.le_of_not_lt hle) with hlt' | rfl
    · -- Later attributes have later owners.
      have hle' := List.pairwise_iff_getElem.1 hordered.owners a' a hsize' hsize hlt'
      exact absurd hlt (Nat.not_lt.2 hle')
    · exact Nat.lt_irrefl _ hlt

end Tree

/-! ## The order of queries -/

section EraseReps

variable {β : Type} {R : β → β → Prop}

private theorem eraseRepsBy_loop_eq {r : β → β → Bool} (a : β) (l acc : List β) :
    List.eraseRepsBy.loop r a l acc = acc.reverse ++ List.eraseRepsBy.loop r a l [] := by
  induction l generalizing a acc with
  | nil => simp [List.eraseRepsBy.loop]
  | cons b l ih =>
    simp only [List.eraseRepsBy.loop]
    split
    · exact ih a acc
    · rw [ih b (a :: acc), ih b [a]]
      simp

variable [BEq β]

theorem eraseReps_cons_cons (a b : β) (l : List β) :
    (a :: b :: l).eraseReps =
      if a == b then (a :: l).eraseReps else a :: (b :: l).eraseReps := by
  simp only [List.eraseReps, List.eraseRepsBy, List.eraseRepsBy.loop]
  split
  · rename_i h
    rw [if_pos h]
  · rename_i h
    rw [h, if_neg (by simp), eraseRepsBy_loop_eq]
    rfl

variable [LawfulBEq β]

theorem mem_eraseReps {x : β} {l : List β} : x ∈ l.eraseReps ↔ x ∈ l := by
  match l with
  | [] => rfl
  | [a] => rfl
  | a :: b :: l =>
    rw [eraseReps_cons_cons]
    split
    · rename_i h
      rw [mem_eraseReps, beq_iff_eq.1 h]
      simp
    · rw [List.mem_cons, mem_eraseReps, ← List.mem_cons]

private theorem pairwise_eraseReps (htrans : ∀ x y z, R x y → R y z → R x z) {l : List β}
    (h : l.Pairwise fun x y ↦ R x y ∨ x = y) : l.eraseReps.Pairwise R := by
  match l with
  | [] => exact .nil
  | [a] => exact .cons (by simp) .nil
  | a :: b :: l =>
    obtain ⟨ha, hbl⟩ := List.pairwise_cons.1 h
    obtain ⟨hb, hl⟩ := List.pairwise_cons.1 hbl
    rw [eraseReps_cons_cons]
    split
    · exact pairwise_eraseReps htrans (.cons (fun x hx ↦ ha x (List.mem_cons_of_mem _ hx)) hl)
    · rename_i hne
      have hab : R a b := (ha b List.mem_cons_self).resolve_right fun he ↦ hne (beq_iff_eq.2 he)
      refine .cons (fun x hx ↦ ?_) (pairwise_eraseReps htrans hbl)
      rcases List.mem_cons.1 (mem_eraseReps.1 hx) with rfl | hx
      · exact hab
      · rcases hb x hx with hbx | rfl
        · exact htrans a b x hab hbx
        · exact hab

end EraseReps

namespace Query

variable {tree : Tree} {x y z : QueryNode}

namespace QueryNode

/-- A node, followed by its attributes. -/
def ownOf (tree : Tree) (id : NodeId) : List QueryNode :=
  .node id :: (tree.attributesOf id).map .attr

/-- One node comes before another. -/
def Before (tree : Tree) (x y : QueryNode) : Prop :=
  (x.orderKey tree).1 < (y.orderKey tree).1 ∨
    (x.orderKey tree).1 = (y.orderKey tree).1 ∧ (x.orderKey tree).2 < (y.orderKey tree).2

theorem Before.trans (h : x.Before tree y) (h' : y.Before tree z) : x.Before tree z := by
  unfold Before at *
  omega

theorem Before.irrefl : ¬ x.Before tree x := by
  unfold Before
  omega

private theorem eq_of_orderKey_eq (h : x.orderKey tree = y.orderKey tree) : x = y := by
  cases x <;> cases y <;> simp_all [orderKey]

private theorem notAfter_iff : notAfter tree x y = true ↔ x.Before tree y ∨ x = y := by
  simp only [notAfter, Bool.or_eq_true, Bool.and_eq_true, decide_eq_true_eq, beq_iff_eq]
  constructor
  · rintro (hlt | ⟨heq, hle⟩)
    · exact Or.inl (Or.inl hlt)
    · rcases Nat.lt_or_eq_of_le hle with hlt | heq'
      · exact Or.inl (Or.inr ⟨heq, hlt⟩)
      · exact Or.inr (eq_of_orderKey_eq (Prod.ext heq heq'))
  · rintro ((hlt | ⟨heq, hlt⟩) | rfl)
    · exact Or.inl hlt
    · exact Or.inr ⟨heq, Nat.le_of_lt hlt⟩
    · exact Or.inr ⟨rfl, Nat.le_refl _⟩

instance : Std.Irrefl (Before tree) := ⟨fun _ ↦ Before.irrefl⟩

instance : Std.Antisymm (Before tree) := ⟨fun _ _ h h' ↦ absurd (h.trans h') Before.irrefl⟩

/-- What a node gives has its number first in its key. -/
theorem orderKey_of_mem_ownOf (h : tree.InDocumentOrder) {id : NodeId} (hx : x ∈ ownOf tree id) :
    (x.orderKey tree).1 = id := by
  rcases List.mem_cons.1 hx with rfl | hx
  · rfl
  · obtain ⟨a, ha, rfl⟩ := List.mem_map.1 hx
    obtain ⟨attr, hattr⟩ := h.exists_attr ha
    rw [orderKey, ownerOf, hattr]
    exact ((h.attributesOf_iff hattr id).1 ha).symm

end QueryNode

open QueryNode

theorem mem_documentOrder {nodes : List QueryNode} :
    x ∈ documentOrder tree nodes ↔ x ∈ nodes := by
  rw [documentOrder, mem_eraseReps, List.mem_mergeSort]

theorem pairwise_documentOrder (tree : Tree) (nodes : List QueryNode) :
    (documentOrder tree nodes).Pairwise (Before tree) := by
  have hsorted : (nodes.mergeSort (notAfter tree)).Pairwise fun x y ↦ x.Before tree y ∨ x = y := by
    refine (List.pairwise_mergeSort ?_ ?_ nodes).imp fun h ↦ notAfter_iff.1 h
    · intro x y z
      simp only [notAfter, Bool.or_eq_true, Bool.and_eq_true, decide_eq_true_eq, beq_iff_eq]
      omega
    · intro x y
      simp only [notAfter, Bool.or_eq_true, Bool.and_eq_true, decide_eq_true_eq, beq_iff_eq]
      omega
  have htrans : ∀ x y z, Before tree x y → Before tree y z → Before tree x z := fun _ _ _ ↦ .trans
  exact pairwise_eraseReps htrans hsorted

theorem pairwise_flatMap_ownOf (h : tree.InDocumentOrder) :
    ((List.range tree.size).flatMap (ownOf tree)).Pairwise (Before tree) := by
  refine List.pairwise_flatMap.2 ⟨fun id _ ↦ ?_, ?_⟩
  · refine List.pairwise_cons.2 ⟨fun x hx ↦ ?_, List.pairwise_map.2 ?_⟩
    · have hkey := orderKey_of_mem_ownOf h (List.mem_cons_of_mem _ hx)
      obtain ⟨a, -, rfl⟩ := List.mem_map.1 hx
      exact Or.inr ⟨hkey.symm, Nat.succ_pos a⟩
    · refine (h.attributesOf_sorted id).imp_of_mem fun {a a'} ha ha' hlt ↦ Or.inr ⟨?_, ?_⟩
      · rw [orderKey_of_mem_ownOf h (List.mem_cons_of_mem _ (List.mem_map_of_mem ha)),
          orderKey_of_mem_ownOf h (List.mem_cons_of_mem _ (List.mem_map_of_mem ha'))]
      · exact Nat.succ_lt_succ hlt
  · refine List.pairwise_lt_range.imp fun hlt x hx y hy ↦ Or.inl ?_
    rw [orderKey_of_mem_ownOf h hx, orderKey_of_mem_ownOf h hy]
    exact hlt

/-- Sorting puts nodes into the order in which the tree gives them. -/
theorem documentOrder_eq (h : tree.InDocumentOrder) {nodes : List QueryNode}
    (hnodes : ∀ x ∈ nodes, x ∈ (List.range tree.size).flatMap (ownOf tree)) :
    documentOrder tree nodes =
      ((List.range tree.size).flatMap (ownOf tree)).filter (· ∈ nodes) := by
  refine (pairwise_documentOrder tree nodes).eq_of_mem_iff
    ((pairwise_flatMap_ownOf h).filter _) fun x ↦ ?_
  rw [mem_documentOrder, List.mem_filter, decide_eq_true_iff]
  exact ⟨fun hx ↦ ⟨hnodes x hx, hx⟩, And.right⟩

theorem node_mem_flatMap_ownOf {id : NodeId} :
    .node id ∈ (List.range tree.size).flatMap (ownOf tree) ↔ id < tree.size := by
  simp [ownOf]

theorem attr_mem_flatMap_ownOf (h : tree.InDocumentOrder) {a : AttrId} :
    .attr a ∈ (List.range tree.size).flatMap (ownOf tree) ↔ ∃ attr, tree.attr? a = some attr := by
  rw [List.mem_flatMap]
  constructor
  · rintro ⟨id, -, ha⟩
    exact h.exists_attr (by simpa [ownOf] using ha)
  · rintro ⟨attr, hattr⟩
    have hmem := (h.attributesOf_iff hattr attr.owner).2 rfl
    obtain ⟨name, attrs, hkind⟩ := Tree.exists_kind_of_mem_attributesOf hmem
    exact ⟨attr.owner, List.mem_range.2 (Tree.lt_size_of_kind? hkind), by simp [ownOf, hmem]⟩

end Query

namespace Document

open Query

/-- The numbers of the nodes and attributes of a parsed document tell its order. Going through it,
with the attributes of an element after the element and before what is in it, gives every node and
every attribute, and sorting some of them by their keys puts them into this order. -/
theorem inDocumentOrder_of_parse {source : Source} {mode : NamespaceMode} {doc : Document}
    (h : parse source mode = .ok doc) :
    doc.tree.InDocumentOrder ∧
    ∃ order, doc.tree.Traverses (fun id ↦ .node id :: (doc.tree.attributesOf id).map .attr)
        [Tree.root] order ∧
      (∀ id, .node id ∈ order ↔ id < doc.tree.size) ∧
      (∀ a, .attr a ∈ order ↔ ∃ attr, doc.tree.attr? a = some attr) ∧
      ∀ nodes, (∀ x ∈ nodes, x ∈ order) →
        documentOrder doc.tree nodes = order.filter (· ∈ nodes) := by
  obtain ⟨spans, hbuild, -, -⟩ := exists_spans_of_parse h
  have htree := Tree.inDocumentOrder_of_build hbuild
  exact ⟨htree, _, htree.preorder_root.flatMap _, fun _ ↦ node_mem_flatMap_ownOf,
    fun _ ↦ attr_mem_flatMap_ownOf htree, fun _ ↦ documentOrder_eq htree⟩

theorem inDocumentOrder_of_parse_nested :
    ∃ doc, parse (.ofText "" "<a b='c'><d e='f' g='h'/>i</a>") .aware = .ok doc ∧
      doc.tree.InDocumentOrder ∧ doc.tree.children 1 = [2, 3] ∧
      documentOrder doc.tree [.node 3, .attr 2, .node 1, .attr 0, .node 3, .node 2] =
        [.node 1, .attr 0, .node 2, .attr 2, .node 3] := by
  have hrun : (parse (.ofText "" "<a b='c'><d e='f' g='h'/>i</a>") .aware).toOption.any (fun doc ↦
      doc.tree.children 1 == [2, 3] &&
      (List.range doc.tree.size).flatMap (QueryNode.ownOf doc.tree) ==
        [.node 0, .node 1, .attr 0, .node 2, .attr 1, .attr 2, .node 3]) = true := by
    decide +kernel
  obtain ⟨doc, hparse, hdoc⟩ := exists_of_any hrun
  obtain ⟨hchildren, hall⟩ := Bool.and_eq_true_iff.1 hdoc
  obtain ⟨htree, order, horder, -, -, hsort⟩ := inDocumentOrder_of_parse hparse
  have horder : order = [.node 0, .node 1, .attr 0, .node 2, .attr 1, .attr 2, .node 3] :=
    (horder.unique (htree.preorder_root.flatMap _)).trans (beq_iff_eq.1 hall)
  refine ⟨doc, hparse, htree, beq_iff_eq.1 hchildren, ?_⟩
  rw [hsort _ (by rw [horder]; decide), horder]
  decide

end Document

end XmlInspect
