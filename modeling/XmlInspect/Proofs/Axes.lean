import Mathlib.Logic.Relation
import XmlInspect.Proofs.NodeSets
import XmlInspect.Proofs.Qualifiers

/-!
# Axes

Each axis has its own way of finding nodes: the list of children, the link to the parent followed
once or to the end, a stack of nodes still to be visited, the place of a node among its siblings.
What an axis is meant to find can be said with the links to the parents alone, and then axes come in
pairs: what one finds from a node, the other finds on the way back. That the lists of children and
the places in them tell the same story as the parents is where the order of the tree comes in.

Seen from a node of the tree, an axis goes forward or back through the document. It lists what it
finds in this order and lists nothing twice.
-/

namespace XmlInspect

namespace Tree

variable {tree : Tree} {m n p : NodeId} {ids l : List NodeId}

/-! ## Above and below -/

/-- The way up from the first node comes to the second. -/
def Below (tree : Tree) : NodeId → NodeId → Prop :=
  Relation.TransGen fun child p ↦ tree.parent? child = some p

theorem below_iff_exists_child :
    tree.Below m n ↔ ∃ c, tree.parent? c = some n ∧ (m = c ∨ tree.Below m c) := by
  rw [Below, Relation.TransGen.tail'_iff]
  refine exists_congr fun c ↦ ?_
  rw [Relation.reflTransGen_iff_eq_or_transGen, and_comm, eq_comm (a := c)]

theorem below_iff_exists_parent :
    tree.Below m n ↔ ∃ p, tree.parent? m = some p ∧ (n = p ∨ tree.Below p n) := by
  rw [Below, Relation.TransGen.head'_iff]
  simp only [Relation.reflTransGen_iff_eq_or_transGen]

theorem chain_eq_nil {next : NodeId → Option NodeId} (h : next n = none) (fuel : Nat) :
    chain next fuel n = [] := by
  cases fuel with
  | zero => rfl
  | succ fuel => rw [chain, h]

theorem ancestors_eq_nil_of_parent? (h : tree.parent? m = none) : tree.ancestors m = [] :=
  chain_eq_nil h _

theorem followingSiblings_eq_nil (h : tree.parent? n = none) : tree.followingSiblings n = [] :=
  chain_eq_nil (by rw [nextSibling?, h]; rfl) _

theorem precedingSiblings_eq_nil (h : tree.parent? n = none) : tree.precedingSiblings n = [] :=
  chain_eq_nil (by rw [previousSibling?, h]; rfl) _

theorem Preorder.sublist (hl : tree.Preorder ids l) : ids.Sublist l := by
  induction hl with
  | nil => exact .refl _
  | cons _ _ _ ihafter =>
    rw [List.append_assoc, List.singleton_append]
    exact (ihafter.trans (List.sublist_append_right _ _)).cons_cons _

/-- A list is found by going from each of its nodes to the next. -/
theorem chain_eq_drop {next : NodeId → Option NodeId}
    (hnext : ∀ {i n}, l[i]? = some n → next n = l[i + 1]?) {fuel i : Nat} (hn : l[i]? = some n)
    (hfuel : l.length ≤ fuel + i + 1) : chain next fuel n = l.drop (i + 1) := by
  induction fuel generalizing i n with
  | zero => rw [chain, List.drop_of_length_le (by omega)]
  | succ fuel ih =>
    rw [chain, hnext hn]
    cases hm : l[i + 1]? with
    | none => rw [List.drop_of_length_le (List.getElem?_eq_none_iff.1 hm)]
    | some m =>
      obtain ⟨hi, hget⟩ := List.getElem?_eq_some_iff.1 hm
      rw [List.drop_eq_getElem_cons hi, hget, ← ih hm (by omega)]

theorem length_visit_le (tree : Tree) (fuel : Nat) (stack : List NodeId) :
    (tree.visit fuel stack).length ≤ fuel := by
  fun_induction visit tree fuel stack with
  | case1 => exact Nat.le_refl 0
  | case2 => exact Nat.zero_le _
  | case3 fuel id stack ih => exact Nat.succ_le_succ ih

namespace InDocumentOrder

/-- A node is found at its place among the children of its parent. -/
theorem getElem?_children (h : tree.InDocumentOrder) (hp : tree.parent? n = some p) :
    (tree.children p)[tree.indexOf n]? = some n := by
  obtain ⟨hlt, hn⟩ := h.lt_of_parent? hp
  obtain ⟨q, hq, -, -, hplace, -⟩ := h.exists_parent hn (Nat.ne_zero_of_lt hlt)
  rw [hp] at hq
  cases hq
  exact hplace

/-- Children and parents agree. -/
theorem mem_children_iff (h : tree.InDocumentOrder) :
    m ∈ tree.children p ↔ tree.parent? m = some p := by
  constructor
  · intro hm
    have hp : p < tree.size := by
      by_contra hp
      rw [children_eq_nil_of_le (Nat.le_of_not_lt hp)] at hm
      cases hm
    obtain ⟨front, below, rest, hrange, hbelow⟩ :=
      h.preorder_root.exists_below (List.mem_range.2 hp)
    have hmem : m ∈ below := hbelow.sublist.subset hm
    have hlt : m < tree.size := List.mem_range.1 (hrange ▸ by simp [hmem])
    have hne : m ≠ root := by
      rw [eq_range'_of_range_eq hrange, List.mem_range'_1] at hmem
      exact Nat.ne_of_gt (Nat.lt_of_lt_of_le (Nat.succ_pos p) hmem.1)
    obtain ⟨q, hq, -, -, -, hunique⟩ := h.exists_parent hlt hne
    obtain ⟨i, hi⟩ := List.getElem?_of_mem hm
    rw [hq, (hunique p i hi).1]
  · intro hp
    exact List.mem_of_getElem? (h.getElem?_children hp)

theorem parent?_of_getElem? (h : tree.InDocumentOrder) {i : Nat}
    (hm : (tree.children p)[i]? = some m) : tree.parent? m = some p ∧ i = tree.indexOf m := by
  have hp := h.mem_children_iff.1 (List.mem_of_getElem? hm)
  obtain ⟨hlt, hsize⟩ := h.lt_of_parent? hp
  obtain ⟨q, -, -, -, -, hunique⟩ := h.exists_parent hsize (Nat.ne_zero_of_lt hlt)
  exact ⟨hp, (hunique p i hm).2⟩

/-- A list goes through the nodes it starts from and all that is below them. -/
theorem mem_preorder_iff (h : tree.InDocumentOrder) (hl : tree.Preorder ids l) :
    m ∈ l ↔ ∃ n ∈ ids, m = n ∨ tree.Below m n := by
  induction hl with
  | nil => simp
  | cons _ _ ihbelow ihafter =>
    -- What is below the first node is one of its children or below one.
    simp only [List.mem_append, List.mem_singleton, List.exists_mem_cons_iff, ihbelow, ihafter,
      h.mem_children_iff, ← below_iff_exists_child]

theorem mem_descendants_iff (h : tree.InDocumentOrder) :
    m ∈ tree.descendants n ↔ tree.Below m n := by
  rw [h.mem_preorder_iff (h.preorder n), below_iff_exists_child]
  simp only [h.mem_children_iff]

theorem mem_ancestors_iff (h : tree.InDocumentOrder) :
    n ∈ tree.ancestors m ↔ tree.Below m n := by
  induction m using Nat.strong_induction_on with
  | _ m ih =>
    rw [below_iff_exists_parent]
    cases hp : tree.parent? m with
    | none => simp [ancestors_eq_nil_of_parent? hp]
    | some p =>
      rw [h.ancestors_of_parent? hp, List.mem_cons, ih p (h.lt_of_parent? hp).1]
      simp

theorem lt_of_below (h : tree.InDocumentOrder) (hbelow : tree.Below m n) : n < m := by
  induction hbelow with
  | single hp => exact (h.lt_of_parent? hp).1
  | tail _ hp ih => exact Nat.lt_trans (h.lt_of_parent? hp).1 ih

/-! ## The order of relatives -/

theorem descendants_sorted (h : tree.InDocumentOrder) (n : NodeId) :
    (tree.descendants n).Pairwise (· < ·) := by
  obtain ⟨k, hk⟩ := h.descendants_eq n
  rw [hk]
  exact List.pairwise_lt_range'

theorem children_sorted (h : tree.InDocumentOrder) (p : NodeId) :
    (tree.children p).Pairwise (· < ·) :=
  (h.descendants_sorted p).sublist (h.preorder p).sublist

theorem ancestors_sorted (h : tree.InDocumentOrder) (m : NodeId) :
    (tree.ancestors m).Pairwise (· > ·) := by
  induction m using Nat.strong_induction_on with
  | _ m ih =>
    cases hp : tree.parent? m with
    | none =>
      rw [ancestors_eq_nil_of_parent? hp]
      exact .nil
    | some p =>
      rw [h.ancestors_of_parent? hp]
      refine .cons (fun q hq ↦ ?_) (ih p (h.lt_of_parent? hp).1)
      exact h.lt_of_below (h.mem_ancestors_iff.1 hq)

theorem length_children_le (h : tree.InDocumentOrder) (p : NodeId) :
    (tree.children p).length ≤ tree.size :=
  Nat.le_trans (h.preorder p).sublist.length_le (length_visit_le _ _ _)

/-- Going from each sibling to the next gives the children behind a node. -/
theorem followingSiblings_eq (h : tree.InDocumentOrder) (hp : tree.parent? n = some p) :
    tree.followingSiblings n = (tree.children p).drop (tree.indexOf n + 1) := by
  have hlength := h.length_children_le p
  refine chain_eq_drop (fun {i m} hm ↦ ?_) (h.getElem?_children hp) (by omega)
  obtain ⟨hparent, rfl⟩ := h.parent?_of_getElem? hm
  rw [nextSibling?, hparent, Option.bind_eq_bind, Option.bind_some]

/-- Going back from each sibling to the one before gives the children before a node, from the last
to the first. -/
theorem precedingSiblings_eq (h : tree.InDocumentOrder) (hp : tree.parent? n = some p) :
    tree.precedingSiblings n = ((tree.children p).take (tree.indexOf n)).reverse := by
  have hlength := h.length_children_le p
  have hself := h.getElem?_children hp
  obtain ⟨hindex, -⟩ := List.getElem?_eq_some_iff.1 hself
  have hplace : (tree.children p).reverse[(tree.children p).length - 1 - tree.indexOf n]? =
      some n := by
    rw [List.getElem?_reverse (by omega), ← hself]
    congr 1
    omega
  -- Going back through the children is going on through them in reverse.
  have hchain : tree.precedingSiblings n = (tree.children p).reverse.drop
      ((tree.children p).length - 1 - tree.indexOf n + 1) := by
    refine chain_eq_drop (fun {i m} hm ↦ ?_) hplace (by rw [List.length_reverse]; omega)
    obtain ⟨hi, -⟩ := List.getElem?_eq_some_iff.1 hm
    rw [List.length_reverse] at hi
    rw [List.getElem?_reverse hi] at hm
    obtain ⟨hparent, hm⟩ := h.parent?_of_getElem? hm
    rw [previousSibling?, hparent, Option.bind_eq_bind, Option.bind_some, ← hm]
    split
    · rw [List.getElem?_eq_none (by rw [List.length_reverse]; omega)]
    · rw [List.getElem?_reverse (by omega)]
      rfl
  rw [hchain, List.reverse_take]
  congr 1
  omega

/-- A node stands between its siblings. -/
theorem children_eq (h : tree.InDocumentOrder) (hp : tree.parent? n = some p) :
    tree.children p = (tree.precedingSiblings n).reverse ++ n :: tree.followingSiblings n ∧
      (∀ m ∈ tree.precedingSiblings n, m < n) ∧ ∀ m ∈ tree.followingSiblings n, n < m := by
  have hsplit : tree.children p =
      (tree.precedingSiblings n).reverse ++ n :: tree.followingSiblings n := by
    obtain ⟨hi, hget⟩ := List.getElem?_eq_some_iff.1 (h.getElem?_children hp)
    rw [h.precedingSiblings_eq hp, h.followingSiblings_eq hp, List.reverse_reverse]
    calc tree.children p
      _ = (tree.children p).take (tree.indexOf n) ++ (tree.children p).drop (tree.indexOf n) :=
        (List.take_append_drop _ _).symm
      _ = _ := by rw [List.drop_eq_getElem_cons hi, hget]
  have hsorted := h.children_sorted p
  rw [hsplit, List.pairwise_append, List.pairwise_cons] at hsorted
  obtain ⟨-, ⟨hfollowing, -⟩, hpreceding⟩ := hsorted
  exact ⟨hsplit, fun m hm ↦ hpreceding m (List.mem_reverse.2 hm) n List.mem_cons_self, hfollowing⟩

theorem mem_siblings_iff (h : tree.InDocumentOrder) (hp : tree.parent? n = some p) :
    (m ∈ tree.followingSiblings n ↔ n < m ∧ tree.parent? m = some p) ∧
      (m ∈ tree.precedingSiblings n ↔ m < n ∧ tree.parent? m = some p) := by
  obtain ⟨hsplit, hpreceding, hfollowing⟩ := h.children_eq hp
  have hpreceding := hpreceding m
  have hfollowing := hfollowing m
  rw [← h.mem_children_iff, hsplit, List.mem_append, List.mem_reverse, List.mem_cons]
  grind

theorem mem_followingSiblings_iff (h : tree.InDocumentOrder) :
    m ∈ tree.followingSiblings n ↔
      n < m ∧ ∃ p, tree.parent? n = some p ∧ tree.parent? m = some p := by
  cases hp : tree.parent? n with
  | none => simp [followingSiblings_eq_nil hp]
  | some p => simp [(h.mem_siblings_iff hp).1]

theorem mem_precedingSiblings_iff (h : tree.InDocumentOrder) :
    m ∈ tree.precedingSiblings n ↔
      m < n ∧ ∃ p, tree.parent? n = some p ∧ tree.parent? m = some p := by
  cases hp : tree.parent? n with
  | none => simp [precedingSiblings_eq_nil hp]
  | some p => simp [(h.mem_siblings_iff hp).2]

theorem followingSiblings_sorted (h : tree.InDocumentOrder) (n : NodeId) :
    (tree.followingSiblings n).Pairwise (· < ·) := by
  cases hp : tree.parent? n with
  | none => simp [followingSiblings_eq_nil hp]
  | some p =>
    rw [h.followingSiblings_eq hp]
    exact (h.children_sorted p).sublist (List.drop_sublist _ _)

theorem precedingSiblings_sorted (h : tree.InDocumentOrder) (n : NodeId) :
    (tree.precedingSiblings n).Pairwise (· > ·) := by
  cases hp : tree.parent? n with
  | none => simp [precedingSiblings_eq_nil hp]
  | some p =>
    rw [h.precedingSiblings_eq hp]
    exact List.pairwise_reverse.2 ((h.children_sorted p).sublist (List.take_sublist _ _))

end InDocumentOrder

end Tree

namespace Query

open QueryNode

variable {tree : Tree} {m n : NodeId} {axis : Axis} {nodes : List QueryNode} {x : QueryNode}

/-! ## What an axis finds -/

/-- An axis is to lead from the first of two nodes of the tree to the second. -/
def Axis.Leads (tree : Tree) (axis : Axis) (n m : NodeId) : Prop :=
  match axis with
  | child => tree.parent? m = some n
  | parent => tree.parent? n = some m
  | descendant => tree.Below m n
  | ancestor => tree.Below n m
  | descendantOrSelf => m = n ∨ tree.Below m n
  | ancestorOrSelf => m = n ∨ tree.Below n m
  | self => m = n
  | followingSibling => n < m ∧ ∃ p, tree.parent? n = some p ∧ tree.parent? m = some p
  | precedingSibling => m < n ∧ ∃ p, tree.parent? n = some p ∧ tree.parent? m = some p
  | attr => False

theorem node_mem_along_iff (h : tree.InDocumentOrder) :
    .node m ∈ along tree axis (.node n) ↔ axis.Leads tree n m := by
  cases axis with
  | child => simp [along, alongFromNode, Axis.Leads, h.mem_children_iff]
  | parent => simp [along, alongFromNode, Axis.Leads]
  | descendant => simp [along, alongFromNode, Axis.Leads, h.mem_descendants_iff]
  | ancestor => simp [along, alongFromNode, Axis.Leads, h.mem_ancestors_iff]
  | descendantOrSelf => simp [along, alongFromNode, Axis.Leads, h.mem_descendants_iff]
  | ancestorOrSelf => simp [along, alongFromNode, Axis.Leads, h.mem_ancestors_iff]
  | self => simp [along, alongFromNode, Axis.Leads]
  | followingSibling => simp [along, alongFromNode, Axis.Leads, h.mem_followingSiblings_iff]
  | precedingSibling => simp [along, alongFromNode, Axis.Leads, h.mem_precedingSiblings_iff]
  | attr => simp [along, alongFromNode, Axis.Leads]

/-- Attributes are found by the axis of attributes only. -/
theorem exists_node_of_mem_along (haxis : axis ≠ .attr) (hx : x ∈ along tree axis (.node n)) :
    ∃ m, x = .node m := by
  cases axis with
  | attr => exact absurd rfl haxis
  | self => exact ⟨n, List.mem_singleton.1 hx⟩
  | _ =>
    obtain ⟨m, -, rfl⟩ := List.mem_map.1 hx
    exact ⟨m, rfl⟩

/-! ## In which order -/

/-- Whether an axis goes back through the document. -/
def Axis.isReverse : Axis → Bool
  | parent | ancestor | ancestorOrSelf | precedingSibling => true
  | _ => false

theorem pairwise_map_node {ids : List NodeId} (h : ids.Pairwise (· < ·)) :
    (ids.map .node).Pairwise (Before tree) :=
  List.pairwise_map.2 (h.imp .inl)

private theorem pairwise_map_node_of_gt {ids : List NodeId} (h : ids.Pairwise (· > ·)) :
    (ids.map QueryNode.node).Pairwise fun x y ↦ y.Before tree x :=
  List.pairwise_map.2 (h.imp .inl)

private theorem pairwise_ownOf (h : tree.InDocumentOrder) (hn : n < tree.size) :
    (ownOf tree n).Pairwise (Before tree) :=
  (List.pairwise_flatMap.1 (pairwise_flatMap_ownOf h)).1 n (List.mem_range.2 hn)

private theorem nodup_inOrder (h : tree.InDocumentOrder) : (inOrder tree).Nodup := by
  refine (pairwise_flatMap_ownOf h).imp ?_
  rintro x _ hbefore rfl
  exact Before.irrefl hbefore

/-- What is in order is a part of the document in its order. -/
theorem sublist_inOrder (h : tree.InDocumentOrder) (hnodes : nodes ⊆ inOrder tree)
    (hsorted : nodes.Pairwise (Before tree)) : nodes.Sublist (inOrder tree) := by
  rw [← documentOrder_eq_of_pairwise hsorted]
  exact sublist_documentOrder h hnodes

private theorem pairwise_along_of_forward (h : tree.InDocumentOrder)
    (haxis : axis.isReverse = false)
    (hx : x ∈ inOrder tree) : (along tree axis x).Pairwise (Before tree) := by
  cases x with
  | node id =>
    cases axis with
    | child => exact pairwise_map_node (h.children_sorted id)
    | descendant => exact pairwise_map_node (h.descendants_sorted id)
    | descendantOrSelf =>
      refine pairwise_map_node (.cons (fun m hm ↦ ?_) (h.descendants_sorted id))
      exact h.lt_of_below (h.mem_descendants_iff.1 hm)
    | self => exact List.pairwise_singleton _ _
    | followingSibling => exact pairwise_map_node (h.followingSiblings_sorted id)
    | attr =>
      refine (pairwise_ownOf h (node_mem_flatMap_ownOf.1 hx)).sublist ?_
      exact (List.filter_sublist.map _).cons _
    | parent | ancestor | ancestorOrSelf | precedingSibling => cases haxis
  | attr a =>
    cases axis with
    | self => exact List.pairwise_singleton _ _
    | parent | ancestor | ancestorOrSelf | precedingSibling => cases haxis
    | _ => exact .nil

private theorem pairwise_along_of_reverse (h : tree.InDocumentOrder) (haxis : axis.isReverse = true)
    (x : QueryNode) : (along tree axis x).Pairwise fun y z ↦ z.Before tree y := by
  have hancestors (id : NodeId) : (id :: tree.ancestors id).Pairwise (· > ·) := by
    refine .cons (fun p hp ↦ ?_) (h.ancestors_sorted id)
    exact h.lt_of_below (h.mem_ancestors_iff.1 hp)
  cases x with
  | node id =>
    cases axis with
    | parent =>
      refine pairwise_map_node_of_gt ?_
      cases tree.parent? id with
      | none => exact .nil
      | some p => exact List.pairwise_singleton _ _
    | ancestor => exact pairwise_map_node_of_gt (h.ancestors_sorted id)
    | ancestorOrSelf => exact pairwise_map_node_of_gt (hancestors id)
    | precedingSibling => exact pairwise_map_node_of_gt (h.precedingSiblings_sorted id)
    | child | descendant | descendantOrSelf | self | attr | followingSibling => cases haxis
  | attr a =>
    have howner := hancestors (ownerOf tree a)
    cases axis with
    | parent => exact List.pairwise_singleton _ _
    | ancestor => exact pairwise_map_node_of_gt howner
    | ancestorOrSelf =>
      refine .cons (fun y hy ↦ ?_) (pairwise_map_node_of_gt howner)
      obtain ⟨p, hp, rfl⟩ := List.mem_map.1 hy
      -- The owner has the number of the attribute's key, and what is above it has a lower one.
      rcases List.mem_cons.1 hp with rfl | hp
      · exact .inr ⟨rfl, Nat.succ_pos a⟩
      · exact .inl (h.lt_of_below (h.mem_ancestors_iff.1 hp))
    | precedingSibling => exact .nil
    | child | descendant | descendantOrSelf | self | attr | followingSibling => cases haxis

private theorem sublist_along_of_forward (hlinked : tree.Linked) (h : tree.InDocumentOrder)
    (haxis : axis.isReverse = false) (hx : x ∈ inOrder tree) :
    (along tree axis x).Sublist (inOrder tree) :=
  sublist_inOrder h (along_subset hlinked h axis hx) (pairwise_along_of_forward h haxis hx)

private theorem sublist_along_of_reverse (hlinked : tree.Linked) (h : tree.InDocumentOrder)
    (haxis : axis.isReverse = true) (hx : x ∈ inOrder tree) :
    (along tree axis x).reverse.Sublist (inOrder tree) := by
  refine sublist_inOrder h ?_ (List.pairwise_reverse.2 (pairwise_along_of_reverse h haxis x))
  exact fun y hy ↦ along_subset hlinked h axis hx (List.mem_reverse.1 hy)

/-- One node of the tree comes before another in the document if its number is lower. -/
theorem pair_sublist_iff (h : tree.InDocumentOrder) :
    [.node n, .node m].Sublist (inOrder tree) ↔ n < m ∧ m < tree.size := by
  constructor
  · intro hpair
    have hsorted := (pairwise_flatMap_ownOf h).sublist hpair
    have hbefore : Before tree (.node n) (.node m) := List.rel_of_pairwise_cons hsorted (by simp)
    refine ⟨?_, node_mem_flatMap_ownOf.1 (hpair.subset (by simp))⟩
    exact hbefore.resolve_right fun hkey ↦ absurd hkey.2 (Nat.lt_irrefl 0)
  · rintro ⟨hlt, hm⟩
    have hpair : [n, m].map QueryNode.node = [.node n, .node m] := rfl
    rw [← hpair]
    refine sublist_inOrder h ?_ ?_
    · refine map_node_subset (List.forall_mem_cons.2 ⟨Nat.lt_trans hlt hm, ?_⟩)
      exact List.forall_mem_singleton.2 hm
    · exact pairwise_map_node (List.pairwise_pair.2 hlt)

end Query

namespace Document

open Query

/-- Let `order` be what going through a parsed document gives. Among its nodes, what an axis leads
to is said by the parents alone, and the axes of children and parents, of descendants and ancestors,
of siblings after and before lead back to where the other came from. Every axis lists what it finds
in the direction in which it goes through the document, which gives everything once. From an
attribute the ancestors are its element and the ancestors of this. -/
theorem converse_of_parse {source : Source} {mode : NamespaceMode} {doc : Document}
    (h : parse source mode = .ok doc) :
    ∃ order, doc.tree.Traverses (QueryNode.ownOf doc.tree) [Tree.root] order ∧ order.Nodup ∧
      (∀ id, .node id ∈ order ↔ id < doc.tree.size) ∧
      (∀ m n, .node m ∈ along doc.tree .child (.node n) ↔
        .node n ∈ along doc.tree .parent (.node m)) ∧
      (∀ m n, .node m ∈ along doc.tree .descendant (.node n) ↔
        .node n ∈ along doc.tree .ancestor (.node m)) ∧
      (∀ m n, .node m ∈ along doc.tree .followingSibling (.node n) ↔
        .node n ∈ along doc.tree .precedingSibling (.node m)) ∧
      (∀ m n, .node m ∈ along doc.tree .followingSibling (.node n) ↔
        (∃ p, doc.tree.parent? n = some p ∧ doc.tree.parent? m = some p) ∧
          [.node n, .node m].Sublist order) ∧
      (∀ axis n x, axis ≠ .attr → (x ∈ along doc.tree axis (.node n) ↔
        ∃ m, x = .node m ∧ axis.Leads doc.tree n m)) ∧
      (∀ axis, ∀ x ∈ order, if axis.isReverse then (along doc.tree axis x).reverse.Sublist order
        else (along doc.tree axis x).Sublist order) ∧
      ∀ a attr, doc.tree.attr? a = some attr → along doc.tree .ancestor (.attr a) =
        .node attr.owner :: along doc.tree .ancestor (.node attr.owner) := by
  obtain ⟨spans, hbuild, -, -⟩ := exists_spans_of_parse h
  have htree := Tree.inDocumentOrder_of_build hbuild
  obtain ⟨hlinked, -⟩ := Tree.linked_of_build hbuild
  refine ⟨inOrder doc.tree, htree.preorder_root.flatMap _, nodup_inOrder htree,
    fun _ ↦ node_mem_flatMap_ownOf, ?_, ?_, ?_, ?_, ?_, ?_, ?_⟩
  · intro m n
    rw [node_mem_along_iff htree, node_mem_along_iff htree]
    rfl
  · intro m n
    rw [node_mem_along_iff htree, node_mem_along_iff htree]
    rfl
  · intro m n
    rw [node_mem_along_iff htree, node_mem_along_iff htree]
    simp only [Axis.Leads, and_comm]
  · intro m n
    rw [node_mem_along_iff htree, pair_sublist_iff htree]
    constructor
    · rintro ⟨hlt, p, hn, hm⟩
      exact ⟨⟨p, hn, hm⟩, hlt, (htree.lt_of_parent? hm).2⟩
    · rintro ⟨hparent, hlt, -⟩
      exact ⟨hlt, hparent⟩
  · intro axis n x haxis
    constructor
    · intro hx
      obtain ⟨m, rfl⟩ := exists_node_of_mem_along haxis hx
      exact ⟨m, rfl, (node_mem_along_iff htree).1 hx⟩
    · rintro ⟨m, rfl, hm⟩
      exact (node_mem_along_iff htree).2 hm
  · intro axis x hx
    split
    · rename_i haxis
      exact sublist_along_of_reverse hlinked htree haxis hx
    · rename_i haxis
      exact sublist_along_of_forward hlinked htree (Bool.not_eq_true _ ▸ haxis) hx
  · intro a attr ha
    simp only [along, alongFromAttr, alongFromNode, QueryNode.ownerOf, ha, List.map_cons]

/-- The element around `f` is found on the way up because the stack found `f` in it, and the
siblings before the text are given from the nearest on. -/
theorem converse_of_parse_nested :
    ∃ doc, parse (.ofText "" "<a b='c'><d/><e><f/></e>g</a>") .aware = .ok doc ∧
      along doc.tree .descendant (.node 1) = [.node 2, .node 3, .node 4, .node 5] ∧
      .node 1 ∈ along doc.tree .ancestor (.node 4) ∧
      along doc.tree .precedingSibling (.node 5) = [.node 3, .node 2] ∧
      .node 5 ∈ along doc.tree .followingSibling (.node 2) ∧
      ∃ order, doc.tree.Traverses (QueryNode.ownOf doc.tree) [Tree.root] order ∧
        [QueryNode.node 2, .node 3].Sublist order := by
  have hrun : (parse (.ofText "" "<a b='c'><d/><e><f/></e>g</a>") .aware).toOption.any (fun doc ↦
      along doc.tree .descendant (.node 1) == [.node 2, .node 3, .node 4, .node 5] &&
      along doc.tree .precedingSibling (.node 5) == [.node 3, .node 2] &&
      doc.tree.size == 6) = true := by
    decide +kernel
  obtain ⟨doc, hparse, hdoc⟩ := exists_of_any hrun
  simp only [Bool.and_eq_true, beq_iff_eq] at hdoc
  obtain ⟨⟨hdescendants, hpreceding⟩, hsize⟩ := hdoc
  obtain ⟨order, horder, -, hnodes, -, hbelow, hsiblings, -, -, hsorted, -⟩ :=
    converse_of_parse hparse
  refine ⟨doc, hparse, hdescendants, (hbelow 4 1).1 ?_, hpreceding, (hsiblings 5 2).2 ?_,
    order, horder, ?_⟩
  · rw [hdescendants]
    decide
  · rw [hpreceding]
    decide
  · have hreverse : (along doc.tree .precedingSibling (.node 5)).reverse.Sublist order :=
      hsorted .precedingSibling (.node 5) ((hnodes 5).2 (by omega))
    rwa [hpreceding] at hreverse

end Document

end XmlInspect
