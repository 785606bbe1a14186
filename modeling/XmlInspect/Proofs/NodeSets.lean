import XmlInspect.Proofs.DocumentOrder
import XmlInspect.Query.Basic

/-!
# Sets of nodes

A set of nodes is a list, and a query may come upon the same nodes in many ways: axes that lead back
list the nearest node first, and steps from several nodes meet. What is passed on is a part of the
document all the same, in its order and without repetitions. So a set has one form, two sets with
the same members are equal, and a union is one as for sets.

This does not depend on what predicates say. They leave nodes out and change nothing else, and a
step sorts what it has found from all nodes together.
-/

namespace XmlInspect

/-! ## Ways stay in the tree -/

namespace Tree

variable {tree : Tree} {p id : NodeId}

theorem Linked.lt_size_of_parent? (h : tree.Linked) (hroot : tree.parent? root = none)
    (hp : tree.parent? id = some p) : p < tree.size := by
  have hid : id < tree.size := by
    by_contra hid
    rw [parent?, Array.getElem?_eq_none (Nat.le_of_not_lt hid)] at hp
    cases hp
  have hne : id ≠ root := by
    rintro rfl
    rw [hroot] at hp
    cases hp
  obtain ⟨q, i, hq⟩ := h.exists_parent hid hne
  obtain ⟨hlt, -, hparent, -⟩ := h.child hq
  rw [hp] at hparent
  cases hparent
  exact Nat.lt_trans hlt hid

theorem Linked.lt_size_of_visit (h : tree.Linked) {fuel : Nat} {stack : List NodeId}
    (hstack : ∀ id ∈ stack, id < tree.size) : ∀ id ∈ tree.visit fuel stack, id < tree.size := by
  induction fuel generalizing stack with
  | zero => simp [visit]
  | succ fuel ih =>
    cases stack with
    | nil => simp [visit]
    | cons top stack =>
      rw [visit]
      refine List.forall_mem_cons.2 ⟨hstack top List.mem_cons_self, ih ?_⟩
      refine List.forall_mem_append.2 ⟨fun _ ↦ h.lt_size_of_mem, fun id hid ↦ ?_⟩
      exact hstack id (List.mem_cons_of_mem _ hid)

theorem forall_mem_chain {next : NodeId → Option NodeId} {P : NodeId → Prop}
    (h : ∀ {id found}, next id = some found → P found) {fuel : Nat} (id : NodeId) :
    ∀ found ∈ chain next fuel id, P found := by
  induction fuel generalizing id with
  | zero => simp [chain]
  | succ fuel ih =>
    rw [chain]
    split
    · rename_i hnext
      exact List.forall_mem_cons.2 ⟨h hnext, ih _⟩
    · simp

theorem Linked.lt_size_of_ancestors (h : tree.Linked) (hroot : tree.parent? root = none)
    (id : NodeId) : ∀ p ∈ tree.ancestors id, p < tree.size :=
  forall_mem_chain (h.lt_size_of_parent? hroot) id

theorem Linked.lt_size_of_nextSibling? (h : tree.Linked) {next : NodeId}
    (hnext : tree.nextSibling? id = some next) : next < tree.size := by
  obtain ⟨p, -, hget⟩ := Option.bind_eq_some_iff.1 hnext
  exact h.lt_size_of_mem (List.mem_of_getElem? hget)

theorem Linked.lt_size_of_previousSibling? (h : tree.Linked) {previous : NodeId}
    (hprevious : tree.previousSibling? id = some previous) : previous < tree.size := by
  obtain ⟨p, -, hget⟩ := Option.bind_eq_some_iff.1 hprevious
  split at hget
  · cases hget
  · exact h.lt_size_of_mem (List.mem_of_getElem? hget)

end Tree

namespace Query

open QueryNode

variable {tree : Tree} {context : Context} {nodes found : List QueryNode} {x y : QueryNode}

/-- All nodes and attributes of a tree, in document order. -/
abbrev inOrder (tree : Tree) : List QueryNode := (List.range tree.size).flatMap (ownOf tree)

theorem map_node_subset {ids : List NodeId} (h : ∀ id ∈ ids, id < tree.size) :
    ids.map .node ⊆ inOrder tree := by
  intro y hy
  obtain ⟨id, hid, rfl⟩ := List.mem_map.1 hy
  exact node_mem_flatMap_ownOf.2 (h id hid)

private theorem alongFromNode_subset (hlinked : tree.Linked) (h : tree.InDocumentOrder)
    (axis : Axis)
    {id : NodeId} (hid : id < tree.size) : alongFromNode tree axis id ⊆ inOrder tree := by
  have hancestors : ∀ p ∈ tree.ancestors id, p < tree.size :=
    hlinked.lt_size_of_ancestors h.parent?_root id
  have hdescendants : ∀ c ∈ tree.descendants id, c < tree.size :=
    hlinked.lt_size_of_visit fun _ ↦ hlinked.lt_size_of_mem
  cases axis with
  | child => exact map_node_subset fun _ ↦ hlinked.lt_size_of_mem
  | descendant => exact map_node_subset hdescendants
  | descendantOrSelf => exact map_node_subset (List.forall_mem_cons.2 ⟨hid, hdescendants⟩)
  | self => exact map_node_subset (List.forall_mem_singleton.2 hid)
  | parent =>
    refine map_node_subset fun p hp ↦ ?_
    exact hlinked.lt_size_of_parent? h.parent?_root (Option.mem_toList.1 hp)
  | ancestor => exact map_node_subset hancestors
  | ancestorOrSelf => exact map_node_subset (List.forall_mem_cons.2 ⟨hid, hancestors⟩)
  | attr =>
    intro y hy
    obtain ⟨a, ha, rfl⟩ := List.mem_map.1 hy
    exact (attr_mem_flatMap_ownOf h).2 (h.exists_attr (List.mem_of_mem_filter ha))
  | followingSibling =>
    exact map_node_subset (Tree.forall_mem_chain hlinked.lt_size_of_nextSibling? id)
  | precedingSibling =>
    exact map_node_subset (Tree.forall_mem_chain hlinked.lt_size_of_previousSibling? id)

private theorem alongFromAttr_subset (hlinked : tree.Linked) (h : tree.InDocumentOrder)
    (axis : Axis) {a : AttrId} {attr : Attribute} (ha : tree.attr? a = some attr) :
    alongFromAttr tree axis a ⊆ inOrder tree := by
  have howner : ownerOf tree a < tree.size := by
    obtain ⟨name, attrs, hkind⟩ :=
      Tree.exists_kind_of_mem_attributesOf ((h.attributesOf_iff ha attr.owner).2 rfl)
    rw [ownerOf, ha]
    exact Tree.lt_size_of_kind? hkind
  have hancestors : ∀ p ∈ ownerOf tree a :: tree.ancestors (ownerOf tree a), p < tree.size :=
    List.forall_mem_cons.2 ⟨howner, hlinked.lt_size_of_ancestors h.parent?_root _⟩
  have hself : .attr a ∈ inOrder tree := (attr_mem_flatMap_ownOf h).2 ⟨attr, ha⟩
  cases axis with
  | self => exact List.cons_subset.2 ⟨hself, List.nil_subset _⟩
  | parent => exact map_node_subset (List.forall_mem_singleton.2 howner)
  | ancestor => exact map_node_subset hancestors
  | ancestorOrSelf => exact List.cons_subset.2 ⟨hself, map_node_subset hancestors⟩
  | _ => exact List.nil_subset _

/-- No axis leads out of the tree. -/
theorem along_subset (hlinked : tree.Linked) (h : tree.InDocumentOrder) (axis : Axis)
    (hx : x ∈ inOrder tree) : along tree axis x ⊆ inOrder tree := by
  cases x with
  | node id => exact alongFromNode_subset hlinked h axis (node_mem_flatMap_ownOf.1 hx)
  | attr a =>
    obtain ⟨attr, ha⟩ := (attr_mem_flatMap_ownOf h).1 hx
    exact alongFromAttr_subset hlinked h axis ha

private theorem candidates_subset (hlinked : tree.Linked) (h : tree.InDocumentOrder) (axis : Axis)
    (test : NodeTest) (hx : x ∈ inOrder tree) : candidates tree axis test x ⊆ inOrder tree :=
  List.Subset.trans List.filter_sublist.subset (along_subset hlinked h axis hx)

/-! ## Predicates leave nodes out -/

private theorem sublist_of_keepFrom {value : Context → Except Fault Value} {size index : Nat}
    (h : keepFrom value size index nodes = .ok found) : found.Sublist nodes := by
  induction nodes generalizing index found with
  | nil =>
    cases h
    exact .refl _
  | cons node nodes ih =>
    rw [keepFrom] at h
    obtain ⟨value, -, h⟩ := bind_eq_ok_iff.1 h
    obtain ⟨keep, kept, hkept, rfl⟩ : ∃ keep kept, keepFrom _ size (index + 1) nodes = .ok kept ∧
        found = if keep = true then node :: kept else kept := by
      dsimp only at h
      split at h <;>
      · obtain ⟨keep, -, h⟩ := bind_eq_ok_iff.1 h
        obtain ⟨kept, hkept, h⟩ := bind_eq_ok_iff.1 h
        exact ⟨keep, kept, hkept, (Except.ok.inj h).symm⟩
    split
    · exact (ih hkept).cons_cons node
    · exact (ih hkept).cons node

theorem sublist_of_keepAll {predicates : List Expr}
    (h : keepAll tree nodes predicates = .ok found) : found.Sublist nodes := by
  induction predicates generalizing nodes with
  | nil =>
    rw [keepAll] at h
    cases h
    exact .refl _
  | cons predicate predicates ih =>
    rw [keepAll] at h
    obtain ⟨kept, hkept, h⟩ := bind_eq_ok_iff.1 h
    exact (ih h).trans (sublist_of_keepFrom hkept)

theorem mem_of_collect {find : QueryNode → Except Fault (List QueryNode)}
    (h : collect find nodes = .ok found) (hy : y ∈ found) :
    ∃ x ∈ nodes, ∃ first, find x = .ok first ∧ y ∈ first := by
  induction nodes generalizing found with
  | nil =>
    cases h
    cases hy
  | cons node nodes ih =>
    rw [collect] at h
    obtain ⟨first, hfirst, h⟩ := bind_eq_ok_iff.1 h
    obtain ⟨others, hothers, h⟩ := bind_eq_ok_iff.1 h
    cases h
    rcases List.mem_append.1 hy with hy | hy
    · exact ⟨node, List.mem_cons_self, first, hfirst, hy⟩
    · obtain ⟨x, hx, hfound⟩ := ih hothers hy
      exact ⟨x, List.mem_cons_of_mem _ hx, hfound⟩

/-! ## Steps put nodes in order -/

theorem sublist_documentOrder (h : tree.InDocumentOrder) (hnodes : nodes ⊆ inOrder tree) :
    (documentOrder tree nodes).Sublist (inOrder tree) := by
  rw [documentOrder_eq h hnodes]
  exact List.filter_sublist

private theorem sublist_of_takeStep (hlinked : tree.Linked) (h : tree.InDocumentOrder) {step : Step}
    (hnodes : nodes ⊆ inOrder tree) (hstep : takeStep tree nodes step = .ok found) :
    found.Sublist (inOrder tree) := by
  obtain ⟨axis, test, predicates⟩ := step
  rw [takeStep] at hstep
  obtain ⟨collected, hcollect, hstep⟩ := bind_eq_ok_iff.1 hstep
  cases hstep
  refine sublist_documentOrder h fun y hy ↦ ?_
  obtain ⟨x, hx, first, hfirst, hy⟩ := mem_of_collect hcollect hy
  exact candidates_subset hlinked h axis test (hnodes hx) ((sublist_of_keepAll hfirst).subset hy)

@[simp] theorem takeSteps_nil (tree : Tree) (nodes : List QueryNode) :
    takeSteps tree nodes [] = pure nodes := by
  rw [takeSteps]
  rfl

theorem takeSteps_append_eq (tree : Tree) (nodes : List QueryNode) (front rest : List Step) :
    takeSteps tree nodes (front ++ rest) =
      takeSteps tree nodes front >>= fun middle ↦ takeSteps tree middle rest := by
  induction front generalizing nodes with
  | nil => simp
  | cons step front ih => simp [takeSteps, ih]

/-- What is passed from one step to the next. -/
theorem takeSteps_append {front rest : List Step} :
    takeSteps tree nodes (front ++ rest) = .ok found ↔
      ∃ middle, takeSteps tree nodes front = .ok middle ∧
        takeSteps tree middle rest = .ok found := by
  rw [takeSteps_append_eq, bind_eq_ok_iff]

theorem sublist_of_takeSteps (hlinked : tree.Linked) (h : tree.InDocumentOrder) {steps : List Step}
    (hnodes : nodes.Sublist (inOrder tree)) (hsteps : takeSteps tree nodes steps = .ok found) :
    found.Sublist (inOrder tree) := by
  induction steps generalizing nodes with
  | nil =>
    rw [takeSteps] at hsteps
    cases hsteps
    exact hnodes
  | cons step steps ih =>
    rw [takeSteps] at hsteps
    obtain ⟨middle, hmiddle, hsteps⟩ := bind_eq_ok_iff.1 hsteps
    exact ih (sublist_of_takeStep hlinked h hnodes.subset hmiddle) hsteps

/-! ## Values -/

private theorem combine_union_eq_ok {left right v : Value} :
    combine tree .union left right = .ok v ↔
      ∃ x y, left = .nodes x ∧ right = .nodes y ∧ v = .nodes (documentOrder tree (x ++ y)) := by
  cases left <;> cases right <;> simp [combine, eq_comm]

/-- An operator that needs both sides. -/
theorem eval_binary {op : Operator} {a b : Expr} (hor : op ≠ .or) (hand : op ≠ .and) :
    eval tree context (.binary op a b) =
      eval tree context a >>= fun left ↦ eval tree context b >>= combine tree op left := by
  cases op with
  | or => exact absurd rfl hor
  | and => exact absurd rfl hand
  | _ => simp [eval]

theorem eval_union_eq_ok {a b : Expr} {v : Value} :
    eval tree context (.binary .union a b) = .ok v ↔
      ∃ x y, eval tree context a = .ok (.nodes x) ∧ eval tree context b = .ok (.nodes y) ∧
        v = .nodes (documentOrder tree (x ++ y)) := by
  rw [eval_binary (by decide) (by decide)]
  simp only [bind_eq_ok_iff, combine_union_eq_ok]
  constructor
  · rintro ⟨left, hleft, right, hright, x, y, rfl, rfl, hv⟩
    exact ⟨x, y, hleft, hright, hv⟩
  · rintro ⟨x, y, hx, hy, hv⟩
    exact ⟨_, hx, _, hy, x, y, rfl, rfl, hv⟩

/-- Of the operators only the union gives nodes. -/
theorem eval_binary_ne_nodes {op : Operator} (hop : op ≠ .union) {a b : Expr} :
    eval tree context (.binary op a b) ≠ .ok (.nodes nodes) := by
  intro h
  by_cases hor : op = .or
  · subst hor
    rw [eval] at h
    obtain ⟨left, -, h⟩ := bind_eq_ok_iff.1 h
    split at h
    · cases h
    · obtain ⟨right, -, h⟩ := bind_eq_ok_iff.1 h
      cases h
  by_cases hand : op = .and
  · subst hand
    rw [eval] at h
    obtain ⟨left, -, h⟩ := bind_eq_ok_iff.1 h
    split at h
    · obtain ⟨right, -, h⟩ := bind_eq_ok_iff.1 h
      cases h
    · cases h
  rw [eval_binary hor hand] at h
  obtain ⟨left, -, h⟩ := bind_eq_ok_iff.1 h
  obtain ⟨right, -, h⟩ := bind_eq_ok_iff.1 h
  cases op with
  | union => exact hop rfl
  | _ => cases h

private theorem namePart_ne_nodes {part : QName → String} {arguments : List Value} :
    Function.namePart tree part context arguments ≠ .ok (.nodes nodes) := by
  intro h
  unfold Function.namePart at h
  dsimp only at h
  split at h
  · obtain ⟨_, -, h⟩ := bind_eq_ok_iff.1 h
    obtain ⟨_, -, h⟩ := bind_eq_ok_iff.1 h
    cases h
  · cases h

private theorem compareTexts_ne_nodes {holds : List Char → List Char → Bool}
    {arguments : List Value} : Function.compareTexts tree holds arguments ≠ .nodes nodes := by
  unfold Function.compareTexts
  split <;> simp

/-- No function gives nodes. -/
theorem apply_ne_nodes {function : Function} {arguments : List Value} :
    function.apply tree context arguments ≠ .ok (.nodes nodes) := by
  intro h
  unfold Function.apply at h
  split at h
  case h_4 | h_5 | h_6 => exact namePart_ne_nodes h
  case h_9 | h_10 | h_11 => exact compareTexts_ne_nodes (Except.ok.inj h)
  case h_3 | h_21 =>
    obtain ⟨_, -, h⟩ := bind_eq_ok_iff.1 h
    cases h
  all_goals cases h

theorem sublist_of_eval (hlinked : tree.Linked) (h : tree.InDocumentOrder)
    (hcontext : context.node ∈ inOrder tree) :
    ∀ {expr : Expr} {nodes : List QueryNode}, eval tree context expr = .ok (.nodes nodes) →
      nodes.Sublist (inOrder tree)
  | .filter primary predicates steps, nodes, heval => by
    -- Predicates only leave nodes out, and steps put what they find into order.
    rw [eval] at heval
    obtain ⟨value, hvalue, heval⟩ := bind_eq_ok_iff.1 heval
    split at heval
    · obtain ⟨kept, hkept, heval⟩ := bind_eq_ok_iff.1 heval
      obtain ⟨found, hfound, heval⟩ := bind_eq_ok_iff.1 heval
      cases heval
      have hprimary := sublist_of_eval hlinked h hcontext hvalue
      exact sublist_of_takeSteps hlinked h ((sublist_of_keepAll hkept).trans hprimary) hfound
    · cases heval
  | .path absolute steps, nodes, heval => by
    rw [eval] at heval
    obtain ⟨found, hfound, heval⟩ := bind_eq_ok_iff.1 heval
    cases heval
    refine sublist_of_takeSteps hlinked h (List.singleton_sublist.2 ?_) hfound
    split
    · exact node_mem_flatMap_ownOf.2 hlinked.root_lt_size
    · exact hcontext
  | .binary op a b, nodes, heval => by
    by_cases hop : op = .union
    · subst hop
      obtain ⟨x, y, ha, hb, heq⟩ := eval_union_eq_ok.1 heval
      cases heq
      have hx := sublist_of_eval hlinked h hcontext ha
      have hy := sublist_of_eval hlinked h hcontext hb
      exact sublist_documentOrder h (List.append_subset.2 ⟨hx.subset, hy.subset⟩)
    · exact absurd heval (eval_binary_ne_nodes hop)
  | .call name arguments, nodes, heval => by
    rw [eval] at heval
    obtain ⟨function, -, heval⟩ := bind_eq_ok_iff.1 heval
    obtain ⟨values, -, heval⟩ := bind_eq_ok_iff.1 heval
    exact absurd heval apply_ne_nodes
  | .negate operand, nodes, heval => by
    rw [eval] at heval
    obtain ⟨value, -, heval⟩ := bind_eq_ok_iff.1 heval
    cases heval
  | .literal text, nodes, heval => by
    rw [eval] at heval
    cases heval
  | .number value, nodes, heval => by
    rw [eval] at heval
    cases heval

/-! ## Unions -/

/-- A union is what either side has, in document order. -/
theorem eval_union_iff (hlinked : tree.Linked) (h : tree.InDocumentOrder)
    (hcontext : context.node ∈ inOrder tree) {a b : Expr} {v : Value} :
    eval tree context (.binary .union a b) = .ok v ↔
      ∃ x y, eval tree context a = .ok (.nodes x) ∧ eval tree context b = .ok (.nodes y) ∧
        v = .nodes ((inOrder tree).filter fun n ↦ n ∈ x ∨ n ∈ y) := by
  rw [eval_union_eq_ok]
  refine exists_congr fun x ↦ exists_congr fun y ↦ and_congr_right fun hx ↦
    and_congr_right fun hy ↦ ?_
  have hsubset : x ++ y ⊆ inOrder tree := List.append_subset.2
    ⟨(sublist_of_eval hlinked h hcontext hx).subset, (sublist_of_eval hlinked h hcontext hy).subset⟩
  rw [documentOrder_eq h hsubset]
  simp only [List.mem_append]

/-- Sorted sets with the same members are equal. -/
theorem documentOrder_congr {nodes' : List QueryNode} (h : ∀ x, x ∈ nodes ↔ x ∈ nodes') :
    documentOrder tree nodes = documentOrder tree nodes' := by
  refine (pairwise_documentOrder tree nodes).eq_of_mem_iff (pairwise_documentOrder tree nodes') ?_
  intro x
  rw [mem_documentOrder, mem_documentOrder, h]

theorem documentOrder_eq_of_pairwise (h : nodes.Pairwise (Before tree)) :
    documentOrder tree nodes = nodes :=
  (pairwise_documentOrder tree nodes).eq_of_mem_iff h fun _ ↦ mem_documentOrder

theorem documentOrder_eq_self (h : tree.InDocumentOrder) (hnodes : nodes.Sublist (inOrder tree)) :
    documentOrder tree nodes = nodes :=
  documentOrder_eq_of_pairwise ((pairwise_flatMap_ownOf h).sublist hnodes)

theorem eval_union_comm {a b : Expr} {v : Value} :
    eval tree context (.binary .union a b) = .ok v ↔
      eval tree context (.binary .union b a) = .ok v := by
  have hcomm : ∀ x y : List QueryNode, documentOrder tree (x ++ y) = documentOrder tree (y ++ x) :=
    fun x y ↦ documentOrder_congr fun n ↦ by simp only [List.mem_append, or_comm]
  rw [eval_union_eq_ok, eval_union_eq_ok, exists_comm]
  refine exists_congr fun x ↦ exists_congr fun y ↦ ?_
  rw [and_left_comm, hcomm]

theorem eval_union_assoc {a b c : Expr} {v : Value} :
    eval tree context (.binary .union (.binary .union a b) c) = .ok v ↔
      eval tree context (.binary .union a (.binary .union b c)) = .ok v := by
  have hassoc : ∀ x y z : List QueryNode, documentOrder tree (documentOrder tree (x ++ y) ++ z) =
      documentOrder tree (x ++ documentOrder tree (y ++ z)) := by
    intro x y z
    refine documentOrder_congr fun n ↦ ?_
    simp only [List.mem_append, mem_documentOrder, or_assoc]
  simp only [eval_union_eq_ok, Value.nodes.injEq]
  constructor
  · rintro ⟨_, z, ⟨x, y, ha, hb, rfl⟩, hc, rfl⟩
    exact ⟨x, _, ha, ⟨y, z, hb, hc, rfl⟩, by rw [hassoc]⟩
  · rintro ⟨x, _, ha, ⟨y, z, hb, hc, rfl⟩, rfl⟩
    exact ⟨_, z, ⟨x, y, ha, hb, rfl⟩, hc, by rw [hassoc]⟩

theorem eval_union_self (hlinked : tree.Linked) (h : tree.InDocumentOrder)
    (hcontext : context.node ∈ inOrder tree) {a : Expr} :
    eval tree context (.binary .union a a) = .ok (.nodes nodes) ↔
      eval tree context a = .ok (.nodes nodes) := by
  have hself : ∀ x, eval tree context a = .ok (.nodes x) → documentOrder tree (x ++ x) = x := by
    intro x hx
    calc documentOrder tree (x ++ x)
      _ = documentOrder tree x := documentOrder_congr fun n ↦ by rw [List.mem_append, or_self]
      _ = x := documentOrder_eq_self h (sublist_of_eval hlinked h hcontext hx)
  rw [eval_union_eq_ok]
  constructor
  · rintro ⟨x, y, hx, hy, heq⟩
    rw [hx] at hy
    cases hy
    rw [heq, hself x hx]
    exact hx
  · intro hnodes
    exact ⟨nodes, nodes, hnodes, hnodes, by rw [hself nodes hnodes]⟩

end Query

namespace Document

open Query

/-- Let `order` be what going through a parsed document gives. At any of its nodes, an expression
whose value is a set of nodes gives a part of `order`, and so does every first part of the steps of
a path. A union is what either side has, so that unions may be swapped and regrouped and nothing
comes from a union with itself. -/
theorem canonical_of_parse {source : Source} {mode : NamespaceMode} {doc : Document}
    (h : parse source mode = .ok doc) :
    ∃ order, doc.tree.Traverses (QueryNode.ownOf doc.tree) [Tree.root] order ∧ order.Nodup ∧
      (∀ id, .node id ∈ order ↔ id < doc.tree.size) ∧
      (∀ nodes front rest found, nodes.Sublist order →
        takeSteps doc.tree nodes (front ++ rest) = .ok found →
          ∃ middle, takeSteps doc.tree nodes front = .ok middle ∧ middle.Sublist order ∧
            takeSteps doc.tree middle rest = .ok found) ∧
      ∀ context : Context, context.node ∈ order →
        (∀ e nodes, eval doc.tree context e = .ok (.nodes nodes) → nodes.Sublist order) ∧
        (∀ a b v, eval doc.tree context (.binary .union a b) = .ok v ↔
          ∃ x y, eval doc.tree context a = .ok (.nodes x) ∧
            eval doc.tree context b = .ok (.nodes y) ∧
            v = .nodes (order.filter fun n ↦ n ∈ x ∨ n ∈ y)) ∧
        (∀ a b v, eval doc.tree context (.binary .union a b) = .ok v ↔
          eval doc.tree context (.binary .union b a) = .ok v) ∧
        (∀ a b c v, eval doc.tree context (.binary .union (.binary .union a b) c) = .ok v ↔
          eval doc.tree context (.binary .union a (.binary .union b c)) = .ok v) ∧
        ∀ a nodes, eval doc.tree context (.binary .union a a) = .ok (.nodes nodes) ↔
          eval doc.tree context a = .ok (.nodes nodes) := by
  obtain ⟨spans, hbuild, -, -⟩ := exists_spans_of_parse h
  have htree := Tree.inDocumentOrder_of_build hbuild
  obtain ⟨hlinked, -⟩ := Tree.linked_of_build hbuild
  have hnodup : (inOrder doc.tree).Nodup := by
    refine (pairwise_flatMap_ownOf htree).imp ?_
    rintro x _ hbefore rfl
    exact QueryNode.Before.irrefl hbefore
  refine ⟨inOrder doc.tree, htree.preorder_root.flatMap _, hnodup, fun _ ↦ node_mem_flatMap_ownOf,
    ?_, ?_⟩
  · intro nodes front rest found hnodes hsteps
    obtain ⟨middle, hfront, hrest⟩ := takeSteps_append.1 hsteps
    exact ⟨middle, hfront, sublist_of_takeSteps hlinked htree hnodes hfront, hrest⟩
  · intro context hcontext
    exact ⟨fun _ _ ↦ sublist_of_eval hlinked htree hcontext,
      fun _ _ _ ↦ eval_union_iff hlinked htree hcontext, fun _ _ _ ↦ eval_union_comm,
      fun _ _ _ _ ↦ eval_union_assoc, fun _ _ ↦ eval_union_self hlinked htree hcontext⟩

/-- The siblings before a node are found from the nearest on and given in document order. -/
theorem canonical_of_parse_siblings :
    ∃ doc, parse (.ofText "" "<a b='c'><d/><e/>f</a>") .aware = .ok doc ∧
      eval doc.tree ⟨.node 4, 1, 1⟩ (.path false [.step .precedingSibling .anyNode []]) =
        .ok (.nodes [.node 2, .node 3]) ∧
      ∃ order, doc.tree.Traverses (QueryNode.ownOf doc.tree) [Tree.root] order ∧
        [QueryNode.node 2, .node 3].Sublist order := by
  have hrun : (parse (.ofText "" "<a b='c'><d/><e/>f</a>") .aware).toOption.any (fun doc ↦
      candidates doc.tree .precedingSibling .anyNode (.node 4) == [.node 3, .node 2] &&
      inOrder doc.tree == [.node 0, .node 1, .attr 0, .node 2, .node 3, .node 4]) = true := by
    decide +kernel
  obtain ⟨doc, hparse, hdoc⟩ := exists_of_any hrun
  obtain ⟨hfound, hall⟩ := Bool.and_eq_true_iff.1 hdoc
  obtain ⟨order, horder, -, -, -, hcontext⟩ := canonical_of_parse hparse
  obtain ⟨spans, hbuild, -, -⟩ := exists_spans_of_parse hparse
  have htree := Tree.inDocumentOrder_of_build hbuild
  have hinOrder : order = inOrder doc.tree := horder.unique (htree.preorder_root.flatMap _)
  have hnodes : order = [.node 0, .node 1, .attr 0, .node 2, .node 3, .node 4] :=
    hinOrder.trans (beq_iff_eq.1 hall)
  have hsorted : documentOrder doc.tree [.node 3, .node 2] = [.node 2, .node 3] := by
    rw [documentOrder_eq htree (by rw [← inOrder, ← hinOrder, hnodes]; decide), ← inOrder,
      ← hinOrder, hnodes]
    decide
  have heval : eval doc.tree ⟨.node 4, 1, 1⟩ (.path false [.step .precedingSibling .anyNode []]) =
      .ok (.nodes [.node 2, .node 3]) := by
    simp only [eval, takeSteps, takeStep, collect, keepAll]
    rw [← beq_iff_eq.1 hfound, ← List.append_nil (candidates _ _ _ _)] at hsorted
    exact congrArg (fun nodes ↦ Except.ok (Value.nodes nodes)) hsorted
  exact ⟨doc, hparse, heval, order, horder,
    (hcontext ⟨.node 4, 1, 1⟩ (by rw [hnodes]; decide)).1 _ _ heval⟩

end Document

end XmlInspect
