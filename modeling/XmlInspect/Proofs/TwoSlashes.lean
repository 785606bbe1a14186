import XmlInspect.Proofs.Axes
import XmlInspect.Proofs.Paths

/-!
# Two slashes

Two slashes stand for a step to a node and all that is below it, and what follows is taken from
each of these. A step to the children then comes upon a node once from every node above it that the
set has, and the repetitions are left out: in the end it is the step to the descendants.

The step that two slashes stand for keeps the node it starts from, as the way up with the node
itself does. This holds for the nodes of the tree. From an attribute the way up still starts with
the attribute, but the way down gives nothing at all, so that two slashes lose every attribute.
-/

namespace XmlInspect

namespace Query

open QueryNode

variable {tree : Tree} {context : Context} {nodes : List QueryNode} {axis : Axis} {test : NodeTest}
  {m n : NodeId} {x y : QueryNode}

/-! ## Steps without predicates -/

private theorem collect_pure (find : QueryNode → List QueryNode) (nodes : List QueryNode) :
    collect (fun x ↦ pure (find x)) nodes = pure (nodes.flatMap find) := by
  induction nodes with
  | nil => rfl
  | cons node nodes ih => simp [collect, ih]

theorem takeStep_of_test (tree : Tree) (nodes : List QueryNode) (axis : Axis) (test : NodeTest) :
    takeStep tree nodes (.step axis test []) =
      pure (documentOrder tree (nodes.flatMap (candidates tree axis test))) := by
  simp [takeStep, collect_pure]

theorem documentOrder_singleton (tree : Tree) (x : QueryNode) : documentOrder tree [x] = [x] :=
  documentOrder_eq_of_pairwise (List.pairwise_singleton _ _)

theorem passes_node (axis axis' : Axis) :
    passes tree test axis (.node m) = passes tree test axis' (.node m) := by
  cases test <;> rfl

/-! ## Downwards -/

/-- The axes to what is below a node, with the node or without. -/
def Axis.isDownward : Axis → Bool
  | child | descendant | descendantOrSelf => true
  | _ => false

theorem mem_candidates_iff (h : tree.InDocumentOrder) (axis : Axis)
    (haxis : axis.isDownward = true) :
    y ∈ candidates tree axis test x ↔
      ∃ n m, x = .node n ∧ y = .node m ∧ axis.Leads tree n m ∧ passes tree test axis (.node m) := by
  have hattr : axis ≠ .attr := by
    rintro rfl
    cases haxis
  rw [candidates, List.mem_filter]
  constructor
  · rintro ⟨hy, hpasses⟩
    cases x with
    | node n =>
      obtain ⟨m, rfl⟩ := exists_node_of_mem_along hattr hy
      exact ⟨n, m, rfl, rfl, (node_mem_along_iff h).1 hy, hpasses⟩
    | attr a =>
      cases axis with
      | child | descendant | descendantOrSelf => cases hy
      | _ => cases haxis
  · rintro ⟨n, m, rfl, rfl, hleads, hpasses⟩
    exact ⟨(node_mem_along_iff h).2 hleads, hpasses⟩

/-- The children of some nodes and of all that is below them are the descendants of these nodes. -/
theorem takeSteps_children_below (h : tree.InDocumentOrder) (nodes : List QueryNode)
    (test : NodeTest) :
    takeSteps tree nodes [.anyDescendant, .step .child test []] =
      takeSteps tree nodes [.step .descendant test []] := by
  simp only [takeSteps, Step.anyDescendant, takeStep_of_test, pure_bind]
  refine congrArg Except.ok (documentOrder_congr fun y ↦ ?_)
  simp only [List.mem_flatMap, mem_documentOrder, mem_candidates_iff h .child rfl,
    mem_candidates_iff h .descendantOrSelf rfl, mem_candidates_iff h .descendant rfl]
  -- A node is below another if its parent is the other or is below it.
  constructor
  · rintro ⟨_, ⟨x, hx, n, p, rfl, rfl, hp, -⟩, _, m, hpm, rfl, hm, hpasses⟩
    cases hpm
    refine ⟨_, hx, n, m, rfl, rfl, Tree.below_iff_exists_parent.2 ⟨p, hm, hp.imp_left Eq.symm⟩, ?_⟩
    rwa [passes_node .descendant .child]
  · rintro ⟨x, hx, n, m, rfl, rfl, hm, hpasses⟩
    obtain ⟨p, hp, hn⟩ := Tree.below_iff_exists_parent.1 hm
    refine ⟨.node p, ⟨_, hx, n, p, rfl, rfl, hn.imp_left Eq.symm, rfl⟩, p, m, rfl, rfl, hp, ?_⟩
    rwa [passes_node .child .descendant]

private theorem exists_takeSteps_children_below (h : tree.InDocumentOrder) (nodes : List QueryNode)
    (test : NodeTest) :
    ∃ found, takeSteps tree nodes [.anyDescendant, .step .child test []] = .ok found ∧
      ∀ y, y ∈ found ↔ ∃ n m, .node n ∈ nodes ∧ y = .node m ∧ tree.Below m n ∧
        passes tree test .child (.node m) := by
  rw [takeSteps_children_below h]
  simp only [takeSteps, takeStep_of_test, pure_bind]
  refine ⟨_, rfl, fun y ↦ ?_⟩
  simp only [mem_documentOrder, List.mem_flatMap, mem_candidates_iff h .descendant rfl,
    passes_node .descendant .child]
  constructor
  · rintro ⟨x, hx, n, m, rfl, rfl, hm⟩
    exact ⟨n, m, hx, rfl, hm⟩
  · rintro ⟨n, m, hn, rfl, hm⟩
    exact ⟨_, hn, n, m, rfl, rfl, hm⟩

private theorem range_eq_cons_descendants (h : tree.InDocumentOrder) :
    List.range tree.size = Tree.root :: tree.descendants Tree.root := by
  obtain ⟨below, hrange, hbelow⟩ := h.preorder_root.exists_of_singleton
  rw [hrange, hbelow.unique (h.preorder Tree.root)]
  rfl

private theorem eval_twoSlashes (h : tree.InDocumentOrder) (context : Context) (test : NodeTest) :
    eval tree context (.path true [.anyDescendant, .step .child test []]) =
      .ok (.nodes (((tree.descendants Tree.root).filter
        fun id ↦ passes tree test .child (.node id)).map .node)) := by
  have hsorted : (candidates tree .descendant test (.node Tree.root)).Pairwise (Before tree) :=
    (pairwise_map_node (h.descendants_sorted Tree.root)).filter _
  have hcandidates : candidates tree .descendant test (.node Tree.root) =
      ((tree.descendants Tree.root).filter fun id ↦ passes tree test .child (.node id)).map
        .node := by
    rw [candidates, along, alongFromNode, List.filter_map]
    simp only [Function.comp_def, passes_node .descendant .child]
  have htake : takeSteps tree [.node Tree.root] [.step .descendant test []] =
      pure (candidates tree .descendant test (.node Tree.root)) := by
    rw [takeSteps, takeStep_of_test, pure_bind, takeSteps_nil, List.flatMap_singleton,
      documentOrder_eq_of_pairwise hsorted]
  rw [eval, if_pos rfl, takeSteps_children_below h, htake, pure_bind, hcandidates]
  rfl

/-! ## Keeping the node -/

private theorem eval_steps_congr {e : Expr} {steps steps' : List Step}
    (h : ∀ nodes, takeSteps tree nodes steps = takeSteps tree nodes steps') :
    eval tree context (.filter e [] steps) = eval tree context (.filter e [] steps') := by
  simp only [eval, h]

theorem candidates_self (x : QueryNode) : candidates tree .self .anyNode x = [x] := by
  cases x <;> rfl

/-- Two slashes and a dot lead to the nodes of the tree in a set and to all that is below them. -/
theorem exists_takeSteps_below (tree : Tree) (nodes : List QueryNode) :
    ∃ found, takeSteps tree nodes [.anyDescendant, .step .self .anyNode []] = .ok found ∧
      ∀ y, y ∈ found ↔ ∃ n m, .node n ∈ nodes ∧ y = .node m ∧
        (m = n ∨ m ∈ tree.descendants n) := by
  simp only [takeSteps, Step.anyDescendant, takeStep_of_test, pure_bind]
  refine ⟨_, rfl, fun y ↦ ?_⟩
  simp only [mem_documentOrder, List.mem_flatMap, candidates_self, List.mem_singleton,
    exists_eq_right']
  constructor
  · rintro ⟨x, hx, hy⟩
    have hy := List.mem_of_mem_filter hy
    cases x with
    | node n =>
      obtain ⟨m, hm, rfl⟩ := List.mem_map.1 hy
      exact ⟨n, m, hx, rfl, List.mem_cons.1 hm⟩
    | attr a => cases hy
  · rintro ⟨n, m, hn, rfl, hm⟩
    refine ⟨_, hn, List.mem_filter.2 ⟨?_, rfl⟩⟩
    exact List.mem_map_of_mem (List.mem_cons.2 hm)

/-! ## In the text of a query -/

section Text

open Grammar

variable {ts us : List Token} {e : Expr}

theorem Grammar.Path.parse (h : Path ts e) : Query.parse ts = .ok e :=
  (Level.operand (.path h)).or_of_union.parse

theorem Grammar.Test.oneStep (h : Test us test) : OneStep us (.step .child test []) := by
  simpa using OneStep.step .children h .nil

private theorem Grammar.Test.descendants (h : Test us test) :
    OneStep (.name "descendant" :: .doubleColon :: us) (.step .descendant test []) := by
  simpa using OneStep.step (.named rfl) h .nil

private theorem exists_parse_twoSlashes (h : tree.InDocumentOrder) (hpath : Path ts e)
    (hts : ts ≠ [.slash]) (htest : Test us test) :
    ∃ e₁ e₂, parse (ts ++ .doubleSlash :: us) = .ok e₁ ∧
      parse (ts ++ .slash :: .name "descendant" :: .doubleColon :: us) = .ok e₂ ∧
      ∀ context, eval tree context e₁ = eval tree context e₂ := by
  obtain ⟨e₁, h₁, heval₁⟩ :=
    hpath.exists_onward hts (.doubleSlash (.single htest.oneStep)) (by simp)
  obtain ⟨e₂, h₂, heval₂⟩ := hpath.exists_onward hts (.slash (.single htest.descendants)) (by simp)
  refine ⟨e₁, e₂, h₁.parse, h₂.parse, fun context ↦ ?_⟩
  rw [heval₁, heval₂]
  exact eval_steps_congr fun nodes ↦ takeSteps_children_below h nodes test

/-- The way up with the node itself starts with the node, and so does the way down from a node of
the tree. From an attribute the way down with the attribute itself gives nothing. Two slashes and a
dot behind an expression lead to the nodes of the tree that it selects and to all that is below
them, so that of what was selected the nodes of the tree are kept and the attributes are not. -/
theorem orSelf_iff (tree : Tree) :
    (∀ x, along tree .ancestorOrSelf x = x :: along tree .ancestor x) ∧
    (∀ x, along tree .descendantOrSelf x = x :: along tree .descendant x ↔ ∃ id, x = .node id) ∧
    (∀ a, along tree .descendantOrSelf (.attr a) = []) ∧
    (∀ context e nodes, eval tree context e = .ok (.nodes nodes) → ∃ found,
      eval tree context (.filter e [] [.anyDescendant, .step .self .anyNode []]) =
        .ok (.nodes found) ∧
      (∀ y, y ∈ found ↔ ∃ n m, .node n ∈ nodes ∧ y = .node m ∧
        (m = n ∨ m ∈ tree.descendants n)) ∧
      ∀ x ∈ nodes, x ∈ found ↔ ∃ id, x = .node id) ∧
    ∀ ts e, Path ts e → ts ≠ [.slash] → ∃ e', parse (ts ++ [.doubleSlash, .dot]) = .ok e' ∧
      ∀ context, eval tree context e' =
        eval tree context (.filter e [] [.anyDescendant, .step .self .anyNode []]) := by
  refine ⟨?_, ?_, fun _ ↦ rfl, ?_, ?_⟩
  · intro x
    cases x <;> rfl
  · intro x
    cases x with
    | node id => exact ⟨fun _ ↦ ⟨id, rfl⟩, fun _ ↦ rfl⟩
    | attr a => simp [along, alongFromAttr]
  · intro context e nodes he
    obtain ⟨found, hfound, hmem⟩ := exists_takeSteps_below tree nodes
    refine ⟨found, eval_steps_eq_ok.2 ⟨nodes, found, he, hfound, rfl⟩, hmem, fun x hx ↦ ?_⟩
    rw [hmem]
    constructor
    · rintro ⟨-, m, -, rfl, -⟩
      exact ⟨m, rfl⟩
    · rintro ⟨id, rfl⟩
      exact ⟨id, id, hx, rfl, .inl rfl⟩
  · intro ts e hpath hts
    obtain ⟨e', he', heval⟩ := hpath.exists_onward hts (.doubleSlash (.single .self)) (by simp)
    exact ⟨e', he'.parse, fun _ ↦ heval _ _⟩

/-- The query `.//.` at an element with a text in it. -/
theorem orSelf_iff_element :
    ∃ doc e found, Document.parse (.ofText "" "<a b='c'>d</a>") .aware = .ok doc ∧
      parse [.dot, .doubleSlash, .dot] = .ok e ∧
      eval doc.tree ⟨.node 1, 1, 1⟩ e = .ok (.nodes found) ∧ .node 1 ∈ found ∧ .node 2 ∈ found := by
  have hrun : (Document.parse (.ofText "" "<a b='c'>d</a>") .aware).toOption.any (fun doc ↦
      doc.tree.descendants 1 == [2]) = true := by
    decide +kernel
  obtain ⟨doc, hparse, hdoc⟩ := exists_of_any hrun
  obtain ⟨-, -, -, hkeeps, htext⟩ := orSelf_iff doc.tree
  obtain ⟨e, he, heval⟩ := htext _ _ (.location (.relative (.single .self))) (by simp)
  have hself : eval doc.tree ⟨.node 1, 1, 1⟩ (.path false [.step .self .anyNode []]) =
      .ok (.nodes [.node 1]) := by
    rw [eval, takeSteps, takeStep_of_test, pure_bind, takeSteps_nil, if_neg (by simp),
      List.flatMap_singleton, candidates_self, documentOrder_singleton]
    rfl
  obtain ⟨found, hfound, hmem, hkept⟩ := hkeeps _ _ _ hself
  refine ⟨doc, e, found, hparse, he, (heval _).trans hfound, ?_, (hmem _).2 ⟨1, 2, ?_, rfl, ?_⟩⟩
  · exact (hkept _ List.mem_cons_self).2 ⟨1, rfl⟩
  · exact List.mem_cons_self
  · exact .inr (by rw [beq_iff_eq.1 hdoc]; exact List.mem_cons_self)

/-- The query `//@b` selects an attribute, and `//@b//.` selects nothing. -/
theorem orSelf_ne_of_attribute :
    ∃ doc e e', Document.parse (.ofText "" "<a b='c'/>") .aware = .ok doc ∧
      parse [.doubleSlash, .atSign, .name "b"] = .ok e ∧
      parse [.doubleSlash, .atSign, .name "b", .doubleSlash, .dot] = .ok e' ∧
      eval doc.tree ⟨.node Tree.root, 1, 1⟩ e = .ok (.nodes [.attr 0]) ∧
      along doc.tree .descendantOrSelf (.attr 0) ≠ .attr 0 :: along doc.tree .descendant (.attr 0) ∧
      eval doc.tree ⟨.node Tree.root, 1, 1⟩ e' = .ok (.nodes []) := by
  have hrun : (Document.parse (.ofText "" "<a b='c'/>") .aware).toOption.any (fun doc ↦
      candidates doc.tree .descendantOrSelf .anyNode (.node Tree.root) == [0, 1].map .node &&
      candidates doc.tree .attr (nameTest "b") (.node 0) == [] &&
      candidates doc.tree .attr (nameTest "b") (.node 1) == [.attr 0]) = true := by
    decide +kernel
  obtain ⟨doc, hparse, hdoc⟩ := exists_of_any hrun
  simp only [Bool.and_eq_true, beq_iff_eq] at hdoc
  obtain ⟨⟨hbelow, hdocument⟩, helement⟩ := hdoc
  have hstep : OneStep [.atSign, .name "b"] (.step .attr (nameTest "b") []) :=
    .step .attributes (.name "b") .nil
  have hselect : takeSteps doc.tree [.node Tree.root]
      [.anyDescendant, .step .attr (nameTest "b") []] = pure [.attr 0] := by
    rw [takeSteps, Step.anyDescendant, takeStep_of_test, List.flatMap_singleton, hbelow,
      documentOrder_eq_of_pairwise (pairwise_map_node (List.pairwise_pair.2 Nat.zero_lt_one)),
      pure_bind, takeSteps, takeStep_of_test, pure_bind, takeSteps_nil]
    simp only [List.map_cons, List.map_nil, List.flatMap_cons, List.flatMap_nil, hdocument,
      helement, List.nil_append, List.append_nil, documentOrder_singleton]
  refine ⟨doc, .path true [.anyDescendant, .step .attr (nameTest "b") []], .path true
    ([.anyDescendant, .step .attr (nameTest "b") []] ++ [.anyDescendant, .step .self .anyNode []]),
    hparse, ?_, ?_, ?_, by simp [along, alongFromAttr], ?_⟩
  · exact Path.parse (.location (.descendants (.single hstep)))
  · exact Path.parse (.location (.descendants (.doubleSlash hstep (.single .self))))
  · rw [eval, if_pos rfl, hselect]
    rfl
  · obtain ⟨found, hfound, hmem⟩ := exists_takeSteps_below doc.tree [.attr 0]
    obtain rfl : found = [] := by
      refine List.eq_nil_iff_forall_not_mem.2 fun y hy ↦ ?_
      obtain ⟨n, m, hn, -⟩ := (hmem y).1 hy
      simp at hn
    rw [eval, if_pos rfl, takeSteps_append_eq, hselect, pure_bind, hfound]
    rfl

end Text

end Query

namespace Document

open Query

/-- In a parsed document, the children of some nodes and of all that is below them are found as the
descendants of these nodes, whether they are written with two slashes or with the name of the axis.
At the start of a path, two slashes and a test lead to everything below the document that passes the
test, in the order of the document and once. -/
theorem twoSlashes_of_parse {source : Source} {mode : NamespaceMode} {doc : Document}
    (h : parse source mode = .ok doc) :
    (∀ nodes test, takeSteps doc.tree nodes [.anyDescendant, .step .child test []] =
      takeSteps doc.tree nodes [.step .descendant test []]) ∧
    (∀ nodes test, ∃ found,
      takeSteps doc.tree nodes [.anyDescendant, .step .child test []] = .ok found ∧
      ∀ y, y ∈ found ↔ ∃ n m, .node n ∈ nodes ∧ y = .node m ∧ doc.tree.Below m n ∧
        passes doc.tree test .child (.node m)) ∧
    (∃ below, doc.tree.Preorder (doc.tree.children Tree.root) below ∧ below.Nodup ∧
      (∀ id, id ∈ below ↔ id < doc.tree.size ∧ id ≠ Tree.root) ∧
      ∀ context test, eval doc.tree context (.path true [.anyDescendant, .step .child test []]) =
        .ok (.nodes ((below.filter fun id ↦ passes doc.tree test .child (.node id)).map .node))) ∧
    ∀ us test, Grammar.Test us test →
      Query.parse (.doubleSlash :: us) =
        .ok (.path true [.anyDescendant, .step .child test []]) ∧
      ∀ ts e, Grammar.Path ts e → ts ≠ [.slash] → ∃ e₁ e₂,
        Query.parse (ts ++ .doubleSlash :: us) = .ok e₁ ∧
        Query.parse (ts ++ .slash :: .name "descendant" :: .doubleColon :: us) = .ok e₂ ∧
        ∀ context, eval doc.tree context e₁ = eval doc.tree context e₂ := by
  obtain ⟨spans, hbuild, -, -⟩ := exists_spans_of_parse h
  have htree := Tree.inDocumentOrder_of_build hbuild
  have hrange := range_eq_cons_descendants htree
  have hnodup : (Tree.root :: doc.tree.descendants Tree.root).Nodup := hrange ▸ List.nodup_range
  obtain ⟨hroot, hnodup⟩ := List.nodup_cons.1 hnodup
  refine ⟨takeSteps_children_below htree, exists_takeSteps_children_below htree,
    ⟨_, htree.preorder Tree.root, hnodup, fun id ↦ ?_, eval_twoSlashes htree⟩,
    fun us test htest ↦ ⟨?_, fun ts e hpath hts ↦ exists_parse_twoSlashes htree hpath hts htest⟩⟩
  · rw [← List.mem_range, hrange, List.mem_cons]
    constructor
    · intro hid
      exact ⟨.inr hid, fun heq ↦ hroot (heq ▸ hid)⟩
    · rintro ⟨hid, hne⟩
      exact hid.resolve_left hne
  · exact Grammar.Path.parse (.location (.descendants (.single htest.oneStep)))

/-- The inner `c` is below two nodes of the set, one of them below the other. -/
theorem twoSlashes_of_parse_nested :
    ∃ doc, parse (.ofText "" "<a d='e'><b><c/></b><c/></a>") .aware = .ok doc ∧
      (∃ found, takeSteps doc.tree [.node 1, .attr 0, .node 2]
          [.anyDescendant, .step .child (.name none "c") []] = .ok found ∧
        takeSteps doc.tree [.node 1, .attr 0, .node 2]
          [.step .descendant (.name none "c") []] = .ok found) ∧
      eval doc.tree ⟨.node 3, 1, 1⟩
        (.path true [.anyDescendant, .step .child (.name none "c") []]) =
          .ok (.nodes [.node 3, .node 4]) := by
  have hrun : (parse (.ofText "" "<a d='e'><b><c/></b><c/></a>") .aware).toOption.any (fun doc ↦
      doc.tree.descendants Tree.root == [1, 2, 3, 4] &&
      [1, 2, 3, 4].filter (fun id ↦ passes doc.tree (.name none "c") .child (.node id)) ==
        [3, 4]) = true := by
    decide +kernel
  obtain ⟨doc, hparse, hdoc⟩ := exists_of_any hrun
  simp only [Bool.and_eq_true, beq_iff_eq] at hdoc
  obtain ⟨hdescendants, hpass⟩ := hdoc
  obtain ⟨hsame, hfound, ⟨below, hbelow, -, -, heval⟩, -⟩ := twoSlashes_of_parse hparse
  obtain ⟨spans, hbuild, -, -⟩ := exists_spans_of_parse hparse
  have htree := Tree.inDocumentOrder_of_build hbuild
  obtain rfl := hbelow.unique (htree.preorder Tree.root)
  obtain ⟨found, hfound, -⟩ := hfound [.node 1, .attr 0, .node 2] (.name none "c")
  refine ⟨doc, hparse, ⟨found, hfound, (hsame _ _).symm.trans hfound⟩, ?_⟩
  rw [heval, hdescendants, hpass]
  rfl

end Document

end XmlInspect
