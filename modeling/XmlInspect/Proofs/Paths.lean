import XmlInspect.Proofs.Lookahead
import XmlInspect.Proofs.NodeSets

/-!
# Steps from sets of nodes

A step is taken from every node of a set by itself. A predicate counts among what one node leads to
and is not told what the others lead to, so it makes no difference in which company a node is. All
that is found is then sorted and repetitions are left out, and this makes no difference either: a
set is told by its members. Hence steps may be taken from the parts of a union or from the whole,
and one fails exactly if the other does.

In the text of a query steps are put behind a path. They mean there what they mean behind an
expression in parentheses, except that nothing can be put behind a lone slash.
-/

namespace XmlInspect.Query

open QueryNode

variable {tree : Tree} {context : Context} {nodes found : List QueryNode} {x y : QueryNode}

/-! ## Collecting -/

section Collect

variable {find : QueryNode → Except Fault (List QueryNode)}

theorem exists_collect_iff :
    (∃ found, collect find nodes = .ok found) ↔ ∀ x ∈ nodes, ∃ part, find x = .ok part := by
  induction nodes with
  | nil => simp [collect]
  | cons node nodes ih =>
    rw [List.forall_mem_cons, ← ih]
    constructor
    · rintro ⟨found, h⟩
      obtain ⟨first, hfirst, h⟩ := bind_eq_ok_iff.1 h
      obtain ⟨others, hothers, -⟩ := bind_eq_ok_iff.1 h
      exact ⟨⟨first, hfirst⟩, others, hothers⟩
    · rintro ⟨⟨first, hfirst⟩, others, hothers⟩
      exact ⟨first ++ others, bind_eq_ok_iff.2 ⟨first, hfirst, bind_eq_ok_iff.2 ⟨_, hothers, rfl⟩⟩⟩

private theorem mem_collect_iff (h : collect find nodes = .ok found) :
    y ∈ found ↔ ∃ x ∈ nodes, ∃ part, find x = .ok part ∧ y ∈ part := by
  refine ⟨mem_of_collect h, ?_⟩
  induction nodes generalizing found with
  | nil => simp
  | cons node nodes ih =>
    obtain ⟨first, hfirst, h⟩ := bind_eq_ok_iff.1 h
    obtain ⟨others, hothers, h⟩ := bind_eq_ok_iff.1 h
    cases h
    rintro ⟨x, hx, part, hpart, hy⟩
    rcases List.mem_cons.1 hx with rfl | hx
    · rw [hfirst] at hpart
      cases hpart
      exact List.mem_append_left _ hy
    · exact List.mem_append_right _ (ih hothers ⟨x, hx, part, hpart, hy⟩)

end Collect

/-! ## Steps -/

/-- What a step finds from one node. -/
def Step.find (tree : Tree) : Step → QueryNode → Except Fault (List QueryNode)
  | .step axis test predicates, x => keepAll tree (candidates tree axis test x) predicates

theorem takeStep_eq_ok {step : Step} :
    takeStep tree nodes step = .ok found ↔
      ∃ collected, collect (step.find tree) nodes = .ok collected ∧
        documentOrder tree collected = found := by
  obtain ⟨axis, test, predicates⟩ := step
  rw [takeStep, bind_eq_ok_iff]
  refine exists_congr fun collected ↦ and_congr_right fun _ ↦ ?_
  exact ⟨Except.ok.inj, congrArg Except.ok⟩

/-- A step from a set is told by what it finds from the members. -/
theorem takeStep_eq_ok_iff {step : Step} :
    takeStep tree nodes step = .ok found ↔
      (∀ x ∈ nodes, ∃ part, step.find tree x = .ok part) ∧ found.Pairwise (Before tree) ∧
        ∀ y, y ∈ found ↔ ∃ x ∈ nodes, ∃ part, step.find tree x = .ok part ∧ y ∈ part := by
  rw [takeStep_eq_ok]
  constructor
  · rintro ⟨collected, hcollected, rfl⟩
    refine ⟨exists_collect_iff.1 ⟨_, hcollected⟩, pairwise_documentOrder tree _, fun y ↦ ?_⟩
    rw [mem_documentOrder, mem_collect_iff hcollected]
  · rintro ⟨hall, hsorted, hmem⟩
    obtain ⟨collected, hcollected⟩ := exists_collect_iff.2 hall
    refine ⟨collected, hcollected, (pairwise_documentOrder tree _).eq_of_mem_iff hsorted ?_⟩
    intro y
    rw [mem_documentOrder, mem_collect_iff hcollected, hmem]

private theorem exists_takeStep {step : Step}
    (h : ∀ x ∈ nodes, ∃ part, step.find tree x = .ok part) :
    ∃ found, takeStep tree nodes step = .ok found := by
  obtain ⟨collected, hcollected⟩ := exists_collect_iff.2 h
  exact ⟨_, takeStep_eq_ok.2 ⟨collected, hcollected, rfl⟩⟩

/-! ## Unions -/

private theorem takeStep_union_eq_ok {a b : List QueryNode} {step : Step} :
    takeStep tree (documentOrder tree (a ++ b)) step = .ok found ↔
      ∃ x y, takeStep tree a step = .ok x ∧ takeStep tree b step = .ok y ∧
        found = documentOrder tree (x ++ y) := by
  rw [takeStep_eq_ok_iff]
  simp only [mem_documentOrder, List.mem_append, or_imp, forall_and]
  constructor
  · rintro ⟨⟨ha, hb⟩, hsorted, hmem⟩
    obtain ⟨x, hx⟩ := exists_takeStep ha
    obtain ⟨y, hy⟩ := exists_takeStep hb
    refine ⟨x, y, hx, hy, hsorted.eq_of_mem_iff (pairwise_documentOrder tree _) fun n ↦ ?_⟩
    rw [hmem, mem_documentOrder, List.mem_append, (takeStep_eq_ok_iff.1 hx).2.2,
      (takeStep_eq_ok_iff.1 hy).2.2]
    simp only [or_and_right, exists_or]
  · rintro ⟨x, y, hx, hy, rfl⟩
    obtain ⟨ha, -, hx⟩ := takeStep_eq_ok_iff.1 hx
    obtain ⟨hb, -, hy⟩ := takeStep_eq_ok_iff.1 hy
    refine ⟨⟨ha, hb⟩, pairwise_documentOrder tree _, fun n ↦ ?_⟩
    rw [mem_documentOrder, List.mem_append, hx, hy]
    simp only [or_and_right, exists_or]

/-- Steps from a union lead to the union of what they lead to from its parts. -/
theorem takeSteps_union_eq_ok {a b : List QueryNode} {steps : List Step} :
    takeSteps tree (documentOrder tree (a ++ b)) steps = .ok found ↔
      ∃ x y, takeSteps tree a steps = .ok x ∧ takeSteps tree b steps = .ok y ∧
        found = documentOrder tree (x ++ y) := by
  -- After a step the sets are others, and again a union is what goes on.
  induction steps generalizing a b with
  | nil => simp [takeSteps, eq_comm]
  | cons step steps ih =>
    simp only [takeSteps, bind_eq_ok_iff, takeStep_union_eq_ok]
    constructor
    · rintro ⟨_, ⟨a', b', ha, hb, rfl⟩, hsteps⟩
      obtain ⟨x, y, hx, hy, hfound⟩ := ih.1 hsteps
      exact ⟨x, y, ⟨a', ha, hx⟩, ⟨b', hb, hy⟩, hfound⟩
    · rintro ⟨x, y, ⟨a', ha, hx⟩, ⟨b', hb, hy⟩, hfound⟩
      exact ⟨_, ⟨a', b', ha, hb, rfl⟩, ih.2 ⟨x, y, hx, hy, hfound⟩⟩

/-! ## Steps behind an expression -/

@[simp] theorem keepAll_nil (tree : Tree) (nodes : List QueryNode) :
    keepAll tree nodes [] = pure nodes := by
  rw [keepAll]
  rfl

theorem eval_steps_eq_ok {e : Expr} {steps : List Step} {v : Value} :
    eval tree context (.filter e [] steps) = .ok v ↔
      ∃ nodes found, eval tree context e = .ok (.nodes nodes) ∧
        takeSteps tree nodes steps = .ok found ∧ v = .nodes found := by
  rw [eval, bind_eq_ok_iff]
  constructor
  · rintro ⟨value, hvalue, h⟩
    split at h
    · rename_i nodes
      rw [keepAll_nil, pure_bind] at h
      obtain ⟨found, hfound, h⟩ := bind_eq_ok_iff.1 h
      cases h
      exact ⟨nodes, found, hvalue, hfound, rfl⟩
    · cases h
  · rintro ⟨nodes, found, hnodes, hfound, rfl⟩
    refine ⟨_, hnodes, ?_⟩
    dsimp only
    rw [keepAll_nil, pure_bind, hfound]
    rfl

private theorem eval_steps_union {a b : Expr} {steps : List Step} {v : Value} :
    eval tree context (.filter (.binary .union a b) [] steps) = .ok v ↔
      eval tree context (.binary .union (.filter a [] steps) (.filter b [] steps)) = .ok v := by
  simp only [eval_steps_eq_ok, eval_union_eq_ok, Value.nodes.injEq]
  constructor
  · rintro ⟨_, found, ⟨x, y, hx, hy, rfl⟩, hfound, rfl⟩
    obtain ⟨x', y', hx', hy', rfl⟩ := takeSteps_union_eq_ok.1 hfound
    exact ⟨x', y', ⟨x, x', hx, hx', rfl⟩, ⟨y, y', hy, hy', rfl⟩, rfl⟩
  · rintro ⟨_, _, ⟨x, x', hx, hx', rfl⟩, ⟨y, y', hy, hy', rfl⟩, rfl⟩
    exact ⟨_, _, ⟨x, y, hx, hy, rfl⟩, takeSteps_union_eq_ok.2 ⟨_, _, hx', hy', rfl⟩, rfl⟩

private theorem eval_path_append (tree : Tree) (context : Context) (absolute : Bool)
    (front rest : List Step) :
    eval tree context (.path absolute (front ++ rest)) =
      eval tree context (.filter (.path absolute front) [] rest) := by
  simp [eval, takeSteps_append_eq]

private theorem eval_filter_append (tree : Tree) (context : Context) (e : Expr)
    (predicates : List Expr) (front rest : List Step) :
    eval tree context (.filter e predicates (front ++ rest)) =
      eval tree context (.filter (.filter e predicates front) [] rest) := by
  simp only [eval, takeSteps_append_eq, bind_assoc]
  refine bind_congr fun value ↦ ?_
  cases value with
  | nodes nodes => simp
  | _ => rfl

namespace Grammar

variable {ts us : List Token} {e : Expr} {ss more : List Step}

theorem Steps.append : ∀ {ts us : List Token} {ss more : List Step}, Steps ts ss → Tail us more →
    Steps (ts ++ us) (ss ++ more)
  | _, _, _, _, .single h, .nil => by simpa using .single h
  | _, _, _, _, .single h, .slash hmore => .slash h hmore
  | _, _, _, _, .single h, .doubleSlash hmore => .doubleSlash h hmore
  | _, _, _, _, .slash h hsteps, hmore => by simpa using .slash h (hsteps.append hmore)
  | _, _, _, _, .doubleSlash h hsteps, hmore => by
    simpa using .doubleSlash h (hsteps.append hmore)

private theorem Tail.append (h : Tail ts ss) (hmore : Tail us more) : Tail (ts ++ us)
    (ss ++ more) := by
  cases h with
  | nil => exact hmore
  | slash h => exact .slash (h.append hmore)
  | doubleSlash h => exact .doubleSlash (h.append hmore)

/-- Steps may be put behind any path but a lone slash, where they are taken from what the path
leads to. -/
theorem Path.exists_onward (h : Path ts e) (hts : ts ≠ [.slash]) (hmore : Tail us more)
    (hne : more ≠ []) :
    ∃ e', Path (ts ++ us) e' ∧
      ∀ tree context, eval tree context e' = eval tree context (.filter e [] more) := by
  cases h with
  | location h =>
    cases h with
    | document => exact absurd rfl hts
    | absolute h =>
      exact ⟨_, .location (.absolute (h.append hmore)), fun _ _ ↦ eval_path_append _ _ _ _ _⟩
    | descendants h =>
      exact ⟨_, .location (.descendants (h.append hmore)),
        fun _ _ ↦ eval_path_append _ _ _ (_ :: _) _⟩
    | relative h =>
      exact ⟨_, .location (.relative (h.append hmore)), fun _ _ ↦ eval_path_append _ _ _ _ _⟩
  | primary h =>
    have hfilter := Path.filter h .nil hmore (.inr hne)
    rw [List.append_nil] at hfilter
    exact ⟨_, hfilter, fun _ _ ↦ rfl⟩
  | filter h hfilters htail _ =>
    refine ⟨_, ?_, fun _ _ ↦ eval_filter_append _ _ _ _ _ _⟩
    rw [List.append_assoc]
    refine .filter h hfilters (htail.append hmore) (.inr ?_)
    exact List.append_ne_nil_of_right_ne_nil _ hne

/-- A union of paths is an expression. -/
theorem Level.or_of_union (h : Level .union ts e) : Level .or ts e :=
  .operand (.tighter rfl (.operand (.tighter rfl (.operand (.tighter rfl (.operand
    (.tighter rfl (.operand (.tighter rfl (.operand (.unary (.union h))))))))))))

end Grammar

open Grammar

/-- Steps from a union of two sets of nodes can be taken exactly if they can be taken from both
sets, and lead to the union of what they lead to from these. So it is the same to put steps behind a
union of two expressions or behind each of them. In the text of a query, this is the same for paths,
none of which may be a lone slash, with the union in parentheses. -/
theorem distributes_over_union (tree : Tree) (steps : List Step) :
    (∀ a b found, takeSteps tree (documentOrder tree (a ++ b)) steps = .ok found ↔
      ∃ x y, takeSteps tree a steps = .ok x ∧ takeSteps tree b steps = .ok y ∧
        found = documentOrder tree (x ++ y)) ∧
    (∀ context a b v, eval tree context (.filter (.binary .union a b) [] steps) = .ok v ↔
      eval tree context (.binary .union (.filter a [] steps) (.filter b [] steps)) = .ok v) ∧
    ∀ as bs ss a b, Path as a → Path bs b → Tail ss steps → as ≠ [.slash] → bs ≠ [.slash] →
      steps ≠ [] → ∃ e e',
        parse (.leftParen :: (as ++ .operator .union :: bs) ++ [.rightParen] ++ ss) = .ok e ∧
        parse (as ++ ss ++ .operator .union :: (bs ++ ss)) = .ok e' ∧
        ∀ context v, eval tree context e = .ok v ↔ eval tree context e' = .ok v := by
  refine ⟨fun _ _ _ ↦ takeSteps_union_eq_ok, fun _ _ _ _ ↦ eval_steps_union, ?_⟩
  intro as bs ss a b ha hb hsteps has hbs hne
  have hunion : Level .union (as ++ .operator .union :: bs) (.binary .union a b) :=
    .operation (.operand (.path ha)) (.head _) (.path hb)
  obtain ⟨e, he, heval⟩ := (Path.primary (.parens hunion.or_of_union)).exists_onward (by simp)
    hsteps hne
  obtain ⟨a', ha', hevala⟩ := ha.exists_onward has hsteps hne
  obtain ⟨b', hb', hevalb⟩ := hb.exists_onward hbs hsteps hne
  refine ⟨e, .binary .union a' b', (Level.operand (.path he)).or_of_union.parse,
    (Level.operation (.operand (.path ha')) (.head _) (.path hb')).or_of_union.parse, ?_⟩
  intro context v
  rw [heval, eval_steps_union]
  simp only [eval_union_eq_ok, hevala, hevalb]

/-- The queries `(a|b)/c` and `a/c|b/c` on a document that has a `c` in both. -/
theorem distributes_over_union_children :
    ∃ doc, Document.parse (.ofText "" "<r><a><c/></a><b><c/></b></r>") .aware = .ok doc ∧
      candidates doc.tree .child (nameTest "c") (.node 2) = [.node 3] ∧
      candidates doc.tree .child (nameTest "c") (.node 4) = [.node 5] ∧
      ∃ e e',
        parse [.leftParen, .name "a", .operator .union, .name "b", .rightParen, .slash, .name "c"] =
          .ok e ∧
        parse [.name "a", .slash, .name "c", .operator .union, .name "b", .slash, .name "c"] =
          .ok e' ∧
        ∀ context v, eval doc.tree context e = .ok v ↔ eval doc.tree context e' = .ok v := by
  have hrun : (Document.parse (.ofText "" "<r><a><c/></a><b><c/></b></r>") .aware).toOption.any
      (fun doc ↦ candidates doc.tree .child (nameTest "c") (.node 2) == [.node 3] &&
        candidates doc.tree .child (nameTest "c") (.node 4) == [.node 5]) = true := by
    decide +kernel
  obtain ⟨doc, hparse, hdoc⟩ := exists_of_any hrun
  obtain ⟨ha, hb⟩ := Bool.and_eq_true_iff.1 hdoc
  have hstep (name : String) : OneStep [.name name] (.step .child (nameTest name) []) :=
    .step .children (.name name) .nil
  exact ⟨doc, hparse, beq_iff_eq.1 ha, beq_iff_eq.1 hb,
    (distributes_over_union doc.tree _).2.2 _ _ _ _ _ (.location (.relative (.single (hstep "a"))))
      (.location (.relative (.single (hstep "b")))) (.slash (.single (hstep "c"))) (by simp)
      (by simp) (by simp)⟩

end XmlInspect.Query
