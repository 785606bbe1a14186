import XmlInspect.Proofs.Oblivious
import XmlInspect.Proofs.WellFormed
import XmlInspect.Query.Basic

/-!
# Queries without namespaces

A query that asks for no namespace is evaluated on the tree that has none, although the tree with
namespaces understands names in another way: there a test without qualifier looks for names in no
namespace. The two agree wherever a name is in no namespace exactly if it has no qualifier. One
direction is a rule of well-formedness, as a qualifier has to be bound. The other one fails for an
element in a default namespace, and has to be asked for.

Names are all that the two trees could disagree on. Everything else that evaluation looks at, the
links between nodes, their texts and their order, is the same in both.
-/

namespace XmlInspect

/-! ## What does not depend on namespaces -/

namespace Tree

variable (tree : Tree) (id : NodeId)

@[simp] theorem parent?_forget : tree.forget.parent? id = tree.parent? id := by
  unfold parent? forget
  rw [Array.getElem?_map]
  cases tree.nodes[id]? <;> rfl

@[simp] theorem indexOf_forget : tree.forget.indexOf id = tree.indexOf id := by
  unfold indexOf forget
  rw [Array.getElem?_map]
  cases tree.nodes[id]? <;> rfl

@[simp] theorem attr?_forget (a : AttrId) :
    tree.forget.attr? a = (tree.attr? a).map (·.forget) := by
  simp [attr?, forget]

theorem parent?_forget_eq : tree.forget.parent? = tree.parent? := funext tree.parent?_forget

theorem nextSibling?_forget : tree.forget.nextSibling? = tree.nextSibling? := by
  funext id
  simp [nextSibling?]

theorem previousSibling?_forget : tree.forget.previousSibling? = tree.previousSibling? := by
  funext id
  simp [previousSibling?]

@[simp] theorem followingSiblings_forget :
    tree.forget.followingSiblings id = tree.followingSiblings id := by
  rw [followingSiblings, followingSiblings, nextSibling?_forget, size_forget]

@[simp] theorem precedingSiblings_forget :
    tree.forget.precedingSiblings id = tree.precedingSiblings id := by
  rw [precedingSiblings, precedingSiblings, previousSibling?_forget, size_forget]

@[simp] theorem ancestors_forget : tree.forget.ancestors id = tree.ancestors id := by
  rw [ancestors, ancestors, parent?_forget_eq, size_forget]

theorem visit_forget (fuel : Nat) (stack : List NodeId) :
    tree.forget.visit fuel stack = tree.visit fuel stack := by
  induction fuel generalizing stack with
  | zero => rfl
  | succ fuel ih =>
    cases stack with
    | nil => rfl
    | cons top stack => rw [visit, visit, children_forget, ih]

@[simp] theorem descendants_forget : tree.forget.descendants id = tree.descendants id := by
  rw [descendants, descendants, visit_forget, size_forget, children_forget]

theorem ownText_forget : tree.forget.ownText = tree.ownText := by
  funext id
  unfold ownText
  rw [kind?_forget]
  cases tree.kind? id with
  | none => rfl
  | some kind => cases kind <;> rfl

@[simp] theorem textContent_forget : tree.forget.textContent id = tree.textContent id := by
  unfold textContent
  rw [kind?_forget, descendants_forget, ownText_forget]
  cases tree.kind? id with
  | none => rfl
  | some kind => cases kind <;> rfl

end Tree

namespace Query

variable (tree : Tree)

namespace QueryNode

theorem ownerOf_forget : ownerOf tree.forget = ownerOf tree := by
  funext a
  unfold ownerOf
  rw [Tree.attr?_forget]
  cases tree.attr? a <;> rfl

theorem notAfter_forget : notAfter tree.forget = notAfter tree := by
  have hkey : orderKey tree.forget = orderKey tree := by
    funext x
    cases x with
    | node id => rfl
    | attr a => rw [orderKey, orderKey, ownerOf_forget]
  funext x y
  rw [notAfter, notAfter, hkey]

theorem text_forget : text tree.forget = text tree := by
  funext x
  cases x with
  | node id => exact tree.textContent_forget id
  | attr a =>
    rw [text, text, Tree.attr?_forget]
    cases tree.attr? a <;> rfl

theorem name?_forget (x : QueryNode) : x.name? tree.forget = (x.name? tree).map (·.forget) := by
  cases x with
  | node id => exact tree.name?_forget id
  | attr a =>
    rw [name?, name?, Tree.attr?_forget]
    cases tree.attr? a <;> rfl

end QueryNode

open QueryNode

theorem documentOrder_forget : documentOrder tree.forget = documentOrder tree := by
  funext nodes
  rw [documentOrder, documentOrder, notAfter_forget]

theorem isDeclaration_forget : isDeclaration tree.forget = isDeclaration tree := by
  funext a
  unfold isDeclaration
  rw [Tree.attr?_forget]
  cases tree.attr? a <;> rfl

theorem along_forget (axis : Axis) : along tree.forget axis = along tree axis := by
  funext x
  cases x with
  | node id => cases axis <;> simp [along, alongFromNode, isDeclaration_forget]
  | attr a => cases axis <;> simp [along, alongFromAttr, ownerOf_forget]

theorem toText_forget : Value.toText tree.forget = Value.toText tree := by
  funext value
  cases value with
  | nodes found => rw [Value.toText, Value.toText, text_forget]
  | _ => rfl

theorem toNumber_forget : Value.toNumber tree.forget = Value.toNumber tree := by
  funext value
  cases value with
  | nodes found => rw [Value.toNumber, Value.toNumber, toText_forget]
  | _ => rfl

theorem scalarsCompare_forget : scalarsCompare tree.forget = scalarsCompare tree := by
  funext op a b
  simp only [scalarsCompare, scalarsEqual, toNumber_forget, toText_forget]

theorem valuesCompare_forget : valuesCompare tree.forget = valuesCompare tree := by
  funext op a b
  simp only [valuesCompare, scalarsCompare_forget, text_forget]

theorem combine_forget : combine tree.forget = combine tree := by
  funext op left right
  simp only [combine, documentOrder_forget, valuesCompare_forget, toNumber_forget]

/-! ## Functions -/

theorem namePart_forget {part : QName → String}
    (hpart : ∀ name : QName, part name.forget = part name) (context : Context)
    (arguments : List Value) : Function.namePart tree.forget part context arguments =
      Function.namePart tree part context arguments := by
  have hname : ∀ node : Option QueryNode,
      (node.bind (QueryNode.name? tree.forget)).map part =
        (node.bind (QueryNode.name? tree)).map part := by
    intro node
    cases node with
    | none => rfl
    | some x => simp [name?_forget, Function.comp_def, hpart]
  simp only [Function.namePart, hname]

theorem textOf_forget : Function.textOf tree.forget = Function.textOf tree := by
  funext context arguments
  cases arguments with
  | nil => rw [Function.textOf, Function.textOf, text_forget]
  | cons => rw [Function.textOf, Function.textOf, toText_forget]

theorem compareTexts_forget : Function.compareTexts tree.forget = Function.compareTexts tree := by
  funext holds arguments
  unfold Function.compareTexts
  rw [toText_forget]

/-- No function but the one for namespaces looks at them. -/
theorem apply_forget {function : Function} (h : function ≠ .namespaceUri) (context : Context)
    (arguments : List Value) :
    function.apply tree.forget context arguments = function.apply tree context arguments := by
  unfold Function.apply
  split
  case h_4 => exact namePart_forget tree (fun _ ↦ rfl) context arguments
  case h_5 => exact namePart_forget tree (fun _ ↦ rfl) context arguments
  case h_6 => exact absurd rfl h
  all_goals
    simp only [textOf_forget, compareTexts_forget, toText_forget, toNumber_forget, text_forget]

/-- A call by another name is no call of the function for namespaces. -/
theorem ne_namespaceUri_of_resolve {name : String} {arguments : Nat} {function : Function}
    (h : Function.resolve name arguments = .ok function) (hname : name ≠ "namespace-uri") :
    function ≠ .namespaceUri := by
  rintro rfl
  unfold Function.resolve at h
  split at h
  · cases h
  · rename_i found least greatest hlookup
    split at h
    · cases h
      -- The table lists the function under one name only.
      obtain ⟨front, rest, htable, -⟩ := List.lookup_eq_some_iff.1 hlookup
      have honce : ∀ entry ∈ Function.table, entry.2.1 = .namespaceUri →
          entry.1 = "namespace-uri" := by
        decide
      exact hname (honce (name, .namespaceUri, least, greatest) (by simp [htable]) rfl)
    · split at h <;> cases h

/-! ## Names -/

end Query

/-- A name is in no namespace exactly if it has no qualifier. Attributes without qualifier are in
none by themselves. -/
structure Tree.QualifierDecides (tree : Tree) : Prop where
  mode : tree.mode = .aware
  element : ∀ id name, tree.name? id = some name →
    (name.namespaceUri.isNone ↔ name.qualifier.isNone)
  attr : ∀ a attr, tree.attr? a = some attr → attr.name.Resolved .aware

namespace Query

variable {tree : Tree}

/-- Without a qualifier, a test asks the same of a name with namespaces as without, if the name is
in no namespace exactly if it has no qualifier. -/
theorem resolvedMatches_eq {test : NodeTest} (htest : test.usesNamespaces = false) {name : QName}
    {namespaceUri : Option String} (h : namespaceUri.isNone ↔ name.qualifier.isNone)
    (scope : NodeId) :
    resolvedMatches tree test name scope namespaceUri = writtenMatches test name.forget := by
  cases test with
  | name qualifier localName =>
    cases qualifier with
    | some => cases htest
    | none =>
      have hiff : (none == namespaceUri) = (name.qualifier == none) := by
        cases namespaceUri <;> cases hqualifier : name.qualifier <;> simp_all
      rw [resolvedMatches, writtenMatches, Bool.and_comm]
      exact congrArg₂ _ hiff rfl
  | anyName qualifier =>
    cases qualifier with
    | some => cases htest
    | none => rfl
  | _ => rfl

theorem elementMatches_forget (h : tree.QualifierDecides) {test : NodeTest}
    (htest : test.usesNamespaces = false) :
    elementMatches tree.forget test = elementMatches tree test := by
  funext id
  unfold elementMatches
  rw [Tree.name?_forget, h.mode]
  cases hname : tree.name? id with
  | none => rfl
  | some name => exact (resolvedMatches_eq htest (h.element id name hname) id).symm

theorem attrMatches_forget (h : tree.QualifierDecides) {test : NodeTest}
    (htest : test.usesNamespaces = false) :
    attrMatches tree.forget test = attrMatches tree test := by
  funext a
  unfold attrMatches
  rw [Tree.attr?_forget, h.mode]
  cases hattr : tree.attr? a with
  | none => rfl
  | some attr =>
    refine (resolvedMatches_eq htest ?_ attr.owner).symm
    have hresolved := h.attr a attr hattr rfl
    cases hqualifier : attr.name.qualifier with
    | none => simp
    | some qualifier =>
      rw [hqualifier] at hresolved
      simpa [Option.isSome_iff_ne_none] using hresolved

theorem passes_forget (h : tree.QualifierDecides) {test : NodeTest}
    (htest : test.usesNamespaces = false) :
    passes tree.forget test = passes tree test := by
  funext axis x
  cases test with
  | text | comment =>
    cases x with
    | attr a => rfl
    | node id =>
      simp only [passes, Tree.kind?_forget]
      cases tree.kind? id with
      | none => rfl
      | some kind => cases kind <;> rfl
  | anyNode => rfl
  | name | anyName =>
    cases x with
    | node id => exact congrFun (elementMatches_forget h htest) id
    | attr a => simp only [passes, attrMatches_forget h htest]

theorem candidates_forget (h : tree.QualifierDecides) {test : NodeTest}
    (htest : test.usesNamespaces = false) (axis : Axis) :
    candidates tree.forget axis test = candidates tree axis test := by
  funext x
  rw [candidates, candidates, along_forget, passes_forget h htest]

/-! ## Evaluation -/

mutual

theorem eval_forget (h : tree.QualifierDecides) :
    ∀ {e : Expr}, e.usesNamespaces = false → ∀ context : Context,
      eval tree.forget context e = eval tree context e
  | .literal text, _, context => by rw [eval, eval]
  | .number value, _, context => by rw [eval, eval]
  | .negate operand, hfree, context => by
    rw [Expr.usesNamespaces] at hfree
    rw [eval, eval, eval_forget h hfree, toNumber_forget]
  | .binary op left right, hfree, context => by
    rw [Expr.usesNamespaces, Bool.or_eq_false_iff] at hfree
    have hleft := eval_forget h hfree.1 context
    have hright := eval_forget h hfree.2 context
    cases op <;> simp only [eval, combine_forget, hleft, hright]
  | .call name arguments, hfree, context => by
    rw [Expr.usesNamespaces, Bool.or_eq_false_iff, beq_eq_false_iff_ne] at hfree
    rw [eval, eval, evalAll_forget h hfree.2]
    cases hresolve : Function.resolve name arguments.length with
    | error fault => rfl
    | ok function =>
      have hne := ne_namespaceUri_of_resolve hresolve hfree.1
      have happly := funext (apply_forget tree hne context)
      exact congrArg (evalAll tree context arguments >>= ·) happly
  | .path absolute steps, hfree, context => by
    rw [Expr.usesNamespaces] at hfree
    rw [eval, eval, takeSteps_forget h hfree]
  | .filter primary predicates steps, hfree, context => by
    rw [Expr.usesNamespaces, Bool.or_eq_false_iff, Bool.or_eq_false_iff] at hfree
    have hprimary := eval_forget h hfree.1.1 context
    have hkeep := keepAll_forget h hfree.1.2
    have hsteps := takeSteps_forget h hfree.2
    simp only [eval, hprimary, hkeep, hsteps]

theorem evalAll_forget (h : tree.QualifierDecides) :
    ∀ {es : List Expr}, exprsUseNamespaces es = false → ∀ context : Context,
      evalAll tree.forget context es = evalAll tree context es
  | [], _, context => by rw [evalAll, evalAll]
  | e :: es, hfree, context => by
    rw [exprsUseNamespaces, Bool.or_eq_false_iff] at hfree
    rw [evalAll, evalAll, eval_forget h hfree.1, evalAll_forget h hfree.2]

theorem keepAll_forget (h : tree.QualifierDecides) :
    ∀ {predicates : List Expr}, exprsUseNamespaces predicates = false → ∀ nodes : List QueryNode,
      keepAll tree.forget nodes predicates = keepAll tree nodes predicates
  | [], _, nodes => by rw [keepAll, keepAll]
  | predicate :: predicates, hfree, nodes => by
    rw [exprsUseNamespaces, Bool.or_eq_false_iff] at hfree
    have hvalue := funext (eval_forget h hfree.1)
    rw [keepAll, keepAll, hvalue]
    exact congrArg _ (funext (keepAll_forget h hfree.2))

theorem takeSteps_forget (h : tree.QualifierDecides) :
    ∀ {steps : List Step}, stepsUseNamespaces steps = false → ∀ nodes : List QueryNode,
      takeSteps tree.forget nodes steps = takeSteps tree nodes steps
  | [], _, nodes => by rw [takeSteps, takeSteps]
  | step :: steps, hfree, nodes => by
    rw [stepsUseNamespaces, Bool.or_eq_false_iff] at hfree
    rw [takeSteps, takeSteps, takeStep_forget h hfree.1]
    exact congrArg _ (funext (takeSteps_forget h hfree.2))

theorem takeStep_forget (h : tree.QualifierDecides) :
    ∀ {step : Step}, step.usesNamespaces = false → ∀ nodes : List QueryNode,
      takeStep tree.forget nodes step = takeStep tree nodes step
  | .step axis test predicates, hfree, nodes => by
    rw [Step.usesNamespaces, Bool.or_eq_false_iff] at hfree
    have hkeep := keepAll_forget h hfree.2
    simp only [takeStep, documentOrder_forget, candidates_forget h hfree.1, hkeep]

end

end Query

namespace Document

open Query

/-- In a parsed document the qualifier decides, if no element is in a default namespace. -/
theorem qualifierDecides_of_parse {source : Source} {doc : Document}
    (h : parse source .aware = .ok doc)
    (hplain : ∀ id name, doc.tree.name? id = some name → name.qualifier = none →
      name.namespaceUri = none) : doc.tree.QualifierDecides := by
  obtain ⟨spans, hbuild, -, -⟩ := exists_spans_of_parse h
  have hwell := Tree.wellFormed_of_build hbuild
  refine ⟨Tree.mode_of_build hbuild, ?_, fun a attr ha ↦ (hwell.attr_legal a attr ha).name⟩
  intro id name hname
  obtain ⟨attrs, hkind⟩ := Tree.exists_kind_of_name? hname
  have hresolved : name.Resolved .aware := hwell.legal id _ hkind
  constructor
  · intro hnone
    cases hqualifier : name.qualifier with
    | none => rfl
    | some qualifier =>
      have hsome := hresolved rfl (by rw [hqualifier]; rfl)
      rw [Option.isNone_iff_eq_none.1 hnone] at hsome
      cases hsome
  · intro hqualifier
    rw [hplain id name hname (Option.isNone_iff_eq_none.1 hqualifier)]
    rfl

end Document

namespace XmlFile

/-- A query that asks for no namespaces has the same outcome on both trees of a file, from every
node, if no element is in a default namespace. -/
theorem evaluate_oblivious {source : Source} {file : XmlFile} (h : parse source = .ok file)
    (hplain : ∀ id name, file.document.tree.name? id = some name → name.qualifier = none →
      name.namespaceUri = none) :
    ∃ doc, file.documentIn .oblivious = .ok doc ∧
      ∀ query : Query, query.usesNamespaces = false → ∀ id : NodeId,
        query.evaluate doc.tree id = query.evaluate file.document.tree id := by
  obtain ⟨doc, hdoc, rfl⟩ := eq_mk_of_parse h
  refine ⟨doc.forget, Document.gives_parse source .aware doc hdoc, ?_⟩
  intro query hquery id
  exact Query.eval_forget (Document.qualifierDecides_of_parse hdoc hplain) hquery ⟨.node id, 1, 1⟩

theorem evaluate_oblivious_qualified :
    let source := Source.ofText "" "<a xmlns:p='u' p:b='c'><p:a/></a>"
    let query : Query := ⟨"//a", .path true [.anyDescendant, .step .child (.name none "a") []]⟩
    ∃ file doc, parse source = .ok file ∧
      file.document.tree.name? 1 = some ⟨none, "a", none⟩ ∧
      file.document.tree.name? 2 = some ⟨some "p", "a", some "u"⟩ ∧
      file.documentIn .oblivious = .ok doc ∧ query.usesNamespaces = false ∧
      ∀ id : NodeId, query.evaluate doc.tree id = query.evaluate file.document.tree id := by
  intro source query
  have hrun : (Document.parse source .aware).toOption.any (fun doc ↦
      doc.tree.name? 1 == some ⟨none, "a", none⟩ &&
      doc.tree.name? 2 == some ⟨some "p", "a", some "u"⟩ &&
      (List.range doc.tree.size).all fun id ↦ (doc.tree.name? id).all fun name ↦
        name.qualifier.isSome || name.namespaceUri.isNone) = true := by
    decide +kernel
  obtain ⟨doc, hdoc, hnames⟩ := exists_of_any hrun
  simp only [Bool.and_eq_true, beq_iff_eq] at hnames
  obtain ⟨⟨hfirst, hsecond⟩, hall⟩ := hnames
  have hfile : parse source = .ok ⟨source, doc⟩ := by
    rw [parse, hdoc]
    rfl
  have hplain : ∀ id name, doc.tree.name? id = some name → name.qualifier = none →
      name.namespaceUri = none := by
    intro id name hname hqualifier
    obtain ⟨attrs, hkind⟩ := Tree.exists_kind_of_name? hname
    have hid := List.all_eq_true.1 hall id (List.mem_range.2 (Tree.lt_size_of_kind? hkind))
    simpa [hname, hqualifier] using hid
  obtain ⟨oblivious, hoblivious, hsame⟩ := evaluate_oblivious hfile hplain
  exact ⟨⟨source, doc⟩, oblivious, hfile, hfirst, hsecond, hoblivious, by decide,
    hsame query (by decide)⟩

end XmlFile

end XmlInspect
