import XmlInspect.Check.Path
import XmlInspect.Proofs.Growth

/-!
# Forgetting namespaces

A body can be read in two ways: with its qualifiers resolved to namespaces, or with its names taken
as they are written. The second reading is the first one with the namespaces forgotten. It has fewer
faults, since a qualifier that is bound to nothing is one only for the first reading, so the
relation goes one way: whatever the first reading gives, the second gives its image.

Both stages of parsing are gone through with this relation, `Gives`, between the states of the two
readings. For building, the faults of a single name are all that sets the two apart. For binding,
the only names that matter are the written ones.
-/

namespace XmlInspect

open Markup

/-! ## Forgetting -/

/-- A name without its namespace. -/
def QName.forget (name : QName) : QName := { name with namespaceUri := none }

/-- What a node is, without the namespace of its name. -/
def NodeKind.forget : NodeKind → NodeKind
  | .element name attributes => .element name.forget attributes
  | kind => kind

def Node.forget (node : Node) : Node := { node with kind := node.kind.forget }

/-- An attribute without the namespace of its name. -/
def Attribute.forget (attr : Attribute) : Attribute := { attr with name := attr.name.forget }

/-- A tree without namespaces. -/
def Tree.forget (tree : Tree) : Tree where
  mode := .oblivious
  nodes := tree.nodes.map (·.forget)
  attributes := tree.attributes.map (·.forget)

/-- A document without namespaces. -/
def Document.forget (document : Document) : Document :=
  { document with tree := document.tree.forget }

namespace Tree

variable (tree : Tree) (id : NodeId)

@[simp] theorem size_forget : tree.forget.size = tree.size := by
  simp [size, forget]

@[simp] theorem children_forget : tree.forget.children id = tree.children id := by
  unfold children forget
  rw [Array.getElem?_map]
  cases tree.nodes[id]? <;> rfl

@[simp] theorem kind?_forget : tree.forget.kind? id = (tree.kind? id).map (·.forget) := by
  simp only [kind?, forget, Array.getElem?_map, Option.map_map]
  rfl

@[simp] theorem name?_forget : tree.forget.name? id = (tree.name? id).map (·.forget) := by
  unfold name?
  rw [kind?_forget]
  cases tree.kind? id with
  | none => rfl
  | some kind => cases kind <;> rfl

@[simp] theorem attributesOf_forget : tree.forget.attributesOf id = tree.attributesOf id := by
  unfold attributesOf
  rw [kind?_forget]
  cases tree.kind? id with
  | none => rfl
  | some kind => cases kind <;> rfl

@[simp] theorem writtenAttr?_forget (a : AttrId) :
    tree.forget.writtenAttr? a = tree.writtenAttr? a := by
  simp only [writtenAttr?, attr?, forget, Array.getElem?_map, Option.map_map]
  rfl

theorem forget_append (p : NodeId) (kind : NodeKind) :
    (tree.append p kind).forget = tree.forget.append p kind.forget := by
  have hnodes : (tree.append p kind).nodes.map (·.forget) =
      (tree.forget.append p kind.forget).nodes := by
    apply Array.ext_getElem?
    intro i
    rw [Array.getElem?_map, getElem?_append, getElem?_append, size_forget, children_forget, forget,
      Array.getElem?_map]
    split
    · rfl
    · split <;> cases tree.nodes[i]? <;> rfl
  rw [forget, hnodes]
  rfl

private theorem forget_appendElement (p : NodeId) (name : QName) (attrs : List (QName × String)) :
    (tree.appendElement p name attrs).forget =
      tree.forget.appendElement p name.forget (attrs.map fun attr ↦ (attr.1.forget, attr.2)) := by
  have hnodes := congrArg Tree.nodes
    (forget_append tree p (.element name (List.range' tree.attributes.size attrs.length)))
  have hattributes : (tree.appendElement p name attrs).attributes.map (·.forget) =
      (tree.forget.appendElement p name.forget
        (attrs.map fun attr ↦ (attr.1.forget, attr.2))).attributes := by
    apply Array.toList_inj.1
    simp [appendElement, forget, Function.comp_def, Attribute.forget, size]
  rw [forget, hattributes]
  simp only [appendElement, List.length_map, size_forget, show tree.forget.attributes.size =
    tree.attributes.size from Array.size_map]
  rw [show (tree.append p _).nodes.map (·.forget) = _ from hnodes]
  rfl

end Tree

/-! ## Two readings -/

/-- Whenever one computation gives a result, another gives the image of it. -/
def Gives {ε α β : Type} (f : α → β) (x : Except ε α) (y : Except ε β) : Prop :=
  ∀ a, x = .ok a → y = .ok (f a)

namespace Gives

variable {ε α α' β β' : Type} {f : α → α'} {g : β → β'}

theorem of_eq {a : α} {a' : α'} (h : f a = a') : Gives f (.ok a : Except ε α) (.ok a') := by
  intro _ ha
  cases ha
  exact congrArg Except.ok h.symm

theorem ok (a : α) : Gives f (.ok a : Except ε α) (.ok (f a)) := .of_eq rfl

theorem error (fault : ε) (y : Except ε α') : Gives f (.error fault) y := by
  intro _ h
  cases h

theorem bind {x : Except ε α} {y : Except ε α'} {k : α → Except ε β} {k' : α' → Except ε β'}
    (h : Gives f x y) (hk : ∀ a, Gives g (k a) (k' (f a))) : Gives g (x >>= k) (y >>= k') := by
  intro b hb
  obtain ⟨a, ha, hb⟩ := bind_eq_ok_iff.1 hb
  exact bind_eq_ok_iff.2 ⟨f a, h a ha, hk a b hb⟩

theorem bind_same (x : Except ε α) {k : α → Except ε β} {k' : α → Except ε β'}
    (hk : ∀ a, Gives g (k a) (k' a)) : Gives g (x >>= k) (x >>= k') := by
  intro b hb
  obtain ⟨a, ha, hb⟩ := bind_eq_ok_iff.1 hb
  exact bind_eq_ok_iff.2 ⟨a, ha, hk a b hb⟩

theorem ite {c : Prop} [Decidable c] {x x' : Except ε α} {y y' : Except ε α'}
    (h : Gives f x y) (h' : Gives f x' y') :
    Gives f (if c then x else x') (if c then y else y') := by
  split
  · exact h
  · exact h'

theorem mapError {δ : Type} {e e' : ε → δ} {x : Except ε α} {y : Except ε α'}
    (h : Gives f x y) : Gives f (x.mapError e) (y.mapError e') :=
  fun a ha ↦ mapError_eq_ok_iff.2 (h a (mapError_eq_ok_iff.1 ha))

theorem foldlM {σ σ' ι : Type} {f : σ → σ'} {step : σ → ι → Except ε σ}
    {step' : σ' → ι → Except ε σ'} (h : ∀ s i, Gives f (step s i) (step' (f s) i)) (l : List ι)
    (s : σ) : Gives f (l.foldlM step s) (l.foldlM step' (f s)) := by
  induction l generalizing s with
  | nil => exact ok s
  | cons i l ih =>
    rw [List.foldlM_cons, List.foldlM_cons]
    exact (h s i).bind ih

end Gives

/-! ## Building -/

namespace Tree.Builder

/-- The state of building without namespaces. -/
def forget (b : Builder) : Builder := { b with tree := b.tree.forget }

theorem gives_reportAt {α β : Type} {f : α → β} {offset : Nat} {x : Except Fault α}
    {y : Except Fault β} (h : Gives f x y) : Gives f (reportAt offset x) (reportAt offset y) :=
  fun a ha ↦ reportAt_eq_ok_iff.2 (h a (reportAt_eq_ok_iff.1 ha))

theorem forget_ofWritten (written : List Char) :
    (QName.ofWritten written).forget = QName.ofWritten written := by
  unfold QName.ofWritten
  split <;> rfl

theorem gives_elementName (mode : NamespaceMode) (scope : Scope) (written : List Char) :
    Gives QName.forget (elementName mode scope written) (elementName .oblivious scope written) := by
  intro name hname
  have hforget : name.forget = QName.ofWritten written := by
    rw [← forget_ofWritten]
    unfold elementName at hname
    split at hname
    · cases hname
      rfl
    · split at hname <;> cases hname <;> rfl
  rw [hforget]
  rfl

theorem gives_attributeName (mode : NamespaceMode) (scope : Scope) (written : List Char) :
    Gives QName.forget (attributeName mode scope written)
      (attributeName .oblivious scope written) := by
  intro name hname
  have hforget : name.forget = QName.ofWritten written := by
    rw [← forget_ofWritten]
    unfold attributeName at hname
    dsimp only at hname
    split at hname
    · cases hname
      rfl
    · split at hname
      · cases hname
        rfl
      · split at hname
        · cases hname
          rfl
        · split at hname <;> cases hname <;> rfl
  rw [hforget]
  rfl

variable (b : Builder)

theorem gives_readAttributes (scope : Scope) (raws : List RawAttribute)
    (fault : Option AttributeFault) :
    Gives (List.map fun attr ↦ (attr.1.forget, attr.2)) (b.readAttributes scope (raws, fault))
      (b.forget.readAttributes scope (raws, fault)) := by
  induction raws with
  | nil =>
    rw [readAttributes.eq_def, readAttributes.eq_def]
    cases fault with
    | none => exact .ok []
    | some fault => exact .error _ _
  | cons raw raws ih =>
    rw [readAttributes, readAttributes]
    refine (gives_attributeName b.tree.mode scope raw.key).bind fun name ↦ ?_
    refine .bind_same (b.expandReferences raw.value) fun value ↦ ?_
    exact ih.bind fun attrs ↦ .ok ((name, value) :: attrs)

theorem gives_addElement (name : QName) (attrs : List (QName × List Char)) :
    Gives forget (b.addElement name attrs)
      (b.forget.addElement name.forget (attrs.map fun attr ↦ (attr.1.forget, attr.2))) := by
  unfold addElement
  refine .ite (.error _ _) ?_
  dsimp only
  rw [List.forM_eq_forM, List.forM_map]
  refine .bind_same _ fun _ ↦ .of_eq ?_
  rw [forget, Tree.forget_appendElement, List.map_map, List.map_map]
  rfl

theorem forget_appendLeaf {kind : NodeKind} (hkind : kind.forget = kind) :
    b.forget.appendLeaf kind = (b.appendLeaf kind).forget := by
  rw [appendLeaf, appendLeaf, forget, forget, Tree.forget_append, hkind]
  rfl

theorem gives_takeText (start stop : Nat) (raw : List Char) :
    Gives forget (b.takeText start stop raw) (b.forget.takeText start stop raw) := by
  unfold takeText
  refine .bind_same (reportAt stop (b.expandReferences raw)) fun text ↦ ?_
  refine .ite (.error _ _) ?_
  refine .bind_same (reportAt start (checkChars text)) fun _ ↦ ?_
  rw [forget_appendLeaf b rfl]
  exact .ok _

theorem gives_takeCdata (content : List Char) :
    Gives forget (b.takeCdata content) (b.forget.takeCdata content) := by
  unfold takeCdata
  refine .ite (.error _ _) ?_
  refine .bind_same (checkChars content) fun _ ↦ ?_
  rw [forget_appendLeaf b rfl]
  exact .ok _

theorem gives_takeComment (content : List Char) :
    Gives forget (b.takeComment content) (b.forget.takeComment content) := by
  unfold takeComment
  refine .bind_same (checkChars content) fun _ ↦ ?_
  rw [forget_appendLeaf b rfl]
  exact .ok _

theorem gives_takeDoctype (content : List Char) :
    Gives forget (b.takeDoctype content) (b.forget.takeDoctype content) := by
  unfold takeDoctype
  refine .ite (.error _ _) (.of_eq ?_)
  rw [forget, Tree.forget_append]
  rfl

theorem gives_takeOpenTag (start stop : Nat) (content : List Char) (selfClosing : Bool) :
    Gives forget (b.takeOpenTag start stop content selfClosing)
      (b.forget.takeOpenTag start stop content selfClosing) := by
  unfold takeOpenTag
  dsimp only
  -- The declarations of the tag are the same for both, and so is what they do to the scope.
  rw [show b.forget.scope = b.scope from rfl]
  split
  case h_2 => exact .error _ _
  refine .bind_same _ fun scope ↦ ?_
  refine (gives_reportAt (gives_elementName b.tree.mode scope _)).bind fun name ↦ ?_
  refine (gives_reportAt (gives_readAttributes b scope _ _)).bind fun attrs ↦ ?_
  refine (gives_reportAt (gives_addElement b name attrs)).bind fun next ↦ ?_
  refine .ite (.ok next) (.of_eq ?_)
  rw [show b.forget.tree.size = b.tree.size from b.tree.size_forget]
  rfl

theorem gives_takeCloseTag (name : List Char) :
    Gives forget (b.takeCloseTag name) (b.forget.takeCloseTag name) := by
  unfold takeCloseTag
  rw [show b.forget.frames = b.frames from rfl]
  cases b.frames with
  | nil => exact .error _ _
  | cons frame frames => exact .ite (.ok _) (.error _ _)

theorem gives_take (piece : Piece) : Gives forget (b.take piece) (b.forget.take piece) := by
  unfold take
  cases piece.form with
  | text => exact gives_takeText b _ _ _
  | openTag content selfClosing => exact gives_takeOpenTag b _ _ _ _
  | closeTag name => exact gives_reportAt (gives_takeCloseTag b name)
  | comment content => exact gives_reportAt (gives_takeComment b content)
  | cdata content => exact gives_reportAt (gives_takeCdata b content)
  | doctype content => exact gives_reportAt (gives_takeDoctype b content)
  | declaration => exact .ite (.ok b) (.error _ _)
  | instruction => exact .ok b

theorem gives_finish : Gives Tree.forget b.finish b.forget.finish := by
  unfold finish
  rw [show b.forget.frames = b.frames from rfl]
  cases b.frames with
  | nil => exact .ite (.ok _) (.error _ _)
  | cons frame frames => exact .error _ _

end Tree.Builder

/-- What building gives in any mode, it gives without namespaces. -/
theorem Tree.gives_build (mode : NamespaceMode) (body : List Char) :
    Gives forget (build mode body) (build .oblivious body) := by
  have hinitial : (Builder.initial mode).forget = .initial .oblivious := by
    simp [Builder.initial, Builder.forget, Tree.empty, forget, Node.forget, NodeKind.forget]
  unfold build
  dsimp only
  rw [← hinitial]
  refine Gives.bind (Gives.foldlM Builder.gives_take _ _) fun b ↦ ?_
  split
  · exact .error _ _
  · exact Builder.gives_reportAt b.gives_finish

/-! ## Binding -/

namespace Binder

/-- The state of the replay without namespaces. -/
def forget (d : Binder) : Binder := { d with tree := d.tree.forget }

variable (d : Binder)

theorem gives_setNode (id : NodeId) (slot : Slot) (span : Span) :
    Gives forget (d.setNode id slot span) (d.forget.setNode id slot span) := by
  unfold setNode
  dsimp only
  rw [show d.forget.spans = d.spans from rfl]
  split
  · exact .error _ _
  · exact .ok _

theorem gives_setAttr (id : AttrId) (slot : Slot) (span : Span) :
    Gives forget (d.setAttr id slot span) (d.forget.setAttr id slot span) := by
  unfold setAttr
  dsimp only
  rw [show d.forget.spans = d.spans from rfl]
  split
  · exact .error _ _
  · exact .ok _

private theorem accepts_forget (expected : Expected) (kind : NodeKind) :
    expected.accepts kind.forget = expected.accepts kind := by
  cases expected <;> cases kind <;> rfl

theorem gives_nextChild (expected : Expected) :
    Gives (fun next ↦ (next.1, next.2.forget)) (d.nextChild expected)
      (d.forget.nextChild expected) := by
  unfold nextChild
  dsimp only
  rw [show d.forget.current = d.current from rfl,
    show d.forget.tree.children d.current.node = _ from d.tree.children_forget _]
  split
  · exact .error _ _
  · rename_i id _
    have hkind : (d.forget.tree.kind? id).getD .document =
        ((d.tree.kind? id).getD .document).forget := by
      rw [show d.forget.tree.kind? id = _ from d.tree.kind?_forget id]
      cases d.tree.kind? id <;> rfl
    rw [hkind, accepts_forget]
    exact .ite (.ok _) (.error _ _)

theorem allVisited_forget (visit : Visit) : d.forget.allVisited visit = d.allVisited visit := by
  unfold allVisited
  rw [show d.forget.tree.children visit.node = _ from d.tree.children_forget _]

/-- Only the written names are compared. -/
theorem sameName_forget (name : Lexeme) (id : NodeId) :
    d.forget.sameName name id = d.sameName name id := by
  unfold sameName
  rw [show d.forget.tree.name? id = _ from d.tree.name?_forget id, Option.map_map]
  rfl

theorem gives_flush : Gives forget d.flush d.forget.flush := by
  unfold flush
  rw [show d.forget.pending = d.pending from rfl]
  split
  · exact gives_setNode _ _ _ _
  · exact .ok d

theorem gives_bindText (span : Span) : Gives forget (d.bindText span) (d.forget.bindText span) := by
  unfold bindText
  rw [show d.forget.pending = d.pending from rfl]
  split
  · exact .ok _
  · exact (gives_nextChild d .text).bind fun _ ↦ .ok _

theorem gives_bindDelimited (expected : Expected) (token : Token) :
    Gives forget (d.bindDelimited expected token) (d.forget.bindDelimited expected token) := by
  unfold bindDelimited
  refine (gives_nextChild d expected).bind fun next ↦ ?_
  refine (gives_setNode next.2 next.1 .opening token.opening).bind fun d ↦ ?_
  exact (gives_setNode d next.1 .closing token.closing).bind fun d ↦ gives_setNode d _ _ _

theorem gives_bindAttributes (id : NodeId) (left : List AttrId) (attrs : List AttributeLexeme) :
    Gives forget (bindAttributes id d left attrs) (bindAttributes id d.forget left attrs) := by
  induction attrs generalizing d left with
  | nil => exact .ok d
  | cons lexeme attrs ih =>
    unfold bindAttributes
    dsimp only
    simp only [show ∀ a, d.forget.tree.writtenAttr? a = _ from d.tree.writtenAttr?_forget]
    split
    · exact .error _ _
    · rename_i a _
      refine (gives_setAttr d a .name lexeme.name.span).bind fun d ↦ ?_
      refine (gives_setAttr d a .value lexeme.value.span).bind fun d ↦ ?_
      exact (gives_setAttr d a .whole _).bind fun d ↦ ih d _

theorem gives_bindOpenTag (token : Token) (name : Lexeme) (attrs : List AttributeLexeme)
    (selfClosing : Bool) :
    Gives forget (d.bindOpenTag token name attrs selfClosing)
      (d.forget.bindOpenTag token name attrs selfClosing) := by
  unfold bindOpenTag
  refine (gives_nextChild d .element).bind fun next ↦ ?_
  obtain ⟨id, d⟩ := next
  dsimp only
  rw [sameName_forget]
  refine .bind_same _ fun _ ↦ ?_
  refine (gives_setNode d id .name name.span).bind fun d ↦ ?_
  refine (gives_setNode d id .opening token.span).bind fun d ↦ ?_
  rw [show d.forget.tree.attributesOf id = _ from d.tree.attributesOf_forget id]
  refine .ite (.error _ _) ?_
  refine (gives_bindAttributes d id _ attrs).bind fun d ↦ ?_
  refine .ite ?_ (.ok _)
  exact (gives_setNode d id .closing token.closing).bind fun d ↦ gives_setNode d _ _ _

theorem gives_bindCloseTag (token : Token) (name : Lexeme) :
    Gives forget (d.bindCloseTag token name) (d.forget.bindCloseTag token name) := by
  unfold bindCloseTag
  rw [show d.forget.outer = d.outer from rfl]
  split
  · exact .error _ _
  · dsimp only
    rw [allVisited_forget, sameName_forget]
    refine .bind_same _ fun _ ↦ .bind_same _ fun _ ↦ ?_
    rw [show d.forget.spans = d.spans from rfl, show d.forget.current = d.current from rfl]
    split
    · exact .error _ _
    · exact (gives_setNode _ _ .closing token.span).bind fun d ↦ gives_setNode d _ _ _

theorem gives_take (token : Token) : Gives forget (d.take token) (d.forget.take token) := by
  unfold take
  cases token.form with
  | text => exact gives_bindText d _
  | declaration attrs =>
    exact (gives_flush d).bind fun d ↦ .ite (.error _ _) (.ok _)
  | instruction => exact gives_flush d
  | doctype =>
    exact (gives_flush d).bind fun d ↦ (gives_nextChild d .doctype).bind fun _ ↦
      gives_setNode _ _ _ _
  | comment => exact (gives_flush d).bind fun d ↦ gives_bindDelimited d _ _
  | cdata => exact (gives_flush d).bind fun d ↦ gives_bindDelimited d _ _
  | openTag name attrs selfClosing =>
    exact (gives_flush d).bind fun d ↦ gives_bindOpenTag d _ _ _ _
  | closeTag name => exact (gives_flush d).bind fun d ↦ gives_bindCloseTag d _ _

theorem gives_bindRoot : Gives forget d.bindRoot d.forget.bindRoot := by
  unfold bindRoot
  dsimp only
  rw [show d.forget.tree.children Tree.root = _ from d.tree.children_forget _,
    show d.forget.spans = d.spans from rfl]
  split
  · exact gives_setNode _ _ _ _
  · exact .error _ _

theorem gives_finish : Gives id d.finish d.forget.finish := by
  unfold finish
  refine (gives_flush d).bind fun d ↦ ?_
  rw [show d.forget.outer = d.outer from rfl]
  split
  · exact .error _ _
  · rw [allVisited_forget]
    exact .bind_same _ fun _ ↦ (gives_bindRoot d).bind fun _ ↦ .of_eq rfl

end Binder

namespace Document

/-- Binding gives the same spans without namespaces. -/
theorem gives_bind (tree : Tree) (body : List Char) :
    Gives id (Document.bind tree body) (Document.bind tree.forget body) := by
  have hinitial : Binder.initial tree.forget = (Binder.initial tree).forget := by
    simp [Binder.initial, Binder.forget, Tree.forget]
  unfold Document.bind
  dsimp only
  rw [hinitial]
  refine (Gives.mapError (Gives.foldlM Binder.gives_take _ _)).bind fun d ↦ ?_
  split
  · exact .error _ _
  · exact (Binder.gives_finish d).mapError

theorem gives_parse (source : Source) (mode : NamespaceMode) :
    Gives forget (parse source mode) (parse source .oblivious) := by
  unfold parse
  refine (Gives.mapError (Tree.gives_build mode source.body)).bind fun tree ↦ ?_
  refine (Gives.mapError (gives_bind tree source.body)).bind fun spans ↦ ?_
  refine Gives.mapError ?_
  unfold locate
  refine .bind_same _ fun nodes ↦ .bind_same _ fun attrs ↦ .bind_same _ fun prolog ↦ ?_
  exact .ok _

end Document

/-! ## Files -/

namespace XmlFile

variable {source : Source} {file : XmlFile}

theorem eq_mk_of_parse (h : parse source = .ok file) :
    ∃ doc, Document.parse source .aware = .ok doc ∧ file = ⟨source, doc⟩ := by
  obtain ⟨doc, hdoc, hfile⟩ := bind_eq_ok_iff.1 h
  exact ⟨doc, hdoc, (Except.ok.inj hfile).symm⟩

/-- A file that could be parsed has a document in each mode. -/
theorem exists_documentIn (h : parse source = .ok file) (mode : NamespaceMode) :
    ∃ doc, file.documentIn mode = .ok doc := by
  obtain ⟨doc, hdoc, rfl⟩ := eq_mk_of_parse h
  cases mode with
  | aware => exact ⟨doc, rfl⟩
  | oblivious => exact ⟨doc.forget, Document.gives_parse source .aware doc hdoc⟩

end XmlFile

private theorem PathRule.exists_found (config : PathRule) (settings : Settings) {file : XmlFile}
    (h : ∀ mode, ∃ doc, file.documentIn mode = .ok doc) :
    ∃ issues, (config.check.run file settings).1 = .found issues := by
  obtain ⟨doc, hdoc⟩ := h config.mode
  refine ⟨if config.applies settings then config.issues doc else [], Check.run_stateless ?_⟩
  rw [hdoc]
  split <;> rfl

namespace Document

/-- Read without namespaces, a document is what it is with them, the namespaces forgotten. So every
file that could be parsed has a document without namespaces, and every query finds one to look
at. -/
theorem parse_oblivious (source : Source) :
    (∀ doc, parse source .aware = .ok doc → parse source .oblivious = .ok doc.forget) ∧
    ∀ file, XmlFile.parse source = .ok file →
      file.documentIn .oblivious = .ok file.document.forget ∧
      ∀ (config : PathRule) (settings : Settings),
        ∃ issues, (config.check.run file settings).1 = .found issues := by
  refine ⟨gives_parse source .aware, ?_⟩
  intro file hfile
  refine ⟨?_, fun config settings ↦ config.exists_found settings (XmlFile.exists_documentIn hfile)⟩
  obtain ⟨doc, hdoc, rfl⟩ := XmlFile.eq_mk_of_parse hfile
  exact gives_parse source .aware doc hdoc

theorem parse_oblivious_default :
    let source := Source.ofText "" "<a xmlns='b' xmlns:c='d' c:e='f'>g</a>"
    ∃ doc, parse source .aware = .ok doc ∧
      doc.tree.name? 1 = some ⟨none, "a", some "b"⟩ ∧
      parse source .oblivious = .ok doc.forget ∧
      doc.forget.tree.name? 1 = some ⟨none, "a", none⟩ ∧
      XmlFile.parse source = .ok ⟨source, doc⟩ ∧
      ∀ (config : PathRule) (settings : Settings),
        ∃ issues, (config.check.run ⟨source, doc⟩ settings).1 = .found issues := by
  intro source
  have hrun : (parse source .aware).toOption.any
      (fun doc ↦ doc.tree.name? 1 == some ⟨none, "a", some "b"⟩) = true := by
    decide +kernel
  obtain ⟨doc, hparse, hname⟩ := exists_of_any hrun
  have hname := beq_iff_eq.1 hname
  have hfile : XmlFile.parse source = .ok ⟨source, doc⟩ := by
    rw [XmlFile.parse, hparse]
    rfl
  have hforget : doc.forget.tree.name? 1 = some ⟨none, "a", none⟩ := by
    rw [show doc.forget.tree.name? 1 = _ from doc.tree.name?_forget 1, hname]
    rfl
  obtain ⟨hdoc, hrules⟩ := parse_oblivious source
  exact ⟨doc, hparse, hname, hdoc doc hparse, hforget, hfile, (hrules _ hfile).2⟩

end Document

end XmlInspect
