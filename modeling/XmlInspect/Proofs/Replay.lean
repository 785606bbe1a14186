import Mathlib.Data.List.Forall2
import Mathlib.Logic.Function.Basic
import XmlInspect.Proofs.Growth
import XmlInspect.Proofs.Tokens

/-!
# What replaying a token does

The replay fills slots one at a time and asks before each whether it is still free. If a node has no
slot filled yet, all the slots of a token go in together, and what a token does can be said in one
equation. The equations below are under that condition, and they are what every property of the
replay rests on.
-/

namespace XmlInspect

/-! ## Filling slots -/

namespace TreeSpans

variable (spans : TreeSpans) {id id' : Nat}

/-- Replaces the places of the parts of a node. -/
def fill (id : NodeId) (ranges : Ranges Span) : TreeSpans :=
  { spans with nodes := spans.nodes.setIfInBounds id ranges }

/-- Replaces the places of the parts of an attribute. -/
def fillAttr (id : AttrId) (ranges : Ranges Span) : TreeSpans :=
  { spans with attributes := spans.attributes.setIfInBounds id ranges }

theorem ranges_fill (h : id < spans.nodes.size) (ranges : Ranges Span) :
    (spans.fill id ranges).ranges = Function.update spans.ranges id ranges := by
  funext id'
  simp only [TreeSpans.ranges, fill, Array.getD_eq_getD_getElem?, Array.getElem?_setIfInBounds,
    Function.update_apply]
  by_cases hid : id = id'
  · subst hid
    simp [h]
  · simp [hid, Ne.symm hid]

theorem attrRanges_fillAttr (h : id < spans.attributes.size) (ranges : Ranges Span) :
    (spans.fillAttr id ranges).attrRanges = Function.update spans.attrRanges id ranges := by
  funext id'
  simp only [TreeSpans.attrRanges, fillAttr, Array.getD_eq_getD_getElem?,
    Array.getElem?_setIfInBounds, Function.update_apply]
  by_cases hid : id = id'
  · subst hid
    simp [h]
  · simp [hid, Ne.symm hid]

@[simp] theorem fill_fill (id : NodeId) (ranges ranges' : Ranges Span) :
    (spans.fill id ranges).fill id ranges' = spans.fill id ranges' := by
  simp [fill]

@[simp] theorem fillAttr_fillAttr (id : AttrId) (ranges ranges' : Ranges Span) :
    (spans.fillAttr id ranges).fillAttr id ranges' = spans.fillAttr id ranges' := by
  simp [fillAttr]

end TreeSpans

/-! ## Results and mismatches -/

namespace Mismatch

/-- Whether a mismatch is a slot that was filled before. -/
def isTwice : Mismatch → Bool
  | nodeBoundTwice _ _ => true
  | attrBoundTwice _ _ => true
  | _ => false

end Mismatch

/-- Either a result with a property or a mismatch, which is not a slot that was filled before. -/
def Yields {α : Type} (x : Except Mismatch α) (Q : α → Prop) : Prop :=
  match x with
  | .ok a => Q a
  | .error fault => fault.isTwice = false

namespace Yields

variable {α β : Type} {x : Except Mismatch α} {f : α → Except Mismatch β} {Q : α → Prop}
  {R : β → Prop}

theorem bind (h : Yields x Q) (hf : ∀ a, Q a → Yields (f a) R) : Yields (x >>= f) R := by
  cases x with
  | error fault => exact h
  | ok a => exact hf a h

theorem imp {Q' : α → Prop} (h : Yields x Q) (hQ : ∀ a, Q a → Q' a) : Yields x Q' := by
  cases x with
  | error fault => exact h
  | ok a => exact hQ a h

theorem of_eq_ok {a : α} (hx : x = .ok a) (h : Q a) : Yields x Q := by
  rw [hx]
  exact h

theorem bind_ok {a : α} (hx : x = .ok a) (hf : Yields (f a) R) : Yields (x >>= f) R := by
  rw [hx]
  exact hf

theorem elim {a : α} (h : Yields x Q) (hx : x = .ok a) : Q a := by
  rw [hx] at h
  exact h

theorem not_isTwice {fault : Mismatch} (h : Yields x Q) (hx : x = .error fault) :
    fault.isTwice = false := by
  rw [hx] at h
  exact h

end Yields

namespace Binder

variable {d d' : Binder} {id : NodeId} {slot : Slot} {span : Span} {ranges : Ranges Span}
  {expected : Expected} {token : Token}

theorem setNode_eq (hranges : d.spans.ranges id = ranges) (hslot : ranges.get slot = none) :
    d.setNode id slot span = .ok { d with spans := d.spans.fill id (ranges.set slot span) } := by
  subst hranges
  unfold setNode
  dsimp only
  rw [show (d.spans.nodes.getD id .empty).get slot = none from hslot]
  rfl

/-- Filling one more slot of a node that was filled just before. -/
theorem setNode_fill (hid : id < d.spans.nodes.size) (hslot : ranges.get slot = none) :
    Binder.setNode { d with spans := d.spans.fill id ranges } id slot span =
      .ok { d with spans := d.spans.fill id (ranges.set slot span) } := by
  rw [setNode_eq (by rw [d.spans.ranges_fill hid, Function.update_self]) hslot,
    TreeSpans.fill_fill]

theorem setAttr_eq {id : AttrId} (hranges : d.spans.attrRanges id = ranges)
    (hslot : ranges.get slot = none) :
    d.setAttr id slot span =
      .ok { d with spans := d.spans.fillAttr id (ranges.set slot span) } := by
  subst hranges
  unfold setAttr
  dsimp only
  rw [show (d.spans.attributes.getD id .empty).get slot = none from hslot]
  rfl

theorem setAttr_fill {id : AttrId} (hid : id < d.spans.attributes.size)
    (hslot : ranges.get slot = none) :
    Binder.setAttr { d with spans := d.spans.fillAttr id ranges } id slot span =
      .ok { d with spans := d.spans.fillAttr id (ranges.set slot span) } := by
  rw [setAttr_eq (by rw [d.spans.attrRanges_fillAttr hid, Function.update_self]) hslot,
    TreeSpans.fillAttr_fillAttr]

/-! ## The next child -/

/-- The child that comes next. -/
def next? (d : Binder) : Option NodeId := (d.tree.children d.current.node)[d.current.visited]?

/-- The state after the next child was found. -/
def advance (d : Binder) : Binder :=
  { d with current := { d.current with visited := d.current.visited + 1 } }

/-- The next child is there and is what is expected. -/
def Meets (d : Binder) (expected : Expected) (id : NodeId) (kind : NodeKind) : Prop :=
  d.next? = some id ∧ d.tree.kind? id = some kind ∧ expected.accepts kind

theorem yields_nextChild (d : Binder) (expected : Expected) :
    Yields (d.nextChild expected) fun next ↦
      next.2 = d.advance ∧ ∃ kind, d.Meets expected next.1 kind := by
  unfold nextChild
  dsimp only
  split
  · rfl
  · rename_i id hid
    split
    · rename_i haccepts
      refine ⟨rfl, ?_⟩
      cases hkind : d.tree.kind? id with
      | none =>
        rw [hkind] at haccepts
        cases expected <;> cases haccepts
      | some kind =>
        rw [hkind] at haccepts
        exact ⟨kind, hid, hkind, haccepts⟩
    · rfl

theorem yields_allVisited (d : Binder) (visit : Visit) :
    Yields (d.allVisited visit) fun _ ↦ visit.visited = (d.tree.children visit.node).length := by
  unfold allVisited
  dsimp only
  split
  · assumption
  · rfl

theorem yields_sameName (d : Binder) (name : Lexeme) (id : NodeId) :
    Yields (d.sameName name id) fun _ ↦
      String.ofList name.text = ((d.tree.name? id).map (·.written)).getD "" := by
  unfold sameName
  dsimp only
  split
  · assumption
  · rfl

/-! ## Leaves -/

/-- The next child has room for its slots. -/
def Fresh (d : Binder) : Prop :=
  ∀ id, d.next? = some id → id < d.spans.nodes.size ∧ d.spans.ranges id = .empty

/-- The next child was bound: these are its slots. -/
def Binds (d : Binder) (expected : Expected) (ranges : Ranges Span) (d' : Binder) : Prop :=
  ∃ id kind, d.Meets expected id kind ∧ d' = { d.advance with spans := d.spans.fill id ranges }

theorem yields_bindDelimited (h : d.Fresh) (expected : Expected) (token : Token) :
    Yields (d.bindDelimited expected token)
      (d.Binds expected ⟨some token.span, some token.opening, some token.closing, none, none⟩) := by
  refine (yields_nextChild d expected).bind ?_
  rintro ⟨id, next⟩ ⟨rfl, kind, hmeets⟩
  obtain ⟨hlt, hempty⟩ := h id hmeets.1
  refine .bind_ok (setNode_eq hempty rfl) ?_
  refine .bind_ok (setNode_fill (d := d.advance) hlt rfl) ?_
  exact .of_eq_ok (setNode_fill (d := d.advance) hlt rfl) ⟨id, kind, hmeets, rfl⟩

theorem yields_bindDoctype (h : d.Fresh) (token : Token) :
    Yields (d.bindDoctype token)
      (d.Binds .doctype ⟨some token.span, none, none, none, none⟩) := by
  refine (yields_nextChild d .doctype).bind ?_
  rintro ⟨id, next⟩ ⟨rfl, kind, hmeets⟩
  exact .of_eq_ok (setNode_eq (h id hmeets.1).2 rfl) ⟨id, kind, hmeets, rfl⟩

/-! ## Elements -/

end Binder

namespace AttributeLexeme

/-- The places of the parts of an attribute. -/
def places (attr : AttributeLexeme) : Ranges Span :=
  ⟨some ⟨attr.name.start, attr.value.stop⟩, none, none, some attr.name.span, some attr.value.span⟩

end AttributeLexeme

namespace TreeSpans

variable {spans : TreeSpans}

/-- Fills the slots of attributes in order. -/
def fillAttrs (spans : TreeSpans) : List AttrId → List AttributeLexeme → TreeSpans
  | id :: ids, attr :: attrs => (spans.fillAttr id attr.places).fillAttrs ids attrs
  | _, _ => spans

theorem size_fillAttrs (ids : List AttrId) (attrs : List AttributeLexeme) :
    (spans.fillAttrs ids attrs).attributes.size = spans.attributes.size := by
  fun_induction fillAttrs spans ids attrs with
  | case1 spans id ids attr attrs ih => rw [ih, fillAttr, Array.size_setIfInBounds]
  | case2 => rfl

theorem nodes_fillAttrs (ids : List AttrId) (attrs : List AttributeLexeme) :
    (spans.fillAttrs ids attrs).nodes = spans.nodes := by
  fun_induction fillAttrs spans ids attrs with
  | case1 spans id ids attr attrs ih => exact ih
  | case2 => rfl

theorem prolog_fillAttrs (ids : List AttrId) (attrs : List AttributeLexeme) :
    (spans.fillAttrs ids attrs).prolog = spans.prolog := by
  fun_induction fillAttrs spans ids attrs with
  | case1 spans id ids attr attrs ih => exact ih
  | case2 => rfl

theorem fill_fillAttrs (ids : List AttrId) (attrs : List AttributeLexeme) (id : NodeId)
    (ranges : Ranges Span) :
    (spans.fillAttrs ids attrs).fill id ranges = (spans.fill id ranges).fillAttrs ids attrs := by
  induction ids generalizing spans attrs with
  | nil => rfl
  | cons first ids ih =>
    cases attrs with
    | nil => rfl
    | cons attr attrs => exact ih attrs

theorem attrRanges_fillAttrs_of_not_mem {ids : List AttrId} {attrs : List AttributeLexeme}
    {id : AttrId} (h : id ∉ ids) (hlt : ∀ id ∈ ids, id < spans.attributes.size) :
    (spans.fillAttrs ids attrs).attrRanges id = spans.attrRanges id := by
  fun_induction fillAttrs spans ids attrs with
  | case1 spans first ids attr attrs ih =>
    have hne : id ≠ first := fun he ↦ h (he ▸ List.mem_cons_self)
    rw [ih fun hmem ↦ h (List.mem_cons_of_mem _ hmem),
      attrRanges_fillAttr _ (hlt first List.mem_cons_self), Function.update_of_ne hne]
    intro id hid
    rw [fillAttr, Array.size_setIfInBounds]
    exact hlt id (List.mem_cons_of_mem _ hid)
  | case2 => rfl

/-- Attributes that are all different get their own slots. -/
theorem forall₂_fillAttrs {ids : List AttrId} {attrs : List AttributeLexeme}
    (hlength : ids.length = attrs.length) (hnodup : ids.Nodup)
    (hlt : ∀ id ∈ ids, id < spans.attributes.size) :
    List.Forall₂ (fun id attr ↦ (spans.fillAttrs ids attrs).attrRanges id = attr.places)
      ids attrs := by
  induction ids generalizing spans attrs with
  | nil =>
    cases attrs with
    | nil => exact .nil
    | cons attr attrs => cases hlength
  | cons first ids ih =>
    cases attrs with
    | nil => cases hlength
    | cons attr attrs =>
      obtain ⟨hnot, hnodup⟩ := List.nodup_cons.1 hnodup
      have hfirst := hlt first List.mem_cons_self
      have hlt' : ∀ id ∈ ids, id < (spans.fillAttr first attr.places).attributes.size := by
        intro id hid
        rw [fillAttr, Array.size_setIfInBounds]
        exact hlt id (List.mem_cons_of_mem _ hid)
      refine .cons ?_ (ih (Nat.succ.inj hlength) hnodup hlt')
      rw [fillAttrs, attrRanges_fillAttrs_of_not_mem hnot hlt', attrRanges_fillAttr _ hfirst,
        Function.update_self]

end TreeSpans

namespace Binder

variable {d d' : Binder}

/-- The attribute that a lexeme of a tag is bound to is written like it. -/
def Names (tree : Tree) (id : AttrId) (attr : AttributeLexeme) : Prop :=
  tree.writtenAttr? id = some (String.ofList attr.name.text)

/-- Lexemes go to different attributes, each to one with its name, and in order if they can. -/
theorem yields_bindAttributes (id : NodeId) {left : List AttrId} {attrs : List AttributeLexeme}
    (hnodup : left.Nodup)
    (hleft : ∀ a ∈ left, a < d.spans.attributes.size ∧ d.spans.attrRanges a = .empty) :
    Yields (bindAttributes id d left attrs) fun d' ↦ ∃ ids others, left.Perm (ids ++ others) ∧
      List.Forall₂ (Names d.tree) ids attrs ∧
      (∀ {front back}, left = front ++ back → List.Forall₂ (Names d.tree) front attrs →
        ids = front) ∧
      d' = { d with spans := d.spans.fillAttrs ids attrs } := by
  induction attrs generalizing d left with
  | nil =>
    refine ⟨[], left, List.Perm.refl _, .nil, fun _ hfront ↦ ?_, by cases left <;> rfl⟩
    cases hfront
    rfl
  | cons attr attrs ih =>
    unfold bindAttributes
    dsimp only
    split
    · rfl
    · rename_i a hfind
      have hmem := List.mem_of_find?_eq_some hfind
      obtain ⟨hlt, hempty⟩ := hleft a hmem
      refine .bind_ok (setAttr_eq hempty rfl) ?_
      refine .bind_ok (setAttr_fill hlt rfl) ?_
      refine .bind_ok (setAttr_fill hlt rfl) ?_
      refine Yields.imp (ih (hnodup.erase a) ?_) ?_
      · intro b hb
        have hne : b ≠ a := fun he ↦ (hnodup.not_mem_erase) (he ▸ hb)
        rw [d.spans.attrRanges_fillAttr hlt, Function.update_of_ne hne, TreeSpans.fillAttr,
          Array.size_setIfInBounds]
        exact hleft b (List.mem_of_mem_erase hb)
      · rintro _ ⟨ids, others, hperm, hnames, horder, rfl⟩
        refine ⟨a :: ids, others, ?_, .cons ?_ hnames, ?_, rfl⟩
        · exact (List.perm_cons_erase hmem).trans (hperm.cons a)
        · simpa [Names] using List.find?_some hfind
        · rintro front back rfl hfront
          cases hfront with
          | @cons first _ front _ hfirst hfront =>
            -- The first attribute left has the name, so the search stops there.
            have hfirst' : (d.tree.writtenAttr? first == some (String.ofList attr.name.text)) =
                true := by simpa [Names] using hfirst
            have hhead : some first = some a := by
              rw [← hfind, List.cons_append, List.find?_cons, hfirst']
            cases hhead
            rw [List.cons_append, List.erase_cons_head] at horder
            rw [horder rfl hfront]

/-- The attributes of the next child are different and have room for their slots. -/
def FreshAttrs (d : Binder) : Prop :=
  ∀ id, d.next? = some id → (d.tree.attributesOf id).Nodup ∧
    ∀ a ∈ d.tree.attributesOf id, a < d.spans.attributes.size ∧ d.spans.attrRanges a = .empty

/-- The next child is an element that has the name and the attributes of a tag, the attributes in
the order `ids`, which is their own if the tag has them in that order. -/
structure Tagged (d : Binder) (name : Lexeme) (attrs : List AttributeLexeme) (id : NodeId)
    (ids : List AttrId) : Prop where
  meets : ∃ kind, d.Meets .element id kind
  name_eq : String.ofList name.text = ((d.tree.name? id).map (·.written)).getD ""
  perm : (d.tree.attributesOf id).Perm ids
  names : List.Forall₂ (Names d.tree) ids attrs
  in_order : List.Forall₂ (Names d.tree) (d.tree.attributesOf id) attrs →
    ids = d.tree.attributesOf id

/-- An empty tag was bound to the next child. -/
def BindsEmpty (d : Binder) (token : Token) (name : Lexeme) (attrs : List AttributeLexeme)
    (d' : Binder) : Prop :=
  ∃ id ids, d.Tagged name attrs id ids ∧
    d' = { d.advance with
      spans := (d.spans.fill id ⟨some token.span, some token.span, some token.closing,
        some name.span, none⟩).fillAttrs ids attrs }

/-- The places of the parts of an element that is open. -/
def openPlaces (opening name : Span) : Ranges Span := ⟨none, some opening, none, some name, none⟩

/-- An opening tag led into the next child. -/
def Enters (d : Binder) (token : Token) (name : Lexeme) (attrs : List AttributeLexeme)
    (d' : Binder) : Prop :=
  ∃ id ids, d.Tagged name attrs id ids ∧
    d' = { d with
      current := ⟨id, 0⟩
      outer := d.advance.current :: d.outer
      spans := (d.spans.fill id (openPlaces token.span name.span)).fillAttrs ids attrs }

theorem yields_bindOpenTag (h : d.Fresh) (hattrs : d.FreshAttrs) (token : Token) (name : Lexeme)
    (attrs : List AttributeLexeme) (selfClosing : Bool) :
    Yields (d.bindOpenTag token name attrs selfClosing) fun d' ↦
      if selfClosing then d.BindsEmpty token name attrs d' else d.Enters token name attrs d' := by
  refine (yields_nextChild d .element).bind ?_
  rintro ⟨id, next⟩ ⟨rfl, kind, hmeets⟩
  obtain ⟨hlt, hempty⟩ := h id hmeets.1
  obtain ⟨hnodup, hroom⟩ := hattrs id hmeets.1
  refine (yields_sameName d.advance name id).bind fun _ hname ↦ ?_
  refine .bind_ok (setNode_eq hempty rfl) ?_
  refine .bind_ok (setNode_fill (d := d.advance) hlt rfl) ?_
  dsimp only
  split
  · rfl
  · rename_i hlength
    refine Yields.bind (yields_bindAttributes
      (d := { d.advance with spans := d.spans.fill id _ }) id hnodup hroom) ?_
    rintro _ ⟨ids, others, hperm, hnames, horder, rfl⟩
    -- The tag has as many attributes as the element, so none is left over.
    have hothers : others = [] := by
      have h₁ := hperm.length_eq
      have h₂ := hnames.length_eq
      rw [List.length_append] at h₁
      have h₃ : (d.tree.attributesOf id).length = attrs.length := not_not.1 hlength
      exact List.length_eq_zero_iff.1 (by omega)
    rw [hothers, List.append_nil] at hperm
    have htagged : d.Tagged name attrs id ids :=
      ⟨⟨kind, hmeets⟩, hname, hperm, hnames, horder (List.append_nil _).symm⟩
    cases selfClosing with
    | true =>
      -- The last slots of the element are filled after its attributes, which comes to the same.
      rw [← TreeSpans.fill_fillAttrs]
      let base : Binder := { d.advance with spans := d.spans.fillAttrs ids attrs }
      have hbase : id < base.spans.nodes.size := by
        rw [TreeSpans.nodes_fillAttrs]
        exact hlt
      refine .bind_ok (setNode_fill hbase rfl) ?_
      refine .of_eq_ok (setNode_fill hbase rfl) ⟨id, ids, htagged, ?_⟩
      rw [← TreeSpans.fill_fillAttrs]
      rfl
    | false => exact ⟨id, ids, htagged, rfl⟩

/-- The places of the parts of an element that has a closing tag. -/
def closedPlaces (opening closing name : Span) : Ranges Span :=
  ⟨some ⟨opening.start, closing.stop⟩, some opening, some closing, some name, none⟩

/-- The node that the cursor stands in is open. -/
def Open (d : Binder) : Prop :=
  d.current.node < d.spans.nodes.size ∧
    ∃ opening name, d.spans.ranges d.current.node = openPlaces opening name

/-- A closing tag led out of a node. -/
def Leaves (d : Binder) (token : Token) (written : Lexeme) (d' : Binder) : Prop :=
  ∃ visit outer opening name, d.outer = visit :: outer ∧
    d.spans.ranges d.current.node = openPlaces opening name ∧
    d.current.visited = (d.tree.children d.current.node).length ∧
    String.ofList written.text = ((d.tree.name? d.current.node).map (·.written)).getD "" ∧
    d' = { d with
      current := visit
      outer
      spans := d.spans.fill d.current.node (closedPlaces opening token.span name) }

theorem yields_bindCloseTag (h : d.outer ≠ [] → d.Open) (token : Token) (written : Lexeme) :
    Yields (d.bindCloseTag token written) (d.Leaves token written) := by
  unfold bindCloseTag
  split
  · rfl
  · rename_i visit outer houter
    obtain ⟨hlt, opening, name, hranges⟩ := h (by simp [houter])
    refine (yields_allVisited d d.current).bind fun _ hvisited ↦ ?_
    refine (yields_sameName d written d.current.node).bind fun _ hname ↦ ?_
    rw [show d.spans.nodes.getD d.current.node .empty = _ from hranges]
    dsimp only [openPlaces]
    refine .bind_ok (setNode_eq (d := { d with current := visit, outer }) hranges rfl) ?_
    exact .of_eq_ok (setNode_fill (d := { d with current := visit, outer }) hlt rfl)
      ⟨visit, outer, opening, name, houter, hranges, hvisited, hname, rfl⟩

/-! ## Any token -/

/-- A declaration came first. -/
def Declares (d : Binder) (token : Token) (attributes : List AttributeLexeme) (d' : Binder) :
    Prop :=
  token.start = 0 ∧ d.spans.prolog = none ∧
    d' = { d with spans := { d.spans with
      prolog := some ⟨token.span, token.opening, token.closing, attributes⟩ } }

theorem yields_bindDeclaration (d : Binder) (token : Token) (attributes : List AttributeLexeme) :
    Yields (d.bindDeclaration token attributes) (d.Declares token attributes) := by
  unfold bindDeclaration
  split
  · rfl
  · rename_i h
    simp only [not_or, not_not, Option.isSome_iff_ne_none] at h
    exact ⟨h.1, h.2, rfl⟩

/-- What a token other than text does. -/
def Takes (d : Binder) (token : Token) (d' : Binder) : Prop :=
  match token.form with
  | .text => False
  | .declaration attributes => d.Declares token attributes d'
  | .instruction => d' = d
  | .doctype => d.Binds .doctype ⟨some token.span, none, none, none, none⟩ d'
  | .comment =>
    d.Binds .comment ⟨some token.span, some token.opening, some token.closing, none, none⟩ d'
  | .cdata =>
    d.Binds .cdata ⟨some token.span, some token.opening, some token.closing, none, none⟩ d'
  | .openTag name attributes true => d.BindsEmpty token name attributes d'
  | .openTag name attributes false => d.Enters token name attributes d'
  | .closeTag name => d.Leaves token name d'

/-- Every token needs room for what it binds. -/
structure Ready (d : Binder) : Prop where
  fresh : d.Fresh
  freshAttrs : d.FreshAttrs
  isOpen : d.outer ≠ [] → d.Open

theorem flush_of_pending_eq_none (h : d.pending = none) : d.flush = .ok d := by
  unfold flush
  rw [h]

/-- Binding the text before a token first does not change what the token does. -/
theorem take_of_flush {last : Binder} (hflush : d.flush = .ok last) (hpending : last.pending = none)
    {token : Token} (hform : token.form ≠ .text) : d.take token = last.take token := by
  have hflush' := flush_of_pending_eq_none hpending
  unfold take
  rw [hflush, hflush']
  split
  · exact absurd ‹_› hform
  all_goals rfl

/-- Replaying a token other than text, once the text before it is bound. -/
theorem yields_take (hpending : d.pending = none) (h : d.Ready) {token : Token}
    (hform : token.form ≠ .text) : Yields (d.take token) (d.Takes token) := by
  have hflush := flush_of_pending_eq_none hpending
  unfold take Takes
  cases hform' : token.form with
  | text => exact absurd hform' hform
  | declaration attributes => exact .bind_ok hflush (yields_bindDeclaration d token attributes)
  | instruction => exact .of_eq_ok hflush rfl
  | doctype => exact .bind_ok hflush (yields_bindDoctype h.fresh token)
  | comment => exact .bind_ok hflush (yields_bindDelimited h.fresh .comment token)
  | cdata => exact .bind_ok hflush (yields_bindDelimited h.fresh .cdata token)
  | openTag name attributes selfClosing =>
    refine .bind_ok hflush (Yields.imp
      (yields_bindOpenTag h.fresh h.freshAttrs token name attributes selfClosing) ?_)
    intro d' hd'
    cases selfClosing with
    | true => simpa using hd'
    | false => simpa using hd'
  | closeTag name => exact .bind_ok hflush (yields_bindCloseTag h.isOpen token name)

/-! ## Text

A run of text is bound when it is over. As long as it lasts, the state is the one from before the
run with the node of the run put aside, so a property of states without a pending run is all that
has to be known. -/

/-- A property of states that await no text, carried through a run of text. -/
def Holds (text : List Char) (P : Binder → Nat → Prop) (d : Binder) (offset : Nat) : Prop :=
  (d.pending = none ∧ P d offset) ∨
    ∃ base id kind start, base.pending = none ∧ P base start ∧ base.Meets .text id kind ∧
      Token.TextRun text start offset ∧
      d = { base.advance with pending := some (id, ⟨start, offset⟩) }

/-- What makes a property of states an invariant of the replay of some tokens of a text. -/
structure Invariant (tokens : List Token) (text : List Char) (P : Binder → Nat → Prop) : Prop where
  ready : ∀ {d offset}, P d offset → d.Ready
  bindsText : ∀ {d d' start stop}, P d start → Token.TextRun text start stop →
    Token.EndsText text stop →
    d.Binds .text ⟨some ⟨start, stop⟩, none, none, none, none⟩ d' → P d' stop
  takes : ∀ {d d' token}, P d token.start → token ∈ tokens → token.Scanned text →
    d.Takes token d' → P d' token.stop

theorem pending_of_takes {token : Token} (h : d.Takes token d') : d'.pending = d.pending := by
  unfold Takes at h
  split at h
  · cases h
  · obtain ⟨-, -, rfl⟩ := h
    rfl
  · rw [h]
  · obtain ⟨id, kind, -, rfl⟩ := h
    rfl
  · obtain ⟨id, kind, -, rfl⟩ := h
    rfl
  · obtain ⟨id, kind, -, rfl⟩ := h
    rfl
  · obtain ⟨id, ids, -, rfl⟩ := h
    rfl
  · obtain ⟨id, ids, -, rfl⟩ := h
    rfl
  · obtain ⟨visit, outer, opening, name, -, -, -, -, rfl⟩ := h
    rfl

namespace Invariant

variable {tokens : List Token} {text : List Char} {P : Binder → Nat → Prop} {token : Token}
  {offset : Nat}

theorem flush (hP : Invariant tokens text P) (h : Holds text P d offset)
    (hends : Token.EndsText text offset) :
    Yields d.flush fun d' ↦ d'.pending = none ∧ P d' offset := by
  rcases h with ⟨hpending, h⟩ | ⟨base, id, kind, start, hpending, h, hmeets, hrun, rfl⟩
  · exact .of_eq_ok (flush_of_pending_eq_none hpending) ⟨hpending, h⟩
  · -- The node of the run was put aside when it began, so it is bound as it would have been then.
    have hbase : { base.advance with pending := none } = base.advance := by
      rw [← hpending]
      rfl
    have hset : base.advance.setNode id .whole ⟨start, offset⟩ = .ok _ :=
      setNode_eq ((hP.ready h).fresh id hmeets.1).2 rfl
    refine Yields.of_eq_ok ((congrArg (Binder.setNode · id .whole _) hbase).trans hset)
      ⟨hpending, ?_⟩
    exact hP.bindsText h hrun hends ⟨id, kind, hmeets, rfl⟩

theorem bindText (h : Holds text P d token.start) (htoken : token.Scanned text)
    (hform : token.form = .text) :
    Yields (d.bindText token.span) fun d' ↦ Holds text P d' token.stop := by
  unfold Binder.bindText
  rcases h with ⟨hpending, h⟩ | ⟨base, id, kind, start, hpending, h, hmeets, hrun, rfl⟩
  · rw [hpending]
    refine (yields_nextChild d .text).bind ?_
    rintro ⟨id, next⟩ ⟨rfl, kind, hmeets⟩
    exact Or.inr ⟨d, id, kind, token.start, hpending, h, hmeets, .single htoken hform, rfl⟩
  · exact Or.inr ⟨base, id, kind, start, hpending, h, hmeets, hrun.concat htoken hform, rfl⟩

/-- One token keeps an invariant. -/
theorem take (hP : Invariant tokens text P) (h : Holds text P d token.start) (hmem : token ∈ tokens)
    (htoken : token.Scanned text) : Yields (d.take token) fun d' ↦ Holds text P d' token.stop := by
  by_cases hform : token.form = .text
  · have htake : d.take token = d.bindText token.span := by
      unfold Binder.take
      rw [hform]
    rw [htake]
    exact bindText h htoken hform
  · have hflush := hP.flush h (Token.endsText_of_scanned htoken hform)
    cases hlast : d.flush with
    | error fault =>
      have htake : d.take token = .error fault := by
        unfold Binder.take
        rw [hlast]
        split
        · exact absurd ‹_› hform
        all_goals rfl
      rw [htake]
      exact hflush.not_isTwice hlast
    | ok last =>
      obtain ⟨hpending, hlastP⟩ := hflush.elim hlast
      rw [take_of_flush hlast hpending hform]
      refine (yields_take hpending (hP.ready hlastP) hform).imp fun d' htakes ↦ ?_
      exact Or.inl ⟨(pending_of_takes htakes).trans hpending, hP.takes hlastP hmem htoken htakes⟩

/-- A run of tokens keeps an invariant. -/
theorem foldlM (hP : Invariant tokens text P) {run : List Token}
    (hmem : ∀ token ∈ run, token ∈ tokens) (hchained : Token.Chained text offset run)
    (h : Holds text P d offset) :
    Yields (run.foldlM Binder.take d) fun d' ↦ Holds text P d' (Token.stopAfter offset run) := by
  induction run generalizing d offset with
  | nil => exact h
  | cons token run ih =>
    obtain ⟨rfl, htoken, hrest⟩ := hchained
    rw [List.foldlM_cons]
    refine (hP.take h (hmem token List.mem_cons_self) htoken).bind fun d' hd' ↦ ?_
    exact ih (fun token htoken ↦ hmem token (List.mem_cons_of_mem _ htoken)) hrest hd'

end Invariant

/-! ## The end -/

/-- From the first to the last part of the document. -/
def rootSpan? (d : Binder) : Option Span :=
  let whole (id : Option NodeId) : Option Span := id.bind fun id ↦ (d.spans.ranges id).whole
  let children := d.tree.children Tree.root
  match (d.spans.prolog.map (·.opening)).or (whole children.head?),
    (whole children.getLast?).or (d.spans.prolog.map (·.closing)) with
  | some first, some last => some ⟨first.start, last.stop⟩
  | _, _ => none

/-- The replay ends with all children of the document found, and the document is bound. -/
structure Finishes (d : Binder) (spans : TreeSpans) : Prop where
  outer : d.outer = []
  visited : d.current.visited = (d.tree.children d.current.node).length
  spans_eq : ∃ whole, d.rootSpan? = some whole ∧
    spans = d.spans.fill Tree.root ⟨some whole, none, none, none, none⟩

theorem yields_bindRoot (h : d.spans.ranges Tree.root = .empty) :
    Yields d.bindRoot fun d' ↦ ∃ whole, d.rootSpan? = some whole ∧
      d' = { d with spans := d.spans.fill Tree.root ⟨some whole, none, none, none, none⟩ } := by
  unfold bindRoot rootSpan?
  dsimp only
  split
  · rename_i first last hfirst hlast
    refine .of_eq_ok (setNode_eq h rfl) ⟨⟨first.start, last.stop⟩, ?_, rfl⟩
    simp only [TreeSpans.ranges, hfirst, hlast]
  · rfl

theorem Invariant.finish {tokens : List Token} {text : List Char} {P : Binder → Nat → Prop}
    {offset : Nat} (hP : Invariant tokens text P)
    (hroot : ∀ {d}, P d offset → d.spans.ranges Tree.root = .empty) (h : Holds text P d offset)
    (hends : Token.EndsText text offset) :
    Yields d.finish fun spans ↦ ∃ last, P last offset ∧ last.Finishes spans := by
  refine (hP.flush h hends).bind ?_
  rintro last ⟨-, hlast⟩
  split
  · rfl
  · rename_i houter
    refine (yields_allVisited last last.current).bind fun _ hvisited ↦ ?_
    refine (yields_bindRoot (hroot hlast)).bind ?_
    rintro _ ⟨whole, hwhole, rfl⟩
    exact ⟨last, hlast, houter, hvisited, whole, hwhole, rfl⟩

end Binder

namespace Document

variable {tree : Tree} {body : List Char} {spans : TreeSpans} {P : Binder → Nat → Prop}

/-- A replay that gets to its end has seen the whole text. -/
theorem bind_eq_ok (h : Document.bind tree body = .ok spans) :
    (Token.scan body).2 = none ∧
      ∃ d, (Token.scan body).1.foldlM Binder.take (Binder.initial tree) = .ok d ∧
        d.finish = .ok spans := by
  unfold Document.bind at h
  dsimp only at h
  obtain ⟨d, hrun, h⟩ := bind_eq_ok_iff.1 h
  split at h
  · cases h
  · rename_i hfault
    exact ⟨hfault, d, mapError_eq_ok_iff.1 hrun, mapError_eq_ok_iff.1 h⟩

/-- An invariant holds at the end of every replay that gets there. -/
theorem exists_last_of_bind (hP : Binder.Invariant (Token.scan body).1 body P)
    (hroot : ∀ {d offset}, P d offset → d.spans.ranges Tree.root = .empty)
    (hinitial : P (Binder.initial tree) 0) (h : Document.bind tree body = .ok spans) :
    ∃ last, P last (Text.byteSize body) ∧ last.Finishes spans := by
  obtain ⟨hfault, d, hrun, hfinish⟩ := bind_eq_ok h
  have hd := (hP.foldlM (fun _ h ↦ h) (Token.chained_of_scan body)
    (Or.inl ⟨rfl, hinitial⟩)).elim hrun
  rw [Token.stopAfter_of_scan hfault] at hd
  exact (hP.finish hroot hd (Token.endsText_byteSize body)).elim hfinish

/-- No slot is filled twice, whatever becomes of the replay. -/
theorem not_isTwice_of_bind {fault : Mismatch} (hP : Binder.Invariant (Token.scan body).1 body P)
    (hroot : ∀ {d offset}, P d offset → d.spans.ranges Tree.root = .empty)
    (hinitial : P (Binder.initial tree) 0)
    (h : Document.bind tree body = .error (.mismatch fault)) : fault.isTwice = false := by
  have hrun := hP.foldlM (fun _ h ↦ h) (Token.chained_of_scan body) (Or.inl ⟨rfl, hinitial⟩)
  unfold Document.bind at h
  dsimp only at h
  cases hd : (Token.scan body).1.foldlM Binder.take (Binder.initial tree) with
  | error fault' =>
    rw [hd] at h
    cases h
    exact hrun.not_isTwice hd
  | ok d =>
    rw [hd] at h
    have hholds := hrun.elim hd
    split at h
    · cases h
    · rename_i hfault
      rw [Token.stopAfter_of_scan hfault] at hholds
      replace h : d.finish.mapError InternalFault.mismatch = .error (.mismatch fault) := h
      cases hfinish : d.finish with
      | error fault' =>
        rw [hfinish] at h
        cases h
        exact (hP.finish hroot hholds (Token.endsText_byteSize body)).not_isTwice hfinish
      | ok spans =>
        rw [hfinish] at h
        cases h

end Document

end XmlInspect
