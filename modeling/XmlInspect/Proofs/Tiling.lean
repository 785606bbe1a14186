import XmlInspect.Proofs.Slots

/-!
# How spans lie next to each other

The nodes of a tree leave out only one thing that stands in a text, its processing instructions. So
the spans of the children of a node follow each other with nothing but instructions between them,
from the opening tag to the closing tag of an element and from one end of the text to the other for
the document.

This holds of any tree that a text is replayed against, whether or not it is the tree of the text.
-/

namespace XmlInspect

/-! ## Tiles and gaps -/

/-- Some stretches lie next to each other between two places, up to gaps of a kind. -/
def Tiles {ρ α : Type} (first last : ρ → α) (gap : α → α → Prop) : α → List ρ → α → Prop
  | start, [], stop => gap start stop
  | start, tile :: tiles, stop =>
    gap start (first tile) ∧ Tiles first last gap (last tile) tiles stop

namespace Tiles

variable {ρ σ α β : Type} {first last : ρ → α} {gap : α → α → Prop} {start stop stop' : α}
  {tile : ρ} {tiles : List ρ}

/-- The last gap may grow. -/
theorem extend (h : Tiles first last gap start tiles stop)
    (hgap : ∀ {a}, gap a stop → gap a stop') : Tiles first last gap start tiles stop' := by
  induction tiles generalizing start with
  | nil => exact hgap h
  | cons tile tiles ih => exact ⟨h.1, ih h.2⟩

theorem concat (h : Tiles first last gap start tiles (first tile)) (hgap : gap (last tile) stop) :
    Tiles first last gap start (tiles ++ [tile]) stop := by
  induction tiles generalizing start with
  | nil => exact ⟨h, hgap⟩
  | cons tile tiles ih => exact ⟨h.1, ih h.2⟩

theorem map {first' last' : σ → β} {gap' : β → β → Prop} {f : α → β} {tiles' : List σ}
    (h : Tiles first last gap start tiles stop)
    (htiles : List.Forall₂ (fun tile tile' ↦ first' tile' = f (first tile) ∧
      last' tile' = f (last tile)) tiles tiles')
    (hgap : ∀ {a b}, gap a b → gap' (f a) (f b)) :
    Tiles first' last' gap' (f start) tiles' (f stop) := by
  induction htiles generalizing start with
  | nil => exact hgap h
  | @cons tile tile' _ _ heq _ ih =>
    refine ⟨?_, ?_⟩
    · rw [heq.1]
      exact hgap h.1
    · rw [heq.2]
      exact ih h.2

end Tiles

/-- Nothing but instructions stands between two offsets. -/
def Gap (tokens : List Token) (text : List Char) (start stop : Nat) : Prop :=
  ∃ parts : List Token, (∀ part ∈ parts, part ∈ tokens ∧ part.form = .instruction ∧
    Text.isInstruction part.raw = true) ∧ Text.Stands text start stop (parts.flatMap (·.raw))

namespace Gap

variable {tokens : List Token} {text chars : List Char} {start stop : Nat} {token : Token}

theorem of_divides {i : Nat} (h : Text.Divides text i) : Gap tokens text i i := by
  obtain ⟨before, after, rfl, hi⟩ := h
  exact ⟨[], by simp, before, after, by simp, hi, rfl⟩

/-- There is no gap at the end of a token. -/
theorem of_stands (h : Text.Stands text start stop chars) : Gap tokens text stop stop :=
  of_divides h.divides.2

theorem zero (tokens : List Token) (text : List Char) : Gap tokens text 0 0 :=
  ⟨[], by simp, [], text, rfl, rfl, rfl⟩

theorem concat (h : Gap tokens text start token.start) (hmem : token ∈ tokens)
    (hform : token.form = .instruction) (hraw : Text.isInstruction token.raw = true)
    (hstands : Text.Stands text token.start token.stop token.raw) :
    Gap tokens text start token.stop := by
  obtain ⟨parts, hparts, hgap⟩ := h
  refine ⟨parts ++ [token], ?_, ?_⟩
  · intro part hpart
    rcases List.mem_append.1 hpart with hpart | hpart
    · exact hparts part hpart
    · rw [List.mem_singleton.1 hpart]
      exact ⟨hmem, hform, hraw⟩
  · rw [List.flatMap_append, List.flatMap_singleton]
    exact hgap.append hstands

end Gap

namespace TreeSpans

variable {tree : Tree} {spans spans' : TreeSpans} {gap : Nat → Nat → Prop} {id : NodeId}
  {k start stop stop' : Nat}

/-- The first children of a node lie next to each other. -/
def Tiled (spans : TreeSpans) (gap : Nat → Nat → Prop) (tree : Tree) (id : NodeId)
    (k start stop : Nat) : Prop :=
  ∃ tiles, List.Forall₂ (fun child span ↦ (spans.ranges child).whole = some span)
    ((tree.children id).take k) tiles ∧ Tiles Span.start Span.stop gap start tiles stop

namespace Tiled

theorem grow (h : spans.Tiled gap tree id k start stop) (hgrows : spans.Grows spans') :
    spans'.Tiled gap tree id k start stop := by
  obtain ⟨tiles, hwhole, htiles⟩ := h
  exact ⟨tiles, hwhole.imp fun child span ↦ hgrows.node child .whole span, htiles⟩

theorem extend (h : spans.Tiled gap tree id k start stop) (hgap : ∀ {a}, gap a stop → gap a stop') :
    spans.Tiled gap tree id k start stop' := by
  obtain ⟨tiles, hwhole, htiles⟩ := h
  exact ⟨tiles, hwhole, htiles.extend hgap⟩

theorem concat {child : NodeId} {span : Span} (h : spans.Tiled gap tree id k start span.start)
    (hchild : (tree.children id)[k]? = some child)
    (hspan : (spans.ranges child).whole = some span) (hgap : gap span.stop span.stop) :
    spans.Tiled gap tree id (k + 1) start span.stop := by
  obtain ⟨tiles, hwhole, htiles⟩ := h
  refine ⟨tiles ++ [span], ?_, htiles.concat hgap⟩
  rw [List.take_add_one, hchild]
  exact List.rel_append hwhole (.cons hspan .nil)

end Tiled

/-- The children found so far lie next to each other in every node around the cursor. The innermost
node has `k` children up to `stop`; in all others the last child found is the next node inwards, and
the ones before it end where that starts. -/
def Nested (spans : TreeSpans) (gap : Nat → Nat → Prop) (tree : Tree) :
    List Visit → Nat → Nat → Prop
  | [], _, _ => True
  | [visit], k, stop =>
    spans.Tiled gap tree visit.node k ((spans.prolog.map (·.whole.stop)).getD 0) stop
  | visit :: outer :: rest, k, stop => ∃ opening, (spans.ranges visit.node).opening = some opening ∧
    spans.Tiled gap tree visit.node k opening.stop stop ∧
    spans.Nested gap tree (outer :: rest) (outer.visited - 1) opening.start

namespace Nested

variable {visits : List Visit}

theorem grow (h : spans.Nested gap tree visits k stop) (hgrows : spans.Grows spans')
    (hprolog : spans'.prolog = spans.prolog) : spans'.Nested gap tree visits k stop := by
  induction visits generalizing k stop with
  | nil => trivial
  | cons visit outer ih =>
    cases outer with
    | nil =>
      rw [Nested, hprolog]
      exact Tiled.grow h hgrows
    | cons next rest =>
      obtain ⟨opening, hopening, htiled, hrest⟩ := h
      exact ⟨opening, hgrows.node visit.node .opening opening hopening, htiled.grow hgrows,
        ih hrest⟩

theorem extend (h : spans.Nested gap tree visits k stop) (hgap : ∀ {a}, gap a stop → gap a stop') :
    spans.Nested gap tree visits k stop' := by
  match visits with
  | [] => trivial
  | [visit] => exact Tiled.extend h hgap
  | visit :: outer :: rest =>
    obtain ⟨opening, hopening, htiled, hrest⟩ := h
    exact ⟨opening, hopening, htiled.extend hgap, hrest⟩

theorem head {visit visit' : Visit} {outer : List Visit}
    (h : spans.Nested gap tree (visit :: outer) k stop) (hnode : visit'.node = visit.node) :
    spans.Nested gap tree (visit' :: outer) k stop := by
  cases outer with
  | nil =>
    rw [Nested, hnode]
    exact h
  | cons next outer =>
    rw [Nested, hnode]
    exact h

theorem concat {visit : Visit} {outer : List Visit} {child : NodeId} (span : Span)
    (h : spans.Nested gap tree (visit :: outer) k span.start)
    (hchild : (tree.children visit.node)[k]? = some child)
    (hspan : (spans.ranges child).whole = some span) (hgap : gap span.stop span.stop) :
    spans.Nested gap tree (visit :: outer) (k + 1) span.stop := by
  cases outer with
  | nil => exact Tiled.concat h hchild hspan hgap
  | cons next outer =>
    obtain ⟨opening, hopening, htiled, hrest⟩ := h
    exact ⟨opening, hopening, htiled.concat hchild hspan hgap, hrest⟩

end Nested

/-- An element with an empty tag, which is all there is of it. -/
def IsEmptyTag (spans : TreeSpans) (text : List Char) (id : NodeId) : Prop :=
  ∃ whole closing, (spans.ranges id).whole = some whole ∧ (spans.ranges id).opening = some whole ∧
    (spans.ranges id).closing = some closing ∧ closing.stop = whole.stop ∧
    ∃ front, Text.Stands text whole.start closing.start front ∧
      Text.Stands text closing.start closing.stop "/>".toList

/-- An element that goes from an opening tag to a closing tag, with its children in between. -/
def IsTagPair (spans : TreeSpans) (gap : Nat → Nat → Prop) (text : List Char) (tree : Tree)
    (id : NodeId) (name : QName) : Prop :=
  ∃ opening closing blanks, (spans.ranges id).opening = some opening ∧
    (spans.ranges id).closing = some closing ∧
    (spans.ranges id).whole = some ⟨opening.start, closing.stop⟩ ∧
    spans.Tiled gap tree id (tree.children id).length opening.stop closing.start ∧
    (∀ c ∈ blanks, Text.isAsciiBlank c = true) ∧
    Text.Stands text closing.start closing.stop
      ("</".toList ++ name.written.toList ++ blanks ++ ">".toList)

/-- What the scan takes for a document type declaration. -/
def IsDoctype (spans : TreeSpans) (text : List Char) (id : NodeId) : Prop :=
  ∃ token : Token, token.Scanned text ∧ token.form = .doctype ∧
    (spans.ranges id).whole = some token.span

/-- How a node of a kind stands in a text. -/
def Placed (spans : TreeSpans) (gap : Nat → Nat → Prop) (text : List Char) (tree : Tree)
    (id : NodeId) : NodeKind → Prop
  | .element name _ => spans.IsEmptyTag text id ∨ spans.IsTagPair gap text tree id name
  | .doctype _ _ => spans.IsDoctype text id
  | _ => True

theorem Placed.grow {text : List Char} {kind : NodeKind}
    (h : spans.Placed gap text tree id kind) (hgrows : spans.Grows spans') :
    spans'.Placed gap text tree id kind := by
  cases kind with
  | element name attrs =>
    rcases h with ⟨whole, closing, hwhole, hopening, hclosing, hrest⟩ |
      ⟨opening, closing, blanks, hopening, hclosing, hwhole, htiled, hrest⟩
    · exact Or.inl ⟨whole, closing, hgrows.node id .whole _ hwhole,
        hgrows.node id .opening _ hopening, hgrows.node id .closing _ hclosing, hrest⟩
    · exact Or.inr ⟨opening, closing, blanks, hgrows.node id .opening _ hopening,
        hgrows.node id .closing _ hclosing, hgrows.node id .whole _ hwhole, htiled.grow hgrows,
        hrest⟩
  | doctype name raw =>
    obtain ⟨token, htoken, hform, hwhole⟩ := h
    exact ⟨token, htoken, hform, hgrows.node id .whole _ hwhole⟩
  | _ => trivial

end TreeSpans

namespace Binder

variable {tree : Tree} {tokens : List Token} {text : List Char} {d d' : Binder}
  {offset : Nat}

/-- What is known of how spans lie when the cursor stands at an offset and awaits no text. -/
structure Tiled (tree : Tree) (tokens : List Token) (text : List Char) (d : Binder)
    (offset : Nat) : Prop extends Filled tree d offset where
  nested : d.spans.Nested (Gap tokens text) tree (d.current :: d.outer)
    d.current.visited offset
  boundary : Gap tokens text offset offset
  /-- Nodes that were left are in place. -/
  placed : ∀ {id kind}, tree.kind? id = some kind → id ∉ d.path → d.spans.ranges id ≠ .empty →
    d.spans.Placed (Gap tokens text) text tree id kind
  prolog : ∀ {prolog}, d.spans.prolog = some prolog →
    prolog.whole.start = 0 ∧ prolog.opening.start = 0 ∧ prolog.closing.stop = prolog.whole.stop
  early : offset = 0 → d.current.visited = 0 ∧ d.outer = [] ∧ d.spans.prolog = none

theorem tiled_initial (tree : Tree) (tokens : List Token) (text : List Char) :
    Tiled tree tokens text (initial tree) 0 where
  __ := filled_initial tree
  nested := ⟨[], by simp [initial], Gap.zero tokens text⟩
  boundary := Gap.zero tokens text
  placed _ _ hne := absurd (ranges_initial tree _) hne
  prolog h := by cases h
  early _ := ⟨rfl, rfl, rfl⟩

variable {id : NodeId} {ranges : Ranges Span} {spans : TreeSpans} {start stop : Nat}

namespace Tiled

/-- The next child got all its slots at once. -/
theorem bound (h : Tiled tree tokens text d start) (hlinked : tree.Linked) (howned : tree.Owned)
    (hfilled : Filled tree { d.advance with spans } stop) (hnext : d.next? = some id)
    (hfills : Fills tree d.spans id ranges spans) (hprolog : spans.prolog = d.spans.prolog)
    (hwhole : ranges.whole = some ⟨start, stop⟩) (hlt : start < stop)
    (hboundary : Gap tokens text stop stop)
    (hplaced : ∀ {kind}, tree.kind? id = some kind →
      spans.Placed (Gap tokens text) text tree id kind) :
    Tiled tree tokens text { d.advance with spans } stop := by
  have hgrows := h.grows_of_fills hlinked howned hnext hfills
  refine ⟨hfilled, ?_, hboundary, ?_, ?_, ?_⟩
  · have hspan : (spans.ranges id).whole = some ⟨start, stop⟩ := by
      rw [hfills.ranges_self]
      exact hwhole
    exact ((h.nested.grow hgrows hprolog).concat ⟨start, stop⟩ (h.getElem?_children hnext) hspan
      hboundary).head rfl
  · intro x kind hx hpath hne
    by_cases hxid : x = id
    · subst hxid
      exact hplaced hx
    · refine (h.placed hx hpath ?_).grow hgrows
      rw [← hfills.ranges_of_ne hxid]
      exact hne
  · intro prolog hp
    exact h.prolog (hprolog ▸ hp)
  · intro hzero
    omega

theorem binds {expected : Expected} (h : Tiled tree tokens text d start) (hlinked : tree.Linked)
    (howned : tree.Owned) (hexpected : expected ≠ .element) (hhas : ranges.Has expected.slots)
    (hwhole : ranges.whole = some ⟨start, stop⟩) (hlt : start < stop)
    (hboundary : Gap tokens text stop stop)
    (hdoctype : expected = .doctype → ∃ token : Token, token.Scanned text ∧
      token.form = .doctype ∧ ranges.whole = some token.span)
    (hbinds : d.Binds expected ranges d') : Tiled tree tokens text d' stop := by
  have hfilled := (h.mono (Nat.le_of_lt hlt)).binds hlinked howned hexpected hhas hbinds
  obtain ⟨id, kind, hmeets, rfl⟩ := hbinds
  have hfills : Fills tree d.spans id ranges _ :=
    (h.fills_of_meets hlinked howned hexpected hmeets).2
  refine h.bound hlinked howned hfilled hmeets.1 hfills rfl hwhole hlt hboundary
    fun {kind'} hkind ↦ ?_
  have hkind' := hmeets.2.1
  rw [h.tree_eq, hkind] at hkind'
  cases hkind'
  cases kind with
  | element name attrs => exact absurd hkind (h.not_isElement hexpected hmeets _ _)
  | doctype name raw =>
    have haccepts := hmeets.2.2
    obtain ⟨token, htoken, hform, hspan⟩ :=
      hdoctype (by cases expected <;> first | rfl | cases haccepts)
    refine ⟨token, htoken, hform, ?_⟩
    rw [hfills.ranges_self]
    exact hspan
  | _ => trivial

/-- The slash at the end of an empty tag. -/
theorem exists_stands_closing {token : Token} {name : Lexeme} {attrs : List AttributeLexeme}
    (htoken : token.Scanned text) (hform : token.form = .openTag name attrs true) :
    ∃ front, Text.Stands text token.start token.closing.start front ∧
      Text.Stands text token.closing.start token.closing.stop "/>".toList := by
  have hfits := htoken.fits
  have hstands := htoken.stands
  unfold Token.Fits at hfits
  rw [hform] at hfits
  obtain ⟨-, ⟨front, hfront⟩, -⟩ := hfits
  have hstop := hstands.stop_eq
  rw [hfront, ← List.append_assoc] at hstands hstop
  have hclosing :
      token.closing.start = token.start + Text.byteSize ('<' :: name.text ++ front) := by
    have hsize : Text.byteSize (Cursor.tagStop true) = 2 := rfl
    rw [Text.byteSize_append, hsize] at hstop
    unfold Token.closing Token.closingSize
    rw [hform]
    dsimp only
    omega
  rw [hclosing]
  exact ⟨_, hstands.left, hstands.right⟩

theorem bindsEmpty {token : Token} {name : Lexeme} {attrs : List AttributeLexeme}
    (h : Tiled tree tokens text d token.start) (hlinked : tree.Linked) (howned : tree.Owned)
    (htoken : token.Scanned text) (hform : token.form = .openTag name attrs true)
    (hbinds : d.BindsEmpty token name attrs d') : Tiled tree tokens text d' token.stop := by
  have hlt := htoken.start_lt_stop
  have hfilled := (h.mono (Nat.le_of_lt hlt)).bindsEmpty hlinked howned hbinds
  obtain ⟨id, ids, htagged, rfl⟩ := hbinds
  obtain ⟨kind, hmeets⟩ := htagged.meets
  have hfills := h.fills_of_tagged hlinked howned htagged ⟨some token.span, some token.span,
    some token.closing, some name.span, none⟩
  refine h.bound hlinked howned hfilled hmeets.1 hfills (TreeSpans.prolog_fillAttrs _ _) rfl hlt
    (Gap.of_stands htoken.stands) fun {kind'} hkind ↦ ?_
  obtain ⟨-, hkind', haccepts⟩ := hmeets
  rw [h.tree_eq, hkind] at hkind'
  cases hkind'
  cases kind with
  | element qname attrs' =>
    refine Or.inl ⟨token.span, token.closing, ?_, ?_, ?_, rfl, exists_stands_closing htoken hform⟩
    all_goals rw [hfills.ranges_self]
  | _ => cases haccepts

theorem enters {token : Token} {name : Lexeme} {attrs : List AttributeLexeme}
    (h : Tiled tree tokens text d token.start) (hlinked : tree.Linked) (howned : tree.Owned)
    (htoken : token.Scanned text) (henters : d.Enters token name attrs d') :
    Tiled tree tokens text d' token.stop := by
  have hlt := htoken.start_lt_stop
  have hfilled := (h.mono (Nat.le_of_lt hlt)).enters hlinked howned (Nat.le_refl _) henters
  obtain ⟨id, ids, htagged, rfl⟩ := henters
  obtain ⟨kind, hmeets⟩ := htagged.meets
  have hfills := h.fills_of_tagged hlinked howned htagged (openPlaces token.span name.span)
  have hgrows := h.grows_of_fills hlinked howned hmeets.1 hfills
  have hboundary : Gap tokens text token.stop token.stop := Gap.of_stands htoken.stands
  have hprolog : ((d.spans.fill id (openPlaces token.span name.span)).fillAttrs ids attrs).prolog =
      d.spans.prolog := TreeSpans.prolog_fillAttrs _ _
  -- The innermost node is a new one without children found; the others are as before.
  refine ⟨hfilled, ⟨token.span, ?_, ⟨[], .nil, hboundary⟩, ?_⟩, hboundary, ?_, ?_, ?_⟩
  · exact congrArg Ranges.opening hfills.ranges_self
  · exact (h.nested.grow hgrows hprolog).head rfl
  · intro x kind' hx hpath hne
    have hxid : x ≠ id := fun he ↦ hpath (he ▸ List.mem_cons_self)
    refine (h.placed hx (fun hmem ↦ hpath (List.mem_cons_of_mem _ hmem)) ?_).grow hgrows
    rw [← hfills.ranges_of_ne hxid]
    exact hne
  · intro prolog hp
    exact h.prolog (hprolog ▸ hp)
  · intro hzero
    omega

/-- An element that has its closing tag goes from one tag to the other. -/
theorem isTagPair_of_closeTag {token : Token} {written : Lexeme} {gap : Nat → Nat → Prop}
    {opening name : Span} {qname : QName} (htoken : token.Scanned text)
    (hform : token.form = .closeTag written) (hname : qname.written.toList = written.text)
    (hranges : spans.ranges id = closedPlaces opening token.span name)
    (htiled : spans.Tiled gap tree id (tree.children id).length opening.stop token.start) :
    spans.IsTagPair gap text tree id qname := by
  have hfits := htoken.fits
  unfold Token.Fits at hfits
  rw [hform] at hfits
  obtain ⟨blanks, hblanks, hraw⟩ := hfits
  refine ⟨opening, token.span, blanks, ?_, ?_, ?_, htiled, hblanks, ?_⟩
  · rw [hranges]
    rfl
  · rw [hranges]
    rfl
  · rw [hranges]
    rfl
  · rw [hname, ← hraw]
    exact htoken.stands

theorem leaves {token : Token} {written : Lexeme} (h : Tiled tree tokens text d token.start)
    (hlinked : tree.Linked) (htoken : token.Scanned text) (hform : token.form = .closeTag written)
    (hleaves : d.Leaves token written d') : Tiled tree tokens text d' token.stop := by
  have hlt : token.start < token.span.stop := htoken.start_lt_stop
  have hgrows := h.grows_of_leaves hlinked hleaves
  obtain ⟨visit, outer, opening, name, houter, hranges, hvisited, hname, rfl⟩ := hleaves
  rw [h.tree_eq] at hvisited hname
  have hfilled := (h.left hlinked houter hranges hvisited hlt).mono (Nat.le_of_lt hlt)
  have hnested := h.nested
  have hpath := h.path
  rw [houter] at hnested hpath
  obtain ⟨opening', hopening, htiled, hrest⟩ := hnested
  obtain ⟨⟨i, hi, hchild⟩, -⟩ := hpath
  have hlast : visit.visited - 1 = i := by omega
  rw [hranges] at hopening
  cases hopening
  have hself := h.ranges_left_self hlinked houter (closedPlaces opening token.span name)
  have hboundary : Gap tokens text token.stop token.stop := Gap.of_stands htoken.stands
  refine ⟨hfilled, ?_, hboundary, ?_, h.prolog, fun hzero ↦ ?_⟩
  · -- One level up, the element that was left is the last child that was found.
    have hwhole : ((d.spans.fill d.current.node (closedPlaces opening token.span name)).ranges
        d.current.node).whole = some ⟨opening.start, token.stop⟩ := by
      rw [hself]
      rfl
    rw [← hi]
    rw [hlast] at hrest
    exact (TreeSpans.Nested.grow hrest hgrows rfl).concat ⟨opening.start, token.stop⟩ hchild hwhole
      hboundary
  · intro x kind hx hpath hne
    by_cases hxid : x = d.current.node
    · subst hxid
      obtain ⟨⟨qname, attrs, hkind⟩, -⟩ :=
        h.isOpen d.current.node List.mem_cons_self (hlinked.ne_root hchild)
      -- The children lie between the tags, as they did when the last of them was found.
      rw [hkind] at hx
      cases hx
      rw [Tree.name?, hkind] at hname
      have hwritten : qname.written.toList = written.text :=
        (congrArg String.toList hname).symm.trans String.toList_ofList
      rw [hvisited] at htiled
      exact Or.inr (isTagPair_of_closeTag htoken hform hwritten hself (htiled.grow hgrows))
    · refine (h.placed hx (fun hmem ↦ ?_) ?_).grow hgrows
      · exact ((Filled.mem_path_iff_of_outer houter).1 hmem).elim hxid hpath
      · exact (h.ranges_left_ne_empty_iff hlinked houter hranges token.span x).1 hne
  · have : token.stop = 0 := hzero
    unfold Token.span at hlt
    dsimp only at hlt
    omega

theorem declares {token : Token} {attributes : List AttributeLexeme}
    (h : Tiled tree tokens text d token.start) (htoken : token.Scanned text)
    (hdeclares : d.Declares token attributes d') : Tiled tree tokens text d' token.stop := by
  have hlt := htoken.start_lt_stop
  obtain ⟨hstart, -, rfl⟩ := hdeclares
  obtain ⟨hvisited, houter, -⟩ := h.early hstart
  have hboundary : Gap tokens text token.stop token.stop := Gap.of_stands htoken.stands
  refine ⟨{ h.mono (Nat.le_of_lt hlt) with }, ?_, hboundary, ?_, ?_, fun hzero ↦ by omega⟩
  · -- The declaration comes first, so no child was found before it.
    dsimp only
    rw [houter, hvisited]
    exact ⟨[], .nil, hboundary⟩
  · intro x kind hx hpath hne
    exact (h.placed hx hpath hne).grow (.setProlog _ _)
  · rintro prolog hprolog
    cases hprolog
    exact ⟨hstart, hstart, rfl⟩

end Tiled

/-- Spans lie next to each other throughout a replay. -/
theorem invariant_tiled (hlinked : tree.Linked) (howned : tree.Owned) (tokens : List Token)
    (text : List Char) : Invariant tokens text (Tiled tree tokens text) where
  ready h := h.ready hlinked howned
  bindsText h hrun _ hbinds := by
    obtain ⟨chars, -, hstands⟩ := hrun.exists_stands
    exact h.binds hlinked howned (by simp) (Ranges.has_whole _) rfl hrun.start_lt_stop
      (Gap.of_stands hstands) (by simp) hbinds
  takes {d d' token} h hmem htoken htakes := by
    have hlt : token.start < token.stop := htoken.start_lt_stop
    have hboundary : Gap tokens text token.stop token.stop := Gap.of_stands htoken.stands
    unfold Takes at htakes
    split at htakes
    · cases htakes
    · exact h.declares htoken htakes
    · -- An instruction moves the cursor on and leaves a gap.
      rename_i hform
      have hfits := htoken.fits
      unfold Token.Fits at hfits
      rw [hform] at hfits
      rw [htakes]
      have hgap : ∀ {a}, Gap tokens text a token.start → Gap tokens text a token.stop :=
        fun hgap ↦ hgap.concat hmem hform hfits htoken.stands
      exact { h.mono (Nat.le_of_lt hlt) with
        nested := h.nested.extend hgap
        boundary := hboundary
        placed := h.placed
        prolog := h.prolog
        early := fun hzero ↦ by omega }
    · rename_i hform
      exact h.binds hlinked howned (by simp) (Ranges.has_whole _) rfl hlt hboundary
        (fun _ ↦ ⟨token, htoken, hform, rfl⟩) htakes
    · exact h.binds hlinked howned (by simp) (Ranges.has_delimited _ _ _) rfl hlt hboundary
        (by simp) htakes
    · exact h.binds hlinked howned (by simp) (Ranges.has_delimited _ _ _) rfl hlt hboundary
        (by simp) htakes
    · rename_i hform
      exact h.bindsEmpty hlinked howned htoken hform htakes
    · exact h.enters hlinked howned htoken htakes
    · rename_i hform
      exact h.leaves hlinked htoken hform htakes

end Binder

/-! ## After the replay -/

/-- How spans lie when the replay is over: those of the children of an element between its tags, and
those of the declaration and the children of the document between the ends of the text. -/
structure TreeSpans.InPlace (spans : TreeSpans) (tree : Tree) (tokens : List Token)
    (text : List Char) : Prop where
  node : ∀ {id kind}, tree.kind? id = some kind → spans.ranges id ≠ .empty →
    spans.Placed (Gap tokens text) text tree id kind
  top : ∃ tiles, List.Forall₂ (fun child span ↦ (spans.ranges child).whole = some span)
    (tree.children Tree.root) tiles ∧
    Tiles Span.start Span.stop (Gap tokens text) 0
      ((spans.prolog.map (·.whole)).toList ++ tiles) (Text.byteSize text)

theorem Binder.Tiled.inPlace {tree : Tree} {tokens : List Token} {text : List Char} {d : Binder}
    {spans : TreeSpans} (h : Tiled tree tokens text d (Text.byteSize text)) (hlinked : tree.Linked)
    (hfinishes : d.Finishes spans) : spans.InPlace tree tokens text := by
  obtain ⟨hgrows, whole, hupdate⟩ := h.exists_ranges_eq hlinked hfinishes
  obtain ⟨houter, hvisited, _, -, rfl⟩ := hfinishes
  refine ⟨?_, ?_⟩
  · intro id kind hkind hne
    by_cases hid : id = Tree.root
    · subst hid
      rw [hlinked.kind?_root] at hkind
      cases hkind
      trivial
    · rw [hupdate, Function.update_of_ne hid] at hne
      exact (h.placed hkind (mt (h.mem_path_iff houter).1 hid) hne).grow hgrows
  · have hnested := h.nested.grow hgrows rfl
    rw [houter] at hnested
    obtain ⟨tiles, hwhole, htiles⟩ := hnested
    rw [h.tree_eq] at hvisited
    rw [hvisited, List.take_length, h.current_eq_root houter] at hwhole
    refine ⟨tiles, hwhole, ?_⟩
    cases hprolog : (d.spans.fill Tree.root _).prolog with
    | none =>
      rw [hprolog] at htiles
      exact htiles
    | some prolog =>
      rw [hprolog] at htiles
      refine ⟨?_, htiles⟩
      rw [(h.prolog hprolog).1]
      exact Gap.zero tokens text

/-- How spans lie in a text that could be replayed against a tree. -/
theorem Document.inPlace_of_bind {tree : Tree} {body : List Char} {spans : TreeSpans}
    (hlinked : tree.Linked) (howned : tree.Owned) (h : Document.bind tree body = .ok spans) :
    spans.InPlace tree (Token.scan body).1 body ∧ spans.Settled tree := by
  obtain ⟨last, hlast, hfinishes⟩ := exists_last_of_bind
    (Binder.invariant_tiled hlinked howned (Token.scan body).1 body) (fun h ↦ h.root)
    (Binder.tiled_initial tree _ body) h
  exact ⟨hlast.inPlace hlinked hfinishes, hlast.settled hlinked howned hfinishes⟩

end XmlInspect
