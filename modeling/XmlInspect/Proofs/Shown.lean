import XmlInspect.Proofs.Agreement
import XmlInspect.Proofs.Slots

/-!
# What a node shows

A node shows what it is if the text at its places is the one it was built from: an element its name
and its attributes, a comment its content between the marks that enclose it, a run of text something
that unescapes to its content. Here this is said of a node of a finished tree, and what building
puts into the tree one piece at a time is said in the same words.
-/

namespace XmlInspect

open Markup

/-! ## Building piece by piece -/

/-- The first piece of a text, and what comes after it. -/
theorem Markup.Piece.cutAll_cons {offset : Nat} {c : Char} {text rest raw : List Char} {form : Form}
    (h : cutFirst c text = .ok (form, rest)) (hraw : c :: text = raw ++ rest) :
    cutAll offset (c :: text) =
      (⟨offset, raw, form⟩ :: (cutAll (offset + Text.byteSize raw) rest).1,
        (cutAll (offset + Text.byteSize raw) rest).2) := by
  -- What a piece is made of is told by how much of the text is left after it.
  have htake : (c :: text).take (text.length + 1 - rest.length) = raw := by
    have hlength : text.length + 1 - rest.length = raw.length := by
      rw [← List.length_cons (a := c), hraw, List.length_append, Nat.add_sub_cancel]
    rw [hlength, hraw, List.take_left]
  rw [cutAll]
  split
  · rename_i hfault
    cases h.symm.trans hfault
  · rename_i hform
    cases h.symm.trans hform
    rw [htake]

namespace Tree

variable {tree later : Tree} {p id : NodeId} {kind : NodeKind}

/-- Kinds and children are all in the nodes. -/
theorem kind?_congr (h : later.nodes = tree.nodes) (id : NodeId) :
    later.kind? id = tree.kind? id := by
  rw [kind?, kind?, h]

theorem children_congr (h : later.nodes = tree.nodes) (id : NodeId) :
    later.children id = tree.children id := by
  rw [children, children, h]

namespace Builder

variable {b b' : Builder} {offset : Nat} {c : Char} {text : List Char}

/-- The pieces of a text lead from a state to a tree. -/
def Builds (b : Builder) (offset : Nat) (text : List Char) (tree : Tree) : Prop :=
  ∃ pieces last, Piece.cutAll offset text = (pieces, none) ∧
    pieces.foldlM Builder.take b = .ok last ∧ last.frames = [] ∧ last.rootSeen ∧ last.tree = tree

namespace Builds

theorem of_build {mode : NamespaceMode} {body : List Char} (h : build mode body = .ok tree) :
    (initial mode).Builds 0
      (if body.head? = some Text.byteOrderMark then body.drop 1 else body) tree :=
  exists_run_of_build h

theorem of_nil (h : b.Builds offset [] tree) : b.frames = [] ∧ b.rootSeen ∧ b.tree = tree := by
  obtain ⟨pieces, last, hcut, hrun, hlast⟩ := h
  rw [Piece.cutAll] at hcut
  cases hcut
  cases hrun
  exact hlast

theorem of_cons (h : b.Builds offset (c :: text) tree) :
    ∃ form rest raw b', Piece.cutFirst c text = .ok (form, rest) ∧ c :: text = raw ++ rest ∧
      b.take ⟨offset, raw, form⟩ = .ok b' ∧ b'.Builds (offset + Text.byteSize raw) rest tree := by
  obtain ⟨pieces, last, hcut, hrun, hlast⟩ := h
  cases hfirst : Piece.cutFirst c text with
  | error fault =>
    rw [Piece.cutAll] at hcut
    split at hcut
    · cases hcut
    · rename_i hform
      cases hfirst.symm.trans hform
  | ok result =>
    obtain ⟨form, rest⟩ := result
    obtain ⟨front, hfront⟩ := Piece.suffix_of_cutFirst hfirst
    have hraw : c :: text = c :: front ++ rest := by rw [← hfront, List.cons_append]
    rw [Piece.cutAll_cons hfirst hraw] at hcut
    obtain ⟨rfl, hfault⟩ := Prod.mk.inj hcut
    obtain ⟨b', htake, hrun⟩ := foldlM_cons_eq_ok_iff.1 hrun
    exact ⟨form, rest, c :: front, b', rfl, hraw, htake, _, last, Prod.ext rfl hfault, hrun, hlast⟩

theorem extends_tree (h : b.Builds offset text tree) (hsound : b.Sound) : b.tree.Extends tree := by
  obtain ⟨pieces, last, -, hrun, -, -, rfl⟩ := h
  exact (hsound.foldlM hrun).2

theorem of_markup (h : b.Builds offset ('<' :: text) tree) (hsound : b.Sound) :
    ∃ form rest raw b', cutMarkup text = .ok (form, rest) ∧ b.take ⟨offset, raw, form⟩ = .ok b' ∧
      b'.Sound ∧ b'.tree.Extends tree ∧ b'.Builds (offset + Text.byteSize raw) rest tree := by
  obtain ⟨form, rest, raw, b', hcut, -, htake, hbuilds⟩ := h.of_cons
  have hsound' := (hsound.take htake).1
  rw [Piece.cutFirst, if_pos rfl] at hcut
  exact ⟨form, rest, raw, b', hcut, htake, hsound', hbuilds.extends_tree hsound', hbuilds⟩

theorem of_text (h : b.Builds offset (c :: text) tree) (hsound : b.Sound) (hc : c ≠ '<') :
    ∃ raw rest content b', Piece.cutFirst c text = .ok (.text, rest) ∧ c :: text = raw ++ rest ∧
      '<' ∉ raw ∧ (∀ c ∈ rest.head?, c = '<') ∧
      unescape (Entity.lookup b.entities) raw = .ok content ∧
      b' = b.appendLeaf (.text (String.ofList content)) ∧ b'.Sound ∧ b'.tree.Extends tree ∧
      b'.Builds (offset + Text.byteSize raw) rest tree := by
  obtain ⟨form, rest, raw, b', hcut, hraw, htake, hbuilds⟩ := h.of_cons
  have hsound' := (hsound.take htake).1
  have hfirst : Piece.cutFirst c text = .ok (.text, text.dropWhile (· != '<')) := if_neg hc
  obtain ⟨rfl, rfl⟩ := Prod.mk.inj (Except.ok.inj (hfirst.symm.trans hcut))
  obtain ⟨content, hcontent, hb'⟩ := takeText_eq_ok htake
  have heq : raw = c :: text.takeWhile (· != '<') := by
    refine List.append_cancel_right (hraw.symm.trans ?_)
    rw [List.cons_append, List.takeWhile_append_dropWhile]
  refine ⟨raw, _, content, b', hcut, hraw, ?_, ?_, hcontent, hb', hsound',
    hbuilds.extends_tree hsound', hbuilds⟩
  · rw [heq, List.mem_cons, not_or]
    refine ⟨Ne.symm hc, fun hmem ↦ ?_⟩
    simpa using List.mem_takeWhile_imp hmem
  · intro c hc
    have hhead := List.head?_dropWhile_not (· != '<') text
    rw [hc] at hhead
    simpa using hhead

end Builds

/-! ## One more node -/

/-- The nodes that are open, the innermost first, and the document. -/
def path (b : Builder) : List NodeId := b.frames.map (·.node) ++ [root]

theorem exists_path_eq (b : Builder) : ∃ outer, b.path = b.parent :: outer := by
  unfold path parent
  split
  · rename_i hframes
    rw [hframes]
    exact ⟨_, rfl⟩
  · rename_i hframes
    rw [hframes]
    exact ⟨[], rfl⟩

/-- A node of a kind is added where the next one belongs. -/
def Adds (b : Builder) (kind : NodeKind) (b' : Builder) : Prop :=
  b'.tree.nodes = (b.tree.append b.parent kind).nodes

theorem adds_appendLeaf (b : Builder) (kind : NodeKind) : b.Adds kind (b.appendLeaf kind) := rfl

theorem adds_appendElement {name : QName} {attrs : List (QName × String)}
    (h : b'.tree = b.tree.appendElement b.parent name attrs) :
    b.Adds (.element name (List.range' b.tree.attributes.size attrs.length)) b' := by
  rw [Adds, h]
  rfl

theorem adds_of_takeDoctype {content : List Char} (hsound : b.Sound)
    (h : b.takeDoctype content = .ok b') :
    b.Adds (.doctype (String.ofList (doctypeName content)) (String.ofList content)) b' := by
  obtain ⟨hseen, -, rfl⟩ := takeDoctype_eq_ok h
  rw [Adds, hsound.parent_eq_root hseen]

namespace Adds

theorem kind?_eq (h : b.Adds kind b') (id : NodeId) :
    b'.tree.kind? id = if id = b.tree.size then some kind else b.tree.kind? id := by
  rw [kind?_congr h, kind?_append]

theorem children_eq (h : b.Adds kind b') (hsound : b.Sound) (id : NodeId) :
    b'.tree.children id =
      if b.parent = id then b.tree.children b.parent ++ [b.tree.size] else b.tree.children id := by
  rw [children_congr h, children_append _ hsound.parent_lt]

/-- The node that is added is in the finished tree, as the next child of its parent. -/
theorem of_extends (h : b.Adds kind b') (hsound : b.Sound) (hextends : b'.tree.Extends tree) :
    tree.kind? b.tree.size = some kind ∧
      (tree.children b.parent)[(b.tree.children b.parent).length]? = some b.tree.size := by
  constructor
  · refine hextends.kind? ?_
    rw [h.kind?_eq, if_pos rfl]
  · refine hextends.getElem?_children ?_
    rw [h.children_eq hsound, if_pos rfl, List.getElem?_concat_length]

end Adds

end Builder

end Tree

/-! ## Attributes -/

namespace Tree

variable {tree : Tree} {entities : List Entity}

theorem forall₂_attr?_appendElement (tree : Tree) (p : NodeId) (name : QName)
    (attrs : List (QName × String)) :
    List.Forall₂ (fun a attr ↦ (tree.appendElement p name attrs).attr? a =
      some ⟨attr.1, attr.2, tree.size⟩) (List.range' tree.attributes.size attrs.length) attrs := by
  rw [List.forall₂_iff_get]
  refine ⟨List.length_range', fun i hi hi' ↦ ?_⟩
  rw [attr?_appendElement, List.get_eq_getElem, List.getElem_range',
    if_neg (Nat.not_lt.2 (Nat.le_add_right _ _))]
  simp [hi']

/-- An attribute has the name and the value of one that was read from a tag. -/
def Carries (tree : Tree) (entities : List Entity) (a : AttrId) (raw : RawAttribute) : Prop :=
  ∃ attr, tree.attr? a = some attr ∧ attr.name.written.toList = raw.key ∧
    unescape (Entity.lookup entities) raw.value = .ok attr.value.toList

/-- An attribute has the name that a lexeme of a tag has, and its value is what is written there
between the quotes. -/
def Writes (tree : Tree) (entities : List Entity) (a : AttrId) (lexeme : AttributeLexeme) : Prop :=
  ∃ attr quote raw, tree.attr? a = some attr ∧ attr.name.written.toList = lexeme.name.text ∧
    (quote = '"' ∨ quote = '\'') ∧ lexeme.value.text = quote :: raw ++ [quote] ∧
    unescape (Entity.lookup entities) raw = .ok attr.value.toList

theorem Carries.writes {a : AttrId} {raw : RawAttribute} {lexeme : AttributeLexeme}
    (h : tree.Carries entities a raw) (hspells : Cursor.Spells raw lexeme) :
    tree.Writes entities a lexeme := by
  obtain ⟨attr, hattr, hname, hvalue⟩ := h
  obtain ⟨hkey, quote, hquote, htext⟩ := hspells
  exact ⟨attr, quote, raw.value, hattr, hname.trans hkey.symm, hquote, htext, hvalue⟩

theorem Writes.names {a : AttrId} {lexeme : AttributeLexeme} (h : tree.Writes entities a lexeme) :
    Binder.Names tree a lexeme := by
  obtain ⟨attr, quote, raw, hattr, hname, -⟩ := h
  rw [Binder.Names, writtenAttr?, hattr, ← hname, String.ofList_toList]
  rfl

namespace Builder

variable {b : Builder} {raws : List RawAttribute} {attrs : List (QName × List Char)}

/-- The attributes of a tag are in the tree as they are written. -/
theorem forall₂_carries (hreads : List.Forall₂ (Reads b.entities) raws attrs) {name : QName}
    (hextends : (b.tree.appendElement b.parent name
      (attrs.map fun attr ↦ (attr.1, String.ofList attr.2))).Extends tree)
    (hlookup : ∀ {name text}, Entity.lookup b.entities name = some text →
      Entity.lookup entities name = some text) :
    List.Forall₂ (tree.Carries entities)
      (List.range' b.tree.attributes.size attrs.length) raws := by
  have hattrs := forall₂_attr?_appendElement b.tree b.parent name
    (attrs.map fun attr ↦ (attr.1, String.ofList attr.2))
  rw [List.length_map, List.forall₂_map_right_iff] at hattrs
  refine forall₂_comp hattrs (List.Forall₂.flip hreads) fun {a attr raw} hattr hread ↦ ?_
  refine ⟨_, hextends.attr? hattr, ?_, ?_⟩
  · rw [hread.1, String.toList_ofList]
  · rw [String.toList_ofList]
    exact unescapeFrom_mono hlookup hread.2 _ _

end Builder

end Tree

/-! ## What a node shows -/

namespace TreeSpans

variable {spans spans' : TreeSpans} {tree : Tree} {body : List Char} {entities : List Entity}
  {id : NodeId} {kind : NodeKind}

/-- An attribute stands where a lexeme does that it was written as. -/
def ShowsAttr (spans : TreeSpans) (tree : Tree) (entities : List Entity) (a : AttrId)
    (lexeme : AttributeLexeme) : Prop :=
  (∀ slot span, lexeme.places.get slot = some span → (spans.attrRanges a).get slot = some span) ∧
    tree.Writes entities a lexeme

/-- A node stands between two words, which are its opening and its closing. -/
def Encloses (spans : TreeSpans) (body : List Char) (id : NodeId)
    (opener content terminator : List Char) : Prop :=
  ∃ span, (spans.ranges id).whole = some span ∧
    (spans.ranges id).opening = some ⟨span.start, span.start + Text.byteSize opener⟩ ∧
    (spans.ranges id).closing = some ⟨span.stop - Text.byteSize terminator, span.stop⟩ ∧
    Text.Stands body span.start span.stop (opener ++ content ++ terminator)

/-- What stands where a node is said to stand is that node. If the first node is a run of text, a
byte-order mark at the head of the body stands with it. -/
def Shows (spans : TreeSpans) (tree : Tree) (body : List Char) (entities : List Entity)
    (id : NodeId) : NodeKind → Prop
  | .document => True
  | .element name attrs => ∃ start stop front lexemes,
    (spans.ranges id).opening = some ⟨start, stop⟩ ∧
    (spans.ranges id).name =
      some ⟨start + 1, start + 1 + Text.byteSize name.written.toList⟩ ∧
    Text.Stands body start stop ('<' :: name.written.toList ++ (front ++ ['>'])) ∧
    List.Forall₂ (spans.ShowsAttr tree entities) attrs lexemes ∧
    AttributeLexeme.Row body (start + 1 + Text.byteSize name.written.toList) lexemes stop
  | .text content => ∃ span mark raw, (spans.ranges id).whole = some span ∧
    Text.Stands body span.start span.stop (mark ++ raw) ∧
    (mark = [] ∨ (body.head? = some Text.byteOrderMark ∧ mark = [Text.byteOrderMark]) ∧ id = 1) ∧
    unescape (Entity.lookup entities) raw = .ok content.toList
  | .cdata content =>
    spans.Encloses body id "<![CDATA[".toList content.toList "]]>".toList
  | .comment content => spans.Encloses body id "<!--".toList content.toList "-->".toList
  | .doctype _ raw => ∃ span blanks, (spans.ranges id).whole = some span ∧
    (∀ c ∈ blanks, Text.isXmlBlank c = true) ∧
    Text.Stands body span.start span.stop
      ("<!DOCTYPE".toList ++ blanks ++ raw.toList ++ ">".toList)

/-- A token with an opener and a terminator is enclosed by them. -/
theorem Encloses.of_token {token : Token} {opener content terminator : List Char}
    (rest : List Char) (htoken : token.Scanned body)
    (hranges : spans.ranges id =
      ⟨some token.span, some token.opening, some token.closing, none, none⟩)
    (hopener : token.openingSize = Text.byteSize opener)
    (hterminator : token.closingSize = Text.byteSize terminator)
    (hraw : opener ++ content ++ terminator ++ rest = token.raw ++ rest) :
    spans.Encloses body id opener content terminator := by
  refine ⟨token.span, by rw [hranges], ?_, ?_, ?_⟩
  · rw [hranges, Token.opening, hopener]
    rfl
  · rw [hranges, Token.closing, hterminator]
    rfl
  · rw [List.append_cancel_right hraw]
    exact htoken.stands

private theorem Encloses.grow {opener content terminator : List Char}
    (h : spans.Encloses body id opener content terminator) (hgrows : spans.Grows spans') :
    spans'.Encloses body id opener content terminator := by
  obtain ⟨span, hwhole, hopening, hclosing, hstands⟩ := h
  exact ⟨span, hgrows.node id .whole _ hwhole, hgrows.node id .opening _ hopening,
    hgrows.node id .closing _ hclosing, hstands⟩

theorem Shows.grow (h : spans.Shows tree body entities id kind) (hgrows : spans.Grows spans') :
    spans'.Shows tree body entities id kind := by
  cases kind with
  | document => trivial
  | element name attrs =>
    obtain ⟨start, stop, front, lexemes, hopening, hname, hstands, hattrs, hrow⟩ := h
    refine ⟨start, stop, front, lexemes, hgrows.node id .opening _ hopening,
      hgrows.node id .name _ hname, hstands, hattrs.imp fun a lexeme hattr ↦ ?_, hrow⟩
    exact ⟨fun slot span hspan ↦ hgrows.attr a slot span (hattr.1 slot span hspan), hattr.2⟩
  | text content =>
    obtain ⟨span, mark, raw, hwhole, hrest⟩ := h
    exact ⟨span, mark, raw, hgrows.node id .whole _ hwhole, hrest⟩
  | cdata content => exact Encloses.grow h hgrows
  | comment content => exact Encloses.grow h hgrows
  | doctype name raw =>
    obtain ⟨span, blanks, hwhole, hrest⟩ := h
    exact ⟨span, blanks, hgrows.node id .whole _ hwhole, hrest⟩

end TreeSpans

end XmlInspect
