import XmlInspect.Proofs.Lockstep
import XmlInspect.Proofs.Tiling

/-!
# Ranges are faithful

The tree of a document and its ranges come from two readings of the body. Whoever cuts the text of a
file at the ranges of a node should find what the tree says: the name of an element, its tags and
its attributes in order, the marks around a comment, a run of text that unescapes to the content of
the node. Here this is said of documents, in positions of the file, and proved from what is known of
spans.

It holds of every document without document type declaration whose body starts with no byte-order
mark. With a declaration it depends on where the scan of the declaration ends, and that is decided
by its content alone.
-/

namespace XmlInspect

open Markup

namespace Document

/-! ## What it is to be faithful -/

section

variable (doc : Document) (text : List Char)

/-- The text of a part of a node. -/
def slice? (id : NodeId) (slot : Slot) : Option (List Char) :=
  (doc.range? id slot).map (·.slice text)

/-- The text of a part of an attribute. -/
def attrSlice? (a : AttrId) (slot : Slot) : Option (List Char) :=
  (doc.attrRange? a slot).map (·.slice text)

/-- Some attributes stand one after the other between two positions, each of them from its name to
its value. -/
def InOrder : Position → List AttrId → Position → Prop
  | start, [], stop => start ≤ stop
  | start, a :: attrs, stop => ∃ whole name value, doc.attrRange? a .whole = some whole ∧
    doc.attrRange? a .name = some name ∧ doc.attrRange? a .value = some value ∧
    start ≤ whole.start ∧ whole.start = name.start ∧ name.stop ≤ value.start ∧
    value.stop = whole.stop ∧ InOrder whole.stop attrs stop

/-- An attribute is written with its name and, in quotes, something that unescapes to its value. -/
def FaithfulAttr (entities : List Entity) (a : AttrId) : Prop :=
  ∃ attr quote raw, doc.tree.attr? a = some attr ∧
    doc.attrSlice? text a .name = some attr.name.written.toList ∧
    (quote = '"' ∨ quote = '\'') ∧ doc.attrSlice? text a .value = some (quote :: raw ++ [quote]) ∧
    unescape (Entity.lookup entities) raw = .ok attr.value.toList

/-- A node stands between two words, which are its opening and its closing. -/
def FaithfulBetween (id : NodeId) (opener content terminator : List Char) : Prop :=
  doc.slice? text id .whole = some (opener ++ content ++ terminator) ∧
    doc.slice? text id .opening = some opener ∧ doc.slice? text id .closing = some terminator

/-- A node is written as what it is. -/
def Faithful (entities : List Entity) (id : NodeId) : NodeKind → Prop
  | .document => True
  | .element name attrs =>
    doc.slice? text id .name = some name.written.toList ∧
    (∃ opening front, doc.range? id .opening = some opening ∧
      opening.slice text = '<' :: name.written.toList ++ (front ++ ['>']) ∧
      attrs.Pairwise (· < ·) ∧ doc.InOrder opening.start attrs opening.stop) ∧
    (∀ a ∈ attrs, doc.FaithfulAttr text entities a) ∧
    (doc.slice? text id .closing = some "/>".toList ∨
      ∃ blanks, (∀ c ∈ blanks, Text.isAsciiBlank c = true) ∧ doc.slice? text id .closing =
        some ("</".toList ++ name.written.toList ++ blanks ++ ">".toList))
  | .text content => ∃ raw, doc.slice? text id .whole = some raw ∧
    unescape (Entity.lookup entities) raw = .ok content.toList
  | .cdata content => doc.FaithfulBetween text id "<![CDATA[".toList content.toList "]]>".toList
  | .comment content => doc.FaithfulBetween text id "<!--".toList content.toList "-->".toList
  | .doctype _ raw => ∃ blanks, (∀ c ∈ blanks, Text.isXmlBlank c = true) ∧
    doc.slice? text id .whole =
      some ("<!DOCTYPE".toList ++ blanks ++ raw.toList ++ ">".toList)

end

/-! ## From spans -/

variable {uri : String} {charset : Charset} {text : List Char} {mode : NamespaceMode}
  {doc : Document} {spans : TreeSpans} {entities : List Entity} {id : NodeId} {kind : NodeKind}
  {span : Span} {chars : List Char}

theorem slice?_of_stands (h : locate (.ofChars uri charset text) doc.tree spans = .ok doc)
    (slot : Slot) (hspan : (spans.ranges id).get slot = some span)
    (hstands : Text.Stands (Source.ofChars uri charset text).body span.start span.stop chars) :
    doc.slice? text id slot = some chars := by
  obtain ⟨range, hrange, hcovers⟩ := exists_range?_of_span h slot hspan
  rw [slice?, hrange, Option.map_some, hcovers.slice hstands]

private theorem attrSlice?_of_stands {a : AttrId}
    (h : locate (.ofChars uri charset text) doc.tree spans = .ok doc) (slot : Slot)
    (hspan : (spans.attrRanges a).get slot = some span)
    (hstands : Text.Stands (Source.ofChars uri charset text).body span.start span.stop chars) :
    doc.attrSlice? text a slot = some chars := by
  obtain ⟨range, hrange, hcovers⟩ := exists_attrRange?_of_span h slot hspan
  rw [attrSlice?, hrange, Option.map_some, hcovers.slice hstands]

private theorem inOrder_of_row {attrs : List AttrId} {lexemes : List AttributeLexeme}
    {start stop : Nat} (h : locate (.ofChars uri charset text) doc.tree spans = .ok doc)
    (hattrs : List.Forall₂ (spans.ShowsAttr doc.tree entities) attrs lexemes)
    (hrow : AttributeLexeme.Row (Source.ofChars uri charset text).body start lexemes stop)
    (hstart : Text.Divides (Source.ofChars uri charset text).body start)
    (hstop : Text.Divides (Source.ofChars uri charset text).body stop) :
    doc.InOrder ((Source.ofChars uri charset text).positionAt start) attrs
        ((Source.ofChars uri charset text).positionAt stop) ∧
      ∀ a ∈ attrs, doc.FaithfulAttr text entities a := by
  induction hattrs generalizing start with
  | nil => exact ⟨Source.positionAt_mono hstart hstop hrow, by simp⟩
  | @cons a lexeme attrs lexemes hattr hattrs ih =>
    obtain ⟨hle, hname, hbetween, hvalue, hrest⟩ := hrow
    obtain ⟨hplaces, attr, quote, raw, hattr, hwritten, hquote, htext, hraw⟩ := hattr
    obtain ⟨horder, hall⟩ := ih hrest hvalue.divides.2
    obtain ⟨whole, hwhole, hwholes⟩ := exists_attrRange?_of_span h .whole (hplaces .whole _ rfl)
    obtain ⟨name, hnames, hnameCovers⟩ := exists_attrRange?_of_span h .name (hplaces .name _ rfl)
    obtain ⟨value, hvalues, hvalueCovers⟩ :=
      exists_attrRange?_of_span h .value (hplaces .value _ rfl)
    constructor
    · refine ⟨whole, name, value, hwhole, hnames, hvalues, ?_, ?_, ?_, ?_, ?_⟩
      · rw [hwholes.start_eq]
        exact Source.positionAt_mono hstart hname.divides.1 hle
      · rw [hwholes.start_eq, hnameCovers.start_eq]
        rfl
      · rw [hnameCovers.stop_eq, hvalueCovers.start_eq]
        exact Source.positionAt_mono hname.divides.2 hvalue.divides.1 hbetween
      · rw [hvalueCovers.stop_eq, hwholes.stop_eq]
        rfl
      · rw [hwholes.stop_eq]
        exact horder
    · intro a' ha'
      rcases List.mem_cons.1 ha' with rfl | ha'
      · refine ⟨attr, quote, raw, hattr, ?_, hquote, ?_, hraw⟩
        · rw [hwritten]
          exact attrSlice?_of_stands h .name (hplaces .name _ rfl) hname
        · rw [← htext]
          exact attrSlice?_of_stands h .value (hplaces .value _ rfl) hvalue
      · exact hall a' ha'

private theorem faithfulBetween_of_encloses {opener content terminator : List Char}
    (h : locate (.ofChars uri charset text) doc.tree spans = .ok doc)
    (hencloses : spans.Encloses (Source.ofChars uri charset text).body id opener content
      terminator) : doc.FaithfulBetween text id opener content terminator := by
  obtain ⟨span, hwhole, hopening, hclosing, hstands⟩ := hencloses
  refine ⟨slice?_of_stands h .whole hwhole hstands,
    slice?_of_stands h .opening hopening ?_,
    slice?_of_stands h .closing hclosing ?_⟩
  · rw [List.append_assoc] at hstands
    exact hstands.left
  · have hstart : span.stop - Text.byteSize terminator =
        span.start + Text.byteSize (opener ++ content) := by
      rw [hstands.stop_eq, Text.byteSize_append (opener ++ content)]
      omega
    rw [hstart]
    exact hstands.right

private theorem faithful_of_shows (h : locate (.ofChars uri charset text) doc.tree spans = .ok doc)
    (howned : doc.tree.Owned) {gap : Nat → Nat → Prop}
    (hshows : spans.Shows doc.tree (Source.ofChars uri charset text).body entities id kind)
    (hkind : doc.tree.kind? id = some kind)
    (hplaced : spans.Placed gap (Source.ofChars uri charset text).body doc.tree id kind)
    (hmark : ∀ content, kind = .text content →
      (Source.ofChars uri charset text).body.head? ≠ some Text.byteOrderMark ∨ id ≠ 1) :
    doc.Faithful text entities id kind := by
  cases kind with
  | document => trivial
  | element name attrs =>
    obtain ⟨start, stop, front, lexemes, hopening, hname, hstands, hattrs, hrow⟩ := hshows
    obtain ⟨opening, hrange, hcovers⟩ := exists_range?_of_span h .opening hopening
    obtain ⟨hdivides, hdivides'⟩ := hstands.divides
    obtain ⟨horder, hall⟩ := inOrder_of_row h hattrs
      (hrow.of_le (Nat.le_trans (Nat.le_add_right _ 1) (Nat.le_add_right _ _))) hdivides hdivides'
    refine ⟨?_, ⟨opening, front, hrange, hcovers.slice hstands, ?_, ?_⟩, hall, ?_⟩
    · refine slice?_of_stands h .name hname ?_
      have hfront : Text.Stands (Source.ofChars uri charset text).body start
          (start + Text.byteSize ('<' :: name.written.toList)) (['<'] ++ name.written.toList) :=
        hstands.left
      rw [Text.byteSize_cons, ← Nat.add_assoc] at hfront
      exact hfront.right
    · have hsorted := howned.sorted id
      rw [Tree.attributesOf, hkind] at hsorted
      exact hsorted
    · rw [hcovers.start_eq, hcovers.stop_eq]
      exact horder
    · rcases hplaced with ⟨-, closing, -, -, hclosing, -, -, -, hstands'⟩ |
        ⟨-, closing, blanks, -, hclosing, -, -, hblanks, hstands'⟩
      · exact Or.inl (slice?_of_stands h .closing hclosing hstands')
      · exact Or.inr ⟨blanks, hblanks, slice?_of_stands h .closing hclosing hstands'⟩
  | text content =>
    obtain ⟨span, mark, raw, hwhole, hstands, hmark', hraw⟩ := hshows
    -- With a mark in front, the slice would be more than the content.
    obtain rfl : mark = [] := by
      rcases hmark' with hnil | ⟨⟨hhead, -⟩, hid⟩
      · exact hnil
      · exact absurd hhead ((hmark content rfl).resolve_right (not_not.2 hid))
    exact ⟨raw, slice?_of_stands h .whole hwhole hstands, hraw⟩
  | cdata content => exact faithfulBetween_of_encloses h hshows
  | comment content => exact faithfulBetween_of_encloses h hshows
  | doctype name raw =>
    obtain ⟨span, blanks, hwhole, hblanks, hstands⟩ := hshows
    exact ⟨blanks, hblanks, slice?_of_stands h .whole hwhole hstands⟩

/-! ## Documents -/

/-- If the declarations of a document end where they should, a node is faithful unless it is the
first and text. -/
theorem faithful_of_contained (h : parse (.ofChars uri charset text) mode = .ok doc)
    (hcontained : doc.tree.Contained entities) (hkind : doc.tree.kind? id = some kind)
    (hmark : ∀ content, kind = .text content →
      (Source.ofChars uri charset text).body.head? ≠ some Text.byteOrderMark ∨ id ≠ 1) :
    doc.Faithful text entities id kind := by
  obtain ⟨spans, hbuild, hbind, hlocate⟩ := exists_spans_of_parse h
  obtain ⟨hlinked, howned⟩ := Tree.linked_of_build hbuild
  obtain ⟨hshows, hchildless⟩ := shows_of_bind hbuild hlinked howned hcontained hbind
  obtain ⟨hplace, hsettled⟩ := inPlace_of_bind hlinked howned hbind
  have hcomplete := (hsettled.complete_iff hlinked howned).2 hchildless
  exact faithful_of_shows hlocate howned (hshows hkind) hkind
    (hplace.node hkind (hcomplete.nodes hkind).ne_empty) hmark

/-- Ranges are faithful to the text. In a document without document type declaration, whose body
starts with no mark, what stands in the ranges of a node or attribute is what the tree says. -/
theorem faithful_of_parse (h : parse (.ofChars uri charset text) mode = .ok doc)
    (hmark : (Source.ofChars uri charset text).body.head? ≠ some Text.byteOrderMark)
    (hdoctype : doc.tree.hasDoctype = false) :
    (∀ {id kind}, doc.tree.kind? id = some kind → doc.Faithful text [] id kind) ∧
      ∀ {a attr}, doc.tree.attr? a = some attr → doc.FaithfulAttr text [] a := by
  have hnodes : ∀ {id kind}, doc.tree.kind? id = some kind → doc.Faithful text [] id kind :=
    fun hkind ↦ faithful_of_contained h (Tree.contained_of_hasDoctype hdoctype) hkind
      fun _ _ ↦ Or.inl hmark
  refine ⟨hnodes, fun {a attr} hattr ↦ ?_⟩
  obtain ⟨spans, hbuild, -, -⟩ := exists_spans_of_parse h
  have hmem := (Tree.linked_of_build hbuild).2.mem hattr
  obtain ⟨name, attrs, hkind⟩ := Tree.exists_kind_of_mem_attributesOf hmem
  rw [Tree.attributesOf, hkind] at hmem
  exact (hnodes hkind).2.2.1 a hmem

theorem faithful_of_parse_mixed :
    let text := "<a b='1 &lt; 2'><!--c-->d &amp; e<![CDATA[<]]><f/></a >".toList
    ∃ doc, parse (.ofChars "" .utf8 text) .aware = .ok doc ∧
      (Source.ofChars "" .utf8 text).body.head? ≠ some Text.byteOrderMark ∧
      doc.tree.hasDoctype = false ∧
      doc.tree.kind? 1 = some (.element ⟨none, "a", none⟩ [0]) ∧
      doc.Faithful text [] 1 (.element ⟨none, "a", none⟩ [0]) ∧
      doc.tree.kind? 3 = some (.text "d & e") ∧ doc.Faithful text [] 3 (.text "d & e") ∧
      (doc.tree.attr? 0).isSome ∧ doc.FaithfulAttr text [] 0 := by
  intro text
  have hrun : (parse (.ofChars "" .utf8 text) .aware).toOption.any (fun doc ↦
      !doc.tree.hasDoctype &&
      doc.tree.kind? 1 == some (.element ⟨none, "a", none⟩ [0]) &&
      doc.tree.kind? 3 == some (.text "d & e") && (doc.tree.attr? 0).isSome) = true := by
    decide +kernel
  obtain ⟨doc, hparse, hdoc⟩ := exists_of_any hrun
  simp only [Bool.and_eq_true, Bool.not_eq_true', beq_iff_eq] at hdoc
  obtain ⟨⟨⟨hdoctype, helement⟩, htext⟩, hattr⟩ := hdoc
  have hmark : (Source.ofChars "" .utf8 text).body.head? ≠ some Text.byteOrderMark := by
    decide +kernel
  obtain ⟨attr, hattr'⟩ := Option.isSome_iff_exists.1 hattr
  have hfaithful := faithful_of_parse hparse hmark hdoctype
  exact ⟨doc, hparse, hmark, hdoctype, helement, hfaithful.1 helement, htext, hfaithful.1 htext,
    hattr, hfaithful.2 hattr'⟩

private theorem isSelfContained_of_faithful {name raw : String}
    (h : parse (.ofChars uri charset text) mode = .ok doc)
    (hkind : doc.tree.kind? id = some (.doctype name raw))
    (hfaithful : doc.Faithful text entities id (.doctype name raw)) :
    Text.isSelfContained raw.toList = true := by
  obtain ⟨spans, hbuild, hbind, hlocate⟩ := exists_spans_of_parse h
  obtain ⟨hlinked, howned⟩ := Tree.linked_of_build hbuild
  obtain ⟨hplace, hsettled⟩ := inPlace_of_bind hlinked howned hbind
  obtain ⟨blanks, hblanks, hslice⟩ := hfaithful
  have hne : spans.ranges id ≠ .empty := by
    intro hempty
    have hrel := rel_range? hlocate id .whole
    obtain ⟨range, hrange, -⟩ := Option.map_eq_some_iff.1 hslice
    rw [hempty, Ranges.get_empty, hrange] at hrel
    cases hrel
  -- The slice is a token of the scan, and the token ends where the scan of its content does.
  obtain ⟨token, htoken, hform, hwhole⟩ := hplace.node hkind hne
  rw [slice?_of_stands hlocate .whole hwhole htoken.stands] at hslice
  have hfits := htoken.fits
  rw [Token.Fits, hform] at hfits
  obtain ⟨content, after, next, hraw, hend, hrest⟩ := hfits
  have hcontent : content = blanks ++ raw.toList ++ ">".toList := by
    rw [hraw, List.append_assoc, List.append_assoc] at hslice
    rw [List.append_assoc]
    exact List.append_cancel_left (Option.some.inj hslice)
  have hsplit : content ++ after = blanks ++ (raw.toList ++ '>' :: after) := by
    rw [hcontent]
    simp
  rw [hsplit] at hend
  exact (Cursor.isSelfContained_iff_rest_eq hblanks hend).2 hrest

/-- The scan of a document type declaration stops where building does exactly if its content ends it
where it should, and then all nodes after it are bound to the tokens they were built from. -/
theorem faithful_doctype_iff {name raw : String}
    (h : parse (.ofChars uri charset text) mode = .ok doc)
    (hkind : doc.tree.kind? id = some (.doctype name raw)) :
    (doc.Faithful text (Entity.declared raw.toList) id (.doctype name raw) ↔
        Text.isSelfContained raw.toList = true) ∧
      (Text.isSelfContained raw.toList = true → ∀ {later kind}, id < later →
        doc.tree.kind? later = some kind →
        doc.Faithful text (Entity.declared raw.toList) later kind) := by
  obtain ⟨spans, hbuild, -, -⟩ := exists_spans_of_parse h
  refine ⟨⟨isSelfContained_of_faithful h hkind, fun hself ↦ ?_⟩,
    fun hself later kind hlt hlater ↦ ?_⟩
  · exact faithful_of_contained h (Tree.contained_of_kind? hbuild hkind hself) hkind (by simp)
  · refine faithful_of_contained h (Tree.contained_of_kind? hbuild hkind hself) hlater
      fun _ _ ↦ Or.inr ?_
    -- The document itself is the first node, and a declaration is a later one.
    have hne : id ≠ Tree.root := by
      rintro rfl
      rw [(Tree.linked_of_build hbuild).1.kind?_root] at hkind
      cases hkind
    exact Nat.ne_of_gt (Nat.lt_of_le_of_lt (Nat.one_le_iff_ne_zero.2 hne) hlt)

theorem faithful_doctype_of_entity :
    let text := "<!DOCTYPE a [<!ENTITY b 'c'>]><a>&b;</a>".toList
    let raw := "a [<!ENTITY b 'c'>]"
    ∃ doc, parse (.ofChars "" .utf8 text) .aware = .ok doc ∧
      doc.tree.kind? 1 = some (.doctype "a" raw) ∧
      Text.isSelfContained raw.toList = true ∧
      doc.Faithful text (Entity.declared raw.toList) 1 (.doctype "a" raw) ∧
      doc.tree.kind? 3 = some (.text "c") ∧
      doc.Faithful text (Entity.declared raw.toList) 3 (.text "c") := by
  intro text raw
  have hrun : (parse (.ofChars "" .utf8 text) .aware).toOption.any (fun doc ↦
      doc.tree.kind? 1 == some (.doctype "a" raw) && doc.tree.kind? 3 == some (.text "c")) =
        true := by
    decide +kernel
  obtain ⟨doc, hparse, hdoc⟩ := exists_of_any hrun
  simp only [Bool.and_eq_true, beq_iff_eq] at hdoc
  obtain ⟨hdoctype, htext⟩ := hdoc
  have hself : Text.isSelfContained raw.toList = true := by decide +kernel
  have hfaithful := faithful_doctype_iff hparse hdoctype
  exact ⟨doc, hparse, hdoctype, hself, hfaithful.1.2 hself, htext,
    hfaithful.2 hself (by decide) htext⟩

/-- An apostrophe that is left open goes on to the next one for the scan, which may be in an
instruction behind the declaration. -/
theorem not_faithful_doctype_of_apostrophe :
    let text := "<!DOCTYPE a '><?pi '><?x?><a/>".toList
    ∃ doc, parse (.ofChars "" .utf8 text) .aware = .ok doc ∧
      doc.tree.kind? 1 = some (.doctype "a" "a '") ∧
      doc.slice? text 1 .whole = some "<!DOCTYPE a '><?pi '>".toList ∧
      ¬ doc.Faithful text (Entity.declared "a '".toList) 1 (.doctype "a" "a '") := by
  intro text
  have hrun : (parse (.ofChars "" .utf8 text) .aware).toOption.any (fun doc ↦
      doc.tree.kind? 1 == some (.doctype "a" "a '") &&
      doc.slice? text 1 .whole == some "<!DOCTYPE a '><?pi '>".toList) = true := by
    decide +kernel
  obtain ⟨doc, hparse, hdoc⟩ := exists_of_any hrun
  simp only [Bool.and_eq_true, beq_iff_eq] at hdoc
  obtain ⟨hdoctype, hslice⟩ := hdoc
  refine ⟨doc, hparse, hdoctype, hslice, ?_⟩
  rintro ⟨blanks, -, hfaithful⟩
  have hlast := congrArg (fun chars : List Char ↦ chars.reverse.take 4)
    (Option.some.inj (hslice.symm.trans hfaithful))
  simp at hlast

end Document

end XmlInspect
