import XmlInspect.Proofs.Lockstep
import XmlInspect.Proofs.Tiling

/-!
# Ranges leave no gaps

The ranges of a document fill the file at every level: those of the declaration and the children of
the document from the start of the body to its end, and those of the tags and the children of an
element from the start of the element to its end. They come in order and do not overlap, and the
only thing between them that belongs to none is processing instructions.
-/

namespace XmlInspect

/-! ## Filling a stretch -/

/-- Nothing but processing instructions stands between two positions of a text. -/
def Text.IsGap (text : List Char) (start stop : Position) : Prop :=
  start ≤ stop ∧ ∃ parts : List (List Char), (∀ part ∈ parts, isInstruction part = true) ∧
    between text start stop = parts.flatten

/-- Some ranges fill the stretch between two positions in order, up to gaps of a kind. -/
structure TextRange.Fill (gap : Position → Position → Prop) (start : Position)
    (ranges : List TextRange) (stop : Position) : Prop where
  ascending : ranges.Pairwise fun range later ↦ range.stop ≤ later.start
  tiles : Tiles TextRange.start TextRange.stop gap start ranges stop

namespace Tiles

variable {gap : Position → Position → Prop} {start stop : Position} {ranges : List TextRange}

private theorem le_start (hgap : ∀ {p q}, gap p q → p ≤ q)
    (h : Tiles TextRange.start TextRange.stop gap start ranges stop) :
    ∀ range ∈ ranges, start ≤ range.start := by
  induction ranges generalizing start with
  | nil => simp
  | cons first ranges ih =>
    intro range hrange
    rcases List.mem_cons.1 hrange with rfl | hrange
    · exact hgap h.1
    · exact Position.le_trans (hgap h.1)
        (Position.le_trans (Position.le_of_lt first.start_lt_stop) (ih h.2 range hrange))

theorem start_le_stop (hgap : ∀ {p q}, gap p q → p ≤ q)
    (h : Tiles TextRange.start TextRange.stop gap start ranges stop) : start ≤ stop := by
  induction ranges generalizing start with
  | nil => exact hgap h
  | cons first ranges ih =>
    exact Position.le_trans (hgap h.1)
      (Position.le_trans (Position.le_of_lt first.start_lt_stop) (ih h.2))

private theorem fill (hgap : ∀ {p q}, gap p q → p ≤ q)
    (h : Tiles TextRange.start TextRange.stop gap start ranges stop) :
    TextRange.Fill gap start ranges stop := by
  refine ⟨?_, h⟩
  induction ranges generalizing start with
  | nil => exact .nil
  | cons first ranges ih => exact .cons (le_start hgap h.2) (ih h.2)

end Tiles

namespace Document

section

variable (doc : Document) (text : List Char)

/-- An element with an empty tag: the tag is all there is of it, and it has no children. -/
def IsEmptyTag (id : NodeId) : Prop :=
  ∃ whole closing front, doc.range? id .whole = some whole ∧
    doc.range? id .opening = some whole ∧ doc.range? id .closing = some closing ∧
    closing.stop = whole.stop ∧ closing.slice text = "/>".toList ∧
    whole.slice text = front ++ "/>".toList ∧ doc.tree.children id = []

/-- An element with two tags: they and the children in between fill it. -/
def IsTagPair (gap : Position → Position → Prop) (id : NodeId) : Prop :=
  ∃ whole opening closing name tiles, doc.range? id .whole = some whole ∧
    doc.range? id .opening = some opening ∧ doc.range? id .closing = some closing ∧
    whole.start = opening.start ∧ whole.stop = closing.stop ∧
    closing.slice text = "</".toList ++ name ++ ">".toList ∧
    List.Forall₂ (fun child range ↦ doc.range? child .whole = some range)
      (doc.tree.children id) tiles ∧
    TextRange.Fill gap whole.start (opening :: (tiles ++ [closing])) whole.stop

/-- The ranges of a document fill it at every level. -/
structure Tiled (gap : Position → Position → Prop) (start stop : Position) : Prop where
  top : ∃ tiles, List.Forall₂ (fun child range ↦ doc.range? child .whole = some range)
    (doc.tree.children Tree.root) tiles ∧
    TextRange.Fill gap start ((doc.prolog.map (·.range)).toList ++ tiles) stop
  element : ∀ {id name attrs}, doc.tree.kind? id = some (.element name attrs) →
    doc.IsEmptyTag text id ∨ doc.IsTagPair text gap id

end

/-! ## From spans -/

variable {uri : String} {charset : Charset} {text : List Char} {mode : NamespaceMode}
  {doc : Document} {spans : TreeSpans} {tokens : List Token}
  {gap : Position → Position → Prop}

theorem isGap_of_gap {start stop : Nat}
    (h : Gap tokens (Source.ofChars uri charset text).body start stop) :
    Text.IsGap text ((Source.ofChars uri charset text).positionAt start)
      ((Source.ofChars uri charset text).positionAt stop) := by
  obtain ⟨parts, hparts, hstands⟩ := h
  refine ⟨Source.positionAt_le hstands, parts.map (·.raw), ?_, ?_⟩
  · intro part hpart
    obtain ⟨token, htoken, rfl⟩ := List.mem_map.1 hpart
    exact (hparts token htoken).2.2
  · rw [Source.between_positionAt hstands, List.flatMap_def]

/-- Without instructions there are no gaps. -/
theorem eq_of_gap {body : List Char} {start stop : Nat}
    (hnone : ∀ token ∈ tokens, token.form ≠ .instruction) (h : Gap tokens body start stop) :
    start = stop := by
  obtain ⟨parts, hparts, hstands⟩ := h
  cases parts with
  | nil => exact hstands.stop_eq.symm
  | cons part parts =>
    obtain ⟨hmem, hform, -⟩ := hparts part List.mem_cons_self
    exact absurd hform (hnone part hmem)

theorem fill_of_tiles {tiles : List Span} {ranges : List TextRange} {start stop : Nat}
    (htiles : Tiles Span.start Span.stop (Gap tokens (Source.ofChars uri charset text).body)
      start tiles stop)
    (hcovers : List.Forall₂ (Source.ofChars uri charset text).Covers tiles ranges)
    (hgap : ∀ {a b}, Gap tokens (Source.ofChars uri charset text).body a b →
      gap ((Source.ofChars uri charset text).positionAt a)
        ((Source.ofChars uri charset text).positionAt b))
    (hle : ∀ {p q}, gap p q → p ≤ q) :
    TextRange.Fill gap ((Source.ofChars uri charset text).positionAt start) ranges
      ((Source.ofChars uri charset text).positionAt stop) := by
  refine Tiles.fill hle (htiles.map (hcovers.imp fun span range hcovers ↦ ?_) hgap)
  exact ⟨hcovers.start_eq, hcovers.stop_eq⟩

theorem exists_ranges {source : Source} {ids : List NodeId} {tiles : List Span}
    (hlocate : locate source doc.tree spans = .ok doc)
    (h : List.Forall₂ (fun child span ↦ (spans.ranges child).whole = some span) ids tiles) :
    ∃ ranges, List.Forall₂ (fun child range ↦ doc.range? child .whole = some range) ids ranges ∧
      List.Forall₂ source.Covers tiles ranges := by
  induction h with
  | nil => exact ⟨[], .nil, .nil⟩
  | @cons child span ids tiles hspan h ih =>
    obtain ⟨ranges, hranges, hcovers⟩ := ih
    obtain ⟨range, hrange, hcover⟩ := exists_range?_of_span hlocate .whole hspan
    exact ⟨range :: ranges, .cons hrange hranges, .cons hcover hcovers⟩

private theorem isEmptyTag_of_spans {id : NodeId}
    (hlocate : locate (.ofChars uri charset text) doc.tree spans = .ok doc)
    (h : spans.IsEmptyTag (Source.ofChars uri charset text).body id)
    (hchildren : doc.tree.children id = []) : doc.IsEmptyTag text id := by
  obtain ⟨whole, closing, hwhole, hopening, hclosing, hstop, front, hfront, hslash⟩ := h
  obtain ⟨range, hrange, hcovers⟩ := exists_range?_of_span hlocate .whole hwhole
  obtain ⟨range', hrange', hcovers'⟩ := exists_range?_of_span hlocate .opening hopening
  obtain ⟨last, hlast, hlastCovers⟩ := exists_range?_of_span hlocate .closing hclosing
  obtain rfl : range = range' := TextRange.ext
    (hcovers.start_eq.trans hcovers'.start_eq.symm) (hcovers.stop_eq.trans hcovers'.stop_eq.symm)
  refine ⟨range, last, front, hrange, hrange', hlast, ?_, hlastCovers.slice hslash, ?_, hchildren⟩
  · rw [hlastCovers.stop_eq, hcovers.stop_eq, hstop]
  · refine hcovers.slice ?_
    rw [← hstop]
    exact hfront.append hslash

private theorem isTagPair_of_spans {id : NodeId} {name : QName} {opening : Span} {chars : List Char}
    (hlocate : locate (.ofChars uri charset text) doc.tree spans = .ok doc)
    (h : spans.IsTagPair (Gap tokens (Source.ofChars uri charset text).body)
      (Source.ofChars uri charset text).body doc.tree id name)
    (hopening : (spans.ranges id).opening = some opening)
    (hstands : Text.Stands (Source.ofChars uri charset text).body opening.start opening.stop chars)
    (hgap : ∀ {a b}, Gap tokens (Source.ofChars uri charset text).body a b →
      gap ((Source.ofChars uri charset text).positionAt a)
        ((Source.ofChars uri charset text).positionAt b))
    (hle : ∀ {p q}, gap p q → p ≤ q) : doc.IsTagPair text gap id := by
  obtain ⟨opening', closing, blanks, hopening', hclosing, hwhole, ⟨tiles, hwholes, htiles⟩, -,
    hname⟩ := h
  obtain rfl : opening = opening' := Option.some.inj (hopening.symm.trans hopening')
  rw [List.take_length] at hwholes
  -- The tags are the first and the last tile of the element, with no gap outside of them.
  have hall : Tiles Span.start Span.stop (Gap tokens (Source.ofChars uri charset text).body)
      opening.start (opening :: (tiles ++ [closing])) closing.stop :=
    ⟨Gap.of_divides hstands.divides.1, htiles.concat (Gap.of_stands hname)⟩
  obtain ⟨range, hrange, hcovers⟩ := exists_range?_of_span hlocate .whole hwhole
  obtain ⟨first, hfirst, hfirstCovers⟩ := exists_range?_of_span hlocate .opening hopening
  obtain ⟨last, hlast, hlastCovers⟩ := exists_range?_of_span hlocate .closing hclosing
  obtain ⟨ranges, hranges, hrangesCover⟩ := exists_ranges hlocate hwholes
  refine ⟨range, first, last, name.written.toList ++ blanks, ranges, hrange, hfirst, hlast, ?_, ?_,
    ?_, hranges, ?_⟩
  · rw [hcovers.start_eq, hfirstCovers.start_eq]
  · rw [hcovers.stop_eq, hlastCovers.stop_eq]
  · rw [hlastCovers.slice hname]
    simp only [List.append_assoc]
  · rw [hcovers.start_eq, hcovers.stop_eq]
    exact fill_of_tiles hall
      (.cons hfirstCovers (List.rel_append hrangesCover (.cons hlastCovers .nil))) hgap hle

/-! ## Documents -/

private theorem forall₂_toList {α β : Type} {r : α → β → Prop} {a? : Option α} {b? : Option β}
    (h : Option.Rel r a? b?) : List.Forall₂ r a?.toList b?.toList := by
  cases h with
  | none => exact .nil
  | some hab => exact .cons hab .nil

/-- Whatever stands for a gap, the ranges fill the document up to that. -/
theorem tiled_of_gap (h : parse (.ofChars uri charset text) mode = .ok doc)
    (hdoctype : doc.tree.hasDoctype = false)
    (hgap : ∀ {a b}, Gap (Token.scan (Source.ofChars uri charset text).body).1
        (Source.ofChars uri charset text).body a b →
      gap ((Source.ofChars uri charset text).positionAt a)
        ((Source.ofChars uri charset text).positionAt b))
    (hle : ∀ {p q}, gap p q → p ≤ q) :
    doc.Tiled text gap ((Source.ofChars uri charset text).positionAt 0)
      ((Source.ofChars uri charset text).positionAt
        (Text.byteSize (Source.ofChars uri charset text).body)) := by
  obtain ⟨spans, hbuild, hbind, hlocate⟩ := exists_spans_of_parse h
  obtain ⟨hlinked, howned⟩ := Tree.linked_of_build hbuild
  obtain ⟨hshows, hchildless⟩ := shows_of_bind hbuild hlinked howned
    (Tree.contained_of_hasDoctype hdoctype) hbind
  obtain ⟨hplace, hsettled⟩ := inPlace_of_bind hlinked howned hbind
  have hcomplete := (hsettled.complete_iff hlinked howned).2 hchildless
  constructor
  · obtain ⟨tiles, hwholes, htiles⟩ := hplace.top
    obtain ⟨ranges, hranges, hcovers⟩ := exists_ranges hlocate hwholes
    exact ⟨ranges, hranges, fill_of_tiles htiles
      (List.rel_append (forall₂_toList (rel_prologRange hlocate)) hcovers) hgap hle⟩
  · intro id name attrs hkind
    rcases hplace.node hkind (hcomplete.nodes hkind).ne_empty with hempty | hpair
    · have hchildren : doc.tree.children id = [] := by
        obtain ⟨whole, -, hwhole, hopening, -⟩ := hempty
        exact hchildless hopening hwhole
      exact Or.inl (isEmptyTag_of_spans hlocate hempty hchildren)
    · obtain ⟨start, stop, front, lexemes, hopening, -, hstands, -⟩ := hshows hkind
      exact Or.inr (isTagPair_of_spans hlocate hpair hopening hstands hgap hle)

/-- The ranges of a document without document type declaration fill its body at every level, from
where the body starts to where the file ends. Only processing instructions are left out, and if the
body has none nothing is. -/
theorem tiled_of_parse (h : parse (.ofChars uri charset text) mode = .ok doc)
    (hdoctype : doc.tree.hasDoctype = false) :
    let source := Source.ofChars uri charset text
    let start := Position.first.after source.lead source.body
    let stop := Position.first.after text []
    doc.Tiled text (Text.IsGap text) start stop ∧
      ((∀ token ∈ (Token.scan source.body).1, token.form ≠ .instruction) →
        doc.Tiled text Eq start stop) := by
  intro source start stop
  have hstart : start = source.positionAt 0 := (Source.positionAt_zero uri charset text).symm
  have hstop : stop = source.positionAt (Text.byteSize source.body) :=
    (Source.positionAt_byteSize_body uri charset text).symm
  rw [hstart, hstop]
  refine ⟨tiled_of_gap h hdoctype isGap_of_gap And.left, fun hnone ↦ ?_⟩
  refine tiled_of_gap h hdoctype (fun hgap ↦ congrArg _ (eq_of_gap hnone hgap)) ?_
  rintro p _ rfl
  exact p.le_refl

theorem tiled_of_parse_instruction :
    let text := "<a>b<?c d?><e/></a><?f?>".toList
    let plain := "x<?xml version='1.0'?><a>b<e/></a>".toList
    (∃ doc, parse (.ofChars "" .utf8 text) .aware = .ok doc ∧ doc.tree.hasDoctype = false ∧
      doc.tree.children 1 = [2, 3] ∧
      doc.Tiled text (Text.IsGap text) ⟨1, 0⟩ ⟨1, 24⟩) ∧
    ∃ doc, parse (.ofChars "" .utf8 plain) .aware = .ok doc ∧ doc.tree.hasDoctype = false ∧
      (∀ token ∈ (Token.scan (Source.ofChars "" .utf8 plain).body).1, token.form ≠ .instruction) ∧
      doc.tree.children 1 = [2, 3] ∧ doc.Tiled plain Eq ⟨1, 1⟩ ⟨1, 34⟩ := by
  intro text plain
  have hrun : (parse (.ofChars "" .utf8 text) .aware).toOption.any
      (fun doc ↦ !doc.tree.hasDoctype && doc.tree.children 1 == [2, 3]) = true := by
    decide +kernel
  have hplain : (parse (.ofChars "" .utf8 plain) .aware).toOption.any
      (fun doc ↦ !doc.tree.hasDoctype && doc.tree.children 1 == [2, 3]) = true := by
    decide +kernel
  have hnone : ∀ token ∈ (Token.scan (Source.ofChars "" .utf8 plain).body).1,
      token.form ≠ .instruction := by
    decide +kernel
  constructor
  · obtain ⟨doc, hparse, hdoc⟩ := exists_of_any hrun
    simp only [Bool.and_eq_true, Bool.not_eq_true', beq_iff_eq] at hdoc
    exact ⟨doc, hparse, hdoc.1, hdoc.2, (tiled_of_parse hparse hdoc.1).1⟩
  · obtain ⟨doc, hparse, hdoc⟩ := exists_of_any hplain
    simp only [Bool.and_eq_true, Bool.not_eq_true', beq_iff_eq] at hdoc
    exact ⟨doc, hparse, hdoc.1, hnone, hdoc.2, (tiled_of_parse hparse hdoc.1).2 hnone⟩

end Document

end XmlInspect
