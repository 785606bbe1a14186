import XmlInspect.Proofs.Contiguous

/-!
# Every part has a range

Which parts a node or attribute has depends on its kind, and a document should know the place of
each of them and of nothing else. The replay never fills a slot twice, whatever tree and text it is
given, but it can go wrong in another way: if it takes an element with children for one with an
empty tag, nobody comes by the children. This is the only way.
-/

namespace XmlInspect

namespace Document

/-- Exactly the parts of every node and every attribute have ranges. -/
structure Complete (doc : Document) : Prop where
  nodes : ∀ {id kind}, doc.tree.kind? id = some kind →
    ∀ slot, (doc.range? id slot).isSome ↔ slot ∈ kind.slots
  attrs : ∀ {a attr}, doc.tree.attr? a = some attr →
    ∀ slot, (doc.attrRange? a slot).isSome ↔ slot ∈ Attribute.slots

variable {uri : String} {charset : Charset} {text : List Char} {mode : NamespaceMode}
  {source : Source} {doc : Document} {spans : TreeSpans} {id : NodeId}

theorem isSome_of_rel {α β : Type} {r : α → β → Prop} {a? : Option α} {b? : Option β}
    (h : Option.Rel r a? b?) : a?.isSome = b?.isSome := by
  cases h <;> rfl

private theorem complete_iff_spans (h : locate source doc.tree spans = .ok doc) :
    doc.Complete ↔ spans.Complete doc.tree := by
  constructor
  · intro hcomplete
    refine ⟨fun hkind slot ↦ ?_, fun hattr slot ↦ ?_⟩
    · rw [isSome_of_rel (rel_range? h _ slot)]
      exact hcomplete.nodes hkind slot
    · rw [isSome_of_rel (rel_attrRange? h _ slot)]
      exact hcomplete.attrs hattr slot
  · intro hcomplete
    refine ⟨fun hkind slot ↦ ?_, fun hattr slot ↦ ?_⟩
    · rw [← isSome_of_rel (rel_range? h _ slot)]
      exact hcomplete.nodes hkind slot
    · rw [← isSome_of_rel (rel_attrRange? h _ slot)]
      exact hcomplete.attrs hattr slot

private theorem opening_ne_whole {tokens : List Token} {name : QName} {opening whole : TextRange}
    (h : locate (.ofChars uri charset text) doc.tree spans = .ok doc)
    (hpair : spans.IsTagPair (Gap tokens (Source.ofChars uri charset text).body)
      (Source.ofChars uri charset text).body doc.tree id name)
    (hopening : doc.range? id .opening = some opening)
    (hwhole : doc.range? id .whole = some whole) : opening ≠ whole := by
  obtain ⟨first, closing, -, hfirst, hclosing, hspan, ⟨tiles, hwholes, htiles⟩, -⟩ := hpair
  obtain ⟨opening', hopening', hfirstCovers⟩ := exists_range?_of_span h .opening hfirst
  obtain ⟨last, -, hlastCovers⟩ := exists_range?_of_span h .closing hclosing
  obtain ⟨whole', hwhole', hcovers⟩ := exists_range?_of_span h .whole hspan
  cases hopening.symm.trans hopening'
  cases hwhole.symm.trans hwhole'
  obtain ⟨ranges, -, hrangesCover⟩ := exists_ranges h hwholes
  have hfill := fill_of_tiles htiles hrangesCover isGap_of_gap And.left
  -- Between the end of the opening tag and that of the element stands at least the closing tag.
  have hlt : opening.stop < whole.stop := by
    rw [hfirstCovers.stop_eq, hcovers.stop_eq]
    refine Position.lt_of_le_of_lt (hfill.tiles.start_le_stop And.left) ?_
    rw [← hlastCovers.start_eq, ← hlastCovers.stop_eq]
    exact last.start_lt_stop
  rintro rfl
  exact Position.lt_irrefl _ hlt

private theorem childless_iff_spans {tokens : List Token} (hlinked : doc.tree.Linked)
    (h : locate (.ofChars uri charset text) doc.tree spans = .ok doc)
    (hplace : spans.InPlace doc.tree tokens (Source.ofChars uri charset text).body)
    (hsettled : spans.Settled doc.tree) :
    (∀ {id range}, doc.range? id .opening = some range → doc.range? id .whole = some range →
        doc.tree.children id = []) ↔
      ∀ {id span}, (spans.ranges id).opening = some span → (spans.ranges id).whole = some span →
        doc.tree.children id = [] := by
  constructor
  · intro hranges id span hopening hwhole
    obtain ⟨opening, hopening', hcovers⟩ := exists_range?_of_span h .opening hopening
    obtain ⟨whole, hwhole', hcovers'⟩ := exists_range?_of_span h .whole hwhole
    obtain rfl : opening = whole := TextRange.ext (hcovers.start_eq.trans hcovers'.start_eq.symm)
      (hcovers.stop_eq.trans hcovers'.stop_eq.symm)
    exact hranges hopening' hwhole'
  · intro hspans id range hopening hwhole
    by_contra hchildren
    have hopen : (spans.ranges id).opening ≠ none := by
      have hsome := isSome_of_rel (rel_range? h id .opening)
      rw [hopening] at hsome
      exact Option.isSome_iff_ne_none.1 hsome
    rcases hlinked.isElement hchildren with rfl | helement
    · obtain ⟨whole, hroot⟩ := hsettled.root
      exact hopen (congrArg Ranges.opening hroot)
    · obtain ⟨name, attrs, hkind⟩ := Tree.exists_kind_of_isElement helement
      have hne : spans.ranges id ≠ .empty := fun hempty ↦ hopen (congrArg Ranges.opening hempty)
      rcases hplace.node hkind hne with ⟨whole, -, hwhole', hopening', -⟩ | hpair
      · exact hchildren (hspans hopening' hwhole')
      · exact opening_ne_whole h hpair hopening hwhole rfl

/-- No slot is filled twice in any attempt to parse a source. -/
theorem not_isTwice_of_parse {fault : Mismatch}
    (h : parse source mode = .error (.internal (.mismatch fault))) : fault.isTwice = false := by
  rcases parse_eq_error h with ⟨_, -, hfault⟩ | ⟨tree, hbuild, ⟨_, hbind, hfault⟩ |
    ⟨_, -, _, -, hfault⟩⟩
  · cases hfault
  · cases hfault
    obtain ⟨hlinked, howned⟩ := Tree.linked_of_build hbuild
    exact not_isTwice_of_bind (Binder.invariant_filled hlinked howned _ _) (fun h ↦ h.root)
      (Binder.filled_initial tree) hbind
  · cases hfault

/-- No slot is filled twice, and a document has exactly the ranges it should have if and only if no
element that is all tag has children. This is so whenever the document type declaration, if there is
one, ends where it should. -/
theorem complete_iff_of_parse (uri : String) (charset : Charset) (text : List Char)
    (mode : NamespaceMode) :
    (∀ {fault}, parse (.ofChars uri charset text) mode = .error (.internal (.mismatch fault)) →
        fault.isTwice = false) ∧
      ∀ {doc}, parse (.ofChars uri charset text) mode = .ok doc →
        (doc.Complete ↔ ∀ {id range}, doc.range? id .opening = some range →
          doc.range? id .whole = some range → doc.tree.children id = []) ∧
        ((∀ {id name raw}, doc.tree.kind? id = some (.doctype name raw) →
          Text.isSelfContained raw.toList = true) → doc.Complete) := by
  refine ⟨not_isTwice_of_parse, fun {doc} h ↦ ?_⟩
  obtain ⟨spans, hbuild, hbind, hlocate⟩ := exists_spans_of_parse h
  obtain ⟨hlinked, howned⟩ := Tree.linked_of_build hbuild
  obtain ⟨hplace, hsettled⟩ := inPlace_of_bind hlinked howned hbind
  have hiff := hsettled.complete_iff hlinked howned
  constructor
  · rw [complete_iff_spans hlocate, hiff]
    exact (childless_iff_spans hlinked hlocate hplace hsettled).symm
  · intro hself
    obtain ⟨entities, hcontained⟩ := Tree.exists_contained hbuild hself
    rw [complete_iff_spans hlocate, hiff]
    exact (shows_of_bind hbuild hlinked howned hcontained hbind).2

theorem complete_of_parse_entity :
    let marked := "\uFEFF\uFEFF<a/>".toList
    let text := "<!DOCTYPE a [<!ENTITY b '<c/>'>]><a d='e'><!--f--><g/>h</a>".toList
    (∃ fault, parse (.ofChars "" .utf8 marked) .aware = .error (.internal (.mismatch fault)) ∧
      fault.isTwice = false) ∧
    ∃ doc, parse (.ofChars "" .utf8 text) .aware = .ok doc ∧
      doc.tree.kind? 1 = some (.doctype "a" "a [<!ENTITY b '<c/>'>]") ∧
      (∀ {id name raw}, doc.tree.kind? id = some (.doctype name raw) →
        Text.isSelfContained raw.toList = true) ∧ doc.Complete := by
  intro marked text
  constructor
  · have hrun : (match parse (.ofChars "" .utf8 marked) .aware with
        | .error (.internal (.mismatch _)) => true
        | _ => false) = true := by
      decide +kernel
    split at hrun
    · rename_i fault hparse
      exact ⟨fault, hparse, (complete_iff_of_parse "" .utf8 marked .aware).1 hparse⟩
    · cases hrun
  · have hrun : (parse (.ofChars "" .utf8 text) .aware).toOption.any (fun doc ↦
        doc.tree.kind? 1 == some (.doctype "a" "a [<!ENTITY b '<c/>'>]")) = true := by
      decide +kernel
    obtain ⟨doc, hparse, hdoc⟩ := exists_of_any hrun
    have hkind := beq_iff_eq.1 hdoc
    have hself : ∀ {id name raw}, doc.tree.kind? id = some (.doctype name raw) →
        Text.isSelfContained raw.toList = true := by
      intro id name raw hkind'
      obtain ⟨spans, hbuild, -, -⟩ := exists_spans_of_parse hparse
      obtain rfl := Tree.doctype_unique_of_build hbuild hkind hkind'
      rw [hkind] at hkind'
      cases hkind'
      decide +kernel
    exact ⟨doc, hparse, hkind, hself,
      ((complete_iff_of_parse "" .utf8 text .aware).2 hparse).2 hself⟩

/-- With an apostrophe left open in the declaration, the scan takes the second element for the first
one, and nobody comes by the text inside that. -/
theorem not_complete_of_apostrophe :
    let text := "<!DOCTYPE a '><a>x</a><?pi '><a/><?x?>".toList
    ∃ doc, parse (.ofChars "" .utf8 text) .aware = .ok doc ∧
      doc.tree.kind? 3 = some (.text "x") ∧ doc.range? 3 .whole = none ∧ ¬ doc.Complete := by
  intro text
  have hrun : (parse (.ofChars "" .utf8 text) .aware).toOption.any (fun doc ↦
      doc.tree.kind? 3 == some (.text "x") && doc.range? 3 .whole == none) = true := by
    decide +kernel
  obtain ⟨doc, hparse, hdoc⟩ := exists_of_any hrun
  simp only [Bool.and_eq_true, beq_iff_eq] at hdoc
  obtain ⟨hkind, hrange⟩ := hdoc
  refine ⟨doc, hparse, hkind, hrange, fun hcomplete ↦ ?_⟩
  have hsome := (hcomplete.nodes hkind .whole).2 (by simp [NodeKind.slots])
  rw [hrange] at hsome
  cases hsome

end Document

end XmlInspect
