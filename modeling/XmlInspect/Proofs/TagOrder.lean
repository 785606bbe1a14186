import XmlInspect.Proofs.Complete
import XmlInspect.Proofs.Walks

/-!
# Tags in the order of the text

When a walk enters an element it comes by the opening tag, and when it leaves it by the closing tag,
unless the element is all one tag. The tags that it comes by in this way follow each other in the
text. This holds whatever document type declaration the text has: an element that the replay did not
come by has no tags, and neither has anything inside.
-/

namespace XmlInspect.Document

variable {uri : String} {charset : Charset} {text : List Char} {mode : NamespaceMode}
  {source : Source} {doc : Document} {spans : TreeSpans} {tokens : List Token} {id : NodeId}
  {ids : List NodeId} {call : WalkEvent} {events front rest : List WalkEvent}
  {start mid stop start' stop' : Position}

/-! ## Tags of events -/

/-- The tag that an event of a walk stands for. An element that is all one tag has no other. -/
def tag? (doc : Document) : WalkEvent → Option TextRange
  | .enter id => doc.range? id .opening
  | .leave id =>
    if doc.range? id .opening = doc.range? id .whole then none else doc.range? id .closing
  | _ => none

/-- The tags of two events follow each other. -/
def Precedes (doc : Document) (call later : WalkEvent) : Prop :=
  ∀ tag next, doc.tag? call = some tag → doc.tag? later = some next → tag.stop ≤ next.start

/-- The tags of some events follow each other between two positions. -/
structure TagsInOrder (doc : Document) (start : Position) (events : List WalkEvent)
    (stop : Position) : Prop where
  pairwise : events.Pairwise doc.Precedes
  between : ∀ call ∈ events, ∀ tag, doc.tag? call = some tag → start ≤ tag.start ∧ tag.stop ≤ stop

namespace TagsInOrder

theorem of_tag?_eq_none (h : ∀ call ∈ events, doc.tag? call = none) :
    doc.TagsInOrder start events stop where
  pairwise := by
    refine List.pairwise_iff_forall_sublist.2 fun {call later} hsub tag _ htag ↦ ?_
    rw [h call (hsub.subset List.mem_cons_self)] at htag
    cases htag
  between := by
    intro call hcall tag htag
    rw [h call hcall] at htag
    cases htag

theorem singleton {tag : TextRange}
    (h : ∀ tag', doc.tag? call = some tag' → tag' = tag) :
    doc.TagsInOrder tag.start [call] tag.stop where
  pairwise := List.pairwise_singleton _ _
  between := by
    intro other hother tag' htag
    obtain rfl := List.mem_singleton.1 hother
    obtain rfl := h tag' htag
    exact ⟨Position.le_refl _, Position.le_refl _⟩

theorem mono (h : doc.TagsInOrder start events stop) (hstart : start' ≤ start)
    (hstop : stop ≤ stop') : doc.TagsInOrder start' events stop' where
  pairwise := h.pairwise
  between call hcall tag htag :=
    ⟨Position.le_trans hstart (h.between call hcall tag htag).1,
      Position.le_trans (h.between call hcall tag htag).2 hstop⟩

theorem append (hfront : doc.TagsInOrder start front mid) (hrest : doc.TagsInOrder mid rest stop)
    (hstart : start ≤ mid) (hstop : mid ≤ stop) : doc.TagsInOrder start (front ++ rest) stop where
  pairwise := by
    refine List.pairwise_append.2 ⟨hfront.pairwise, hrest.pairwise, ?_⟩
    intro call hcall later hlater tag next htag hnext
    exact Position.le_trans (hfront.between call hcall tag htag).2
      (hrest.between later hlater next hnext).1
  between := by
    intro call hcall
    rcases List.mem_append.1 hcall with hcall | hcall
    · exact (hfront.mono (Position.le_refl _) hstop).between call hcall
    · exact (hrest.mono hstart (Position.le_refl _)).between call hcall

end TagsInOrder

/-! ## How tags lie -/

/-- No part of a node has a range. -/
def Unbound (doc : Document) (id : NodeId) : Prop := ∀ slot, doc.range? id slot = none

/-- Nothing in a node has a range. -/
def Skipped (doc : Document) (id : NodeId) : Prop :=
  ∀ child ∈ doc.tree.children id, doc.Unbound child

/-- Some siblings follow each other between two positions. -/
def Follow (doc : Document) (start : Position) (ids : List NodeId) (stop : Position) : Prop :=
  ∃ tiles, List.Forall₂ (fun id range ↦ doc.range? id .whole = some range) ids tiles ∧
    Tiles TextRange.start TextRange.stop (· ≤ ·) start tiles stop

/-- What is known of the place of an element. -/
inductive Tagged (doc : Document) (id : NodeId) : Prop
  | unbound : doc.Unbound id → Tagged doc id
  | single {whole : TextRange} : doc.range? id .whole = some whole →
    doc.range? id .opening = some whole → doc.Skipped id → Tagged doc id
  | pair {whole opening closing : TextRange} : doc.range? id .whole = some whole →
    doc.range? id .opening = some opening → doc.range? id .closing = some closing →
    whole.start = opening.start → whole.stop = closing.stop →
    doc.Follow opening.stop (doc.tree.children id) closing.start → Tagged doc id

/-- How the tags of a document lie. -/
structure Arranged (doc : Document) : Prop where
  top : ∃ start stop, doc.Follow start (doc.tree.children Tree.root) stop
  skipped : ∀ {id}, id ≠ Tree.root → doc.Unbound id → doc.Skipped id
  tagged : ∀ {id}, id ≠ Tree.root → doc.tree.isElement id → doc.Tagged id

theorem unbound_iff (h : locate source doc.tree spans = .ok doc) :
    doc.Unbound id ↔ ∀ slot, (spans.ranges id).get slot = none := by
  refine forall_congr' fun slot ↦ ?_
  rw [← Option.isNone_iff_eq_none, ← Option.isNone_iff_eq_none, ← Option.not_isSome,
    ← Option.not_isSome, isSome_of_rel (rel_range? h id slot)]

theorem skipped_of_not_closed (h : locate source doc.tree spans = .ok doc)
    (hsettled : spans.Settled doc.tree) (hid : id ≠ Tree.root)
    (hclosed : ¬ (spans.ranges id).Closed) : doc.Skipped id := by
  intro child hchild
  have hempty : spans.ranges child = .empty := by
    by_contra hbound
    exact hclosed ((hsettled.below hid hchild).1 hbound)
  rw [unbound_iff h, hempty]
  rintro ⟨⟩ <;> rfl

theorem follow_of_tiles {tiles : List Span} {start stop : Nat}
    (h : locate (.ofChars uri charset text) doc.tree spans = .ok doc)
    (hwholes : List.Forall₂ (fun child span ↦ (spans.ranges child).whole = some span) ids tiles)
    (htiles : Tiles Span.start Span.stop (Gap tokens (Source.ofChars uri charset text).body)
      start tiles stop) :
    doc.Follow ((Source.ofChars uri charset text).positionAt start) ids
      ((Source.ofChars uri charset text).positionAt stop) := by
  obtain ⟨ranges, hranges, hcovers⟩ := exists_ranges h hwholes
  have hfill := fill_of_tiles htiles hcovers (fun hgap ↦ (isGap_of_gap hgap).1) id
  exact ⟨ranges, hranges, hfill.tiles⟩

private theorem tagged_of_spans (h : locate (.ofChars uri charset text) doc.tree spans = .ok doc)
    (hplace : spans.InPlace doc.tree tokens (Source.ofChars uri charset text).body)
    (hsettled : spans.Settled doc.tree) (hid : id ≠ Tree.root) (helement : doc.tree.isElement id) :
    doc.Tagged id := by
  obtain ⟨name, attrs, hkind⟩ := Tree.exists_kind_of_isElement helement
  by_cases hempty : spans.ranges id = .empty
  · refine .unbound ((unbound_iff h).2 ?_)
    rw [hempty]
    rintro ⟨⟩ <;> rfl
  rcases hplace.node hkind hempty with ⟨span, -, hwhole, hopening, -⟩ |
    ⟨first, last, -, hopening, hclosing, hwhole, ⟨tiles, hwholes, htiles⟩, -⟩
  · obtain ⟨whole, hwhole', hcovers⟩ := exists_range?_of_span h .whole hwhole
    obtain ⟨opening, hopening', hcovers'⟩ := exists_range?_of_span h .opening hopening
    obtain rfl : opening = whole := TextRange.ext (hcovers'.start_eq.trans hcovers.start_eq.symm)
      (hcovers'.stop_eq.trans hcovers.stop_eq.symm)
    exact .single hwhole' hopening' (skipped_of_not_closed h hsettled hid
      fun hclosed ↦ hclosed.2.2 (hopening.trans hwhole.symm))
  · obtain ⟨whole, hwhole', hcovers⟩ := exists_range?_of_span h .whole hwhole
    obtain ⟨opening, hopening', hfirst⟩ := exists_range?_of_span h .opening hopening
    obtain ⟨closing, hclosing', hlast⟩ := exists_range?_of_span h .closing hclosing
    rw [List.take_length] at hwholes
    refine .pair hwhole' hopening' hclosing' (hcovers.start_eq.trans hfirst.start_eq.symm)
      (hcovers.stop_eq.trans hlast.stop_eq.symm) ?_
    rw [hfirst.stop_eq, hlast.start_eq]
    exact follow_of_tiles h hwholes htiles

theorem arranged_of_parse (h : parse (.ofChars uri charset text) mode = .ok doc) :
    doc.Arranged := by
  obtain ⟨spans, hbuild, hbind, hlocate⟩ := exists_spans_of_parse h
  obtain ⟨hlinked, howned⟩ := Tree.linked_of_build hbuild
  obtain ⟨hplace, hsettled⟩ := inPlace_of_bind hlinked howned hbind
  refine ⟨?_, ?_, tagged_of_spans hlocate hplace hsettled⟩
  · obtain ⟨tiles, hwholes, htiles⟩ := hplace.top
    obtain ⟨start, htiles⟩ : ∃ start, Tiles Span.start Span.stop
        (Gap (Token.scan (Source.ofChars uri charset text).body).1
          (Source.ofChars uri charset text).body) start tiles
        (Text.byteSize (Source.ofChars uri charset text).body) := by
      cases hprolog : spans.prolog with
      | none =>
        rw [hprolog] at htiles
        exact ⟨0, htiles⟩
      | some prolog =>
        rw [hprolog] at htiles
        exact ⟨_, htiles.2⟩
    exact ⟨_, _, follow_of_tiles hlocate hwholes htiles⟩
  · intro id hid hunbound
    exact skipped_of_not_closed hlocate hsettled hid
      fun hclosed ↦ hclosed.1 ((unbound_iff hlocate).1 hunbound .whole)

/-! ## The walk -/

private theorem tag?_of_mem_departure? (h : call ∈ doc.tree.departure? id)
    (hsingle : doc.range? id .opening = doc.range? id .whole) : doc.tag? call = none := by
  rw [(Tree.mem_departure?.1 h).2, tag?, if_pos hsingle]

private theorem tag?_of_mem_arrival? (h : call ∈ doc.tree.arrival? id)
    (hopening : doc.range? id .opening = none) : doc.tag? call = none := by
  unfold Tree.arrival? at h
  split at h <;> cases h
  · exact hopening
  all_goals rfl

theorem ne_root_of_mem_children {p : NodeId} (htree : doc.tree.InDocumentOrder)
    (h : id ∈ doc.tree.children p) : id ≠ Tree.root := by
  rintro rfl
  cases htree.parent?_root.symm.trans (htree.mem_children_iff.1 h)

/-- Nodes without ranges give no tags, nor does anything below them. -/
theorem Arranged.tag?_eq_none (hdoc : doc.Arranged) (htree : doc.tree.InDocumentOrder)
    (h : doc.tree.Brackets ids events)
    (hids : ∀ id ∈ ids, id ≠ Tree.root ∧ doc.Unbound id) :
    ∀ call ∈ events, doc.tag? call = none := by
  induction h with
  | nil => simp
  | @cons id ids inside after _ _ ihinside ihafter =>
    obtain ⟨hid, hunbound⟩ := hids id List.mem_cons_self
    intro call hcall
    simp only [List.mem_append, Option.mem_toList] at hcall
    rcases hcall with ((hcall | hcall) | hcall) | hcall
    · exact tag?_of_mem_arrival? hcall (hunbound .opening)
    · exact ihinside (fun child hchild ↦ ⟨ne_root_of_mem_children htree hchild,
        hdoc.skipped hid hunbound child hchild⟩) call hcall
    · exact tag?_of_mem_departure? hcall ((hunbound .opening).trans (hunbound .whole).symm)
    · exact ihafter (fun other hother ↦ hids other (List.mem_cons_of_mem _ hother)) call hcall

/-- The tags of siblings that follow each other and of what is below them are in order. The
induction is on the recursion of the walk. -/
theorem Arranged.tagsInOrder (hdoc : doc.Arranged) (htree : doc.tree.InDocumentOrder)
    (hlinked : doc.tree.Linked) (h : doc.tree.Brackets ids events)
    (hids : ∀ id ∈ ids, id ≠ Tree.root) (hfollow : doc.Follow start ids stop) :
    doc.TagsInOrder start events stop := by
  induction h generalizing start stop with
  | nil => exact .of_tag?_eq_none (by simp)
  | @cons id ids inside after hinside hafter ihinside ihafter =>
    obtain ⟨_, hranges, htiles⟩ := hfollow
    obtain _ | ⟨hrange, hranges⟩ := hranges
    rename_i range tiles
    obtain ⟨hstart, htiles⟩ := htiles
    have hid := hids id List.mem_cons_self
    have hskipped (hskip : doc.Skipped id) : ∀ call ∈ inside, doc.tag? call = none :=
      hdoc.tag?_eq_none htree hinside
        fun child hchild ↦ ⟨ne_root_of_mem_children htree hchild, hskip child hchild⟩
    have hself : doc.TagsInOrder range.start ((doc.tree.arrival? id).toList ++ inside ++
        (doc.tree.departure? id).toList) range.stop := by
      by_cases helement : doc.tree.isElement id
      · rw [Tree.arrival?_of_isElement helement, Tree.departure?, if_pos helement,
          Option.toList_some, Option.toList_some]
        cases hdoc.tagged hid helement with
        | unbound hunbound => cases (hunbound .whole).symm.trans hrange
        | single hwhole hopening hskip =>
          -- An element that is all tag has no other, and nothing in it has one either.
          obtain rfl := Option.some.inj (hrange.symm.trans hwhole)
          rw [List.append_assoc]
          refine .append (.singleton fun tag htag ↦ Option.some.inj (htag.symm.trans hopening)) ?_
            (Position.le_of_lt range.start_lt_stop) (Position.le_refl _)
          refine .of_tag?_eq_none fun call hcall ↦ ?_
          rcases List.mem_append.1 hcall with hcall | hcall
          · exact hskipped hskip call hcall
          · rw [List.mem_singleton.1 hcall, tag?, if_pos (hopening.trans hwhole.symm)]
        | @pair whole opening closing hwhole hopening hclosing hfirst hlast hinner =>
          obtain rfl := Option.some.inj (hrange.symm.trans hwhole)
          rw [hfirst, hlast]
          have hle : opening.stop ≤ closing.start := by
            obtain ⟨tiles, -, htiles⟩ := hinner
            exact htiles.start_le_stop fun h ↦ h
          have hopeningLe := Position.le_of_lt opening.start_lt_stop
          have hclosingLe := Position.le_of_lt closing.start_lt_stop
          refine .append (.append (.singleton fun tag htag ↦
              Option.some.inj (htag.symm.trans hopening))
            (ihinside (fun child ↦ ne_root_of_mem_children htree) hinner) hopeningLe hle)
            (.singleton fun tag htag ↦ ?_) (Position.le_trans hopeningLe hle) hclosingLe
          rw [tag?] at htag
          split at htag
          · cases htag
          · exact Option.some.inj (htag.symm.trans hclosing)
      · rw [hlinked.children_eq_nil hid helement] at hinside
        cases hinside
        refine .of_tag?_eq_none fun call hcall ↦ ?_
        rw [Tree.departure?, if_neg helement] at hcall
        simp only [Option.toList_none, List.append_nil, Option.mem_toList] at hcall
        cases call with
        | enter n => exact absurd (Tree.isElement_of_enter_mem_arrival? hcall) helement
        | leave n => cases (Tree.node_of_mem_arrival? hcall).2
        | _ => rfl
    refine .append (hself.mono hstart (Position.le_refl _))
      (ihafter (fun other hother ↦ hids other (List.mem_cons_of_mem _ hother))
        ⟨tiles, hranges, htiles⟩)
      (Position.le_trans hstart (Position.le_of_lt range.start_lt_stop)) ?_
    exact htiles.start_le_stop fun h ↦ h

/-- An element has a closing tag apart from its opening tag if anything in it has a range. -/
theorem Arranged.exists_tag?_leave (hdoc : doc.Arranged) (hid : id ≠ Tree.root)
    (helement : doc.tree.isElement id) {child : NodeId} (hchild : child ∈ doc.tree.children id)
    (hbound : ¬ doc.Unbound child) :
    ∃ range, doc.range? id .closing = some range ∧ doc.tag? (.leave id) = some range := by
  cases hdoc.tagged hid helement with
  | unbound hunbound => exact absurd (hdoc.skipped hid hunbound child hchild) hbound
  | single _ _ hskip => exact absurd (hskip child hchild) hbound
  | @pair whole opening closing hwhole hopening hclosing _ hlast hinner =>
    refine ⟨closing, hclosing, ?_⟩
    rw [tag?, if_neg, hclosing]
    rw [hopening, hwhole]
    rintro ⟨⟩
    obtain ⟨tiles, -, htiles⟩ := hinner
    have hlt := Position.lt_of_le_of_lt (htiles.start_le_stop fun h ↦ h) closing.start_lt_stop
    rw [hlast] at hlt
    exact Position.lt_irrefl _ hlt

/-- A walk comes by the tags of a document in the order of the text. -/
theorem pairwise_precedes_of_parse (h : parse (.ofChars uri charset text) mode = .ok doc) :
    doc.tree.events.Pairwise doc.Precedes := by
  obtain ⟨spans, hbuild, -, -⟩ := exists_spans_of_parse h
  have htree := Tree.inDocumentOrder_of_build hbuild
  have hlinked := (Tree.linked_of_build hbuild).1
  have hdoc := arranged_of_parse h
  obtain ⟨start, stop, hfollow⟩ := hdoc.top
  exact (hdoc.tagsInOrder htree hlinked htree.brackets_children_root
    (fun child ↦ ne_root_of_mem_children htree) hfollow).pairwise

end XmlInspect.Document
