import Mathlib.Data.List.ReduceOption
import XmlInspect.Check.Newline
import XmlInspect.Proofs.Independence
import XmlInspect.Proofs.Walks

/-!
# Lines that hold too much

What is wrong with the lines inside an element can be said one tag at a time. The child elements and
the closing tag should each start on a new line, and a tag that does not is *crowded*. The tags
inside an element are numbered, the closing tag last, so that a crowded tag has a place: the element
it is inside of, and its number there. Places are visited in an order, that of the elements on a
walk and then that of the numbers.

On every line the tag that is visited first gets an issue and no other does. What makes this less
than plain is that tags of different elements meet on a line, and that the lines which have an issue
are remembered while the walk goes on.
-/

namespace XmlInspect

namespace NewlineCheck

/-! ## Crowded tags -/

section

variable (doc : Document) (id : NodeId)

/-- A tag inside an element starts on the line on which what is before it ends: the opening tag of
the element before the first child element, the child element before any other, and the last child
element before the closing tag. -/
inductive Crowded : Nat → TextRange → String → Prop
  | first {child : NodeId} {before tag : TextRange} :
    (doc.tree.elementChildren id)[0]? = some child →
      doc.range? id .opening = some before → doc.range? child .opening = some tag →
      tag.start.line = before.stop.line → Crowded 0 tag elementMessage
  | next {k : Nat} {previous child : NodeId} {before tag : TextRange} :
    (doc.tree.elementChildren id)[k]? = some previous →
      (doc.tree.elementChildren id)[k + 1]? = some child →
      doc.range? previous .whole = some before → doc.range? child .opening = some tag →
      tag.start.line = before.stop.line → Crowded (k + 1) tag elementMessage
  | closing {last : NodeId} {before tag : TextRange} :
    (doc.tree.elementChildren id).getLast? = some last →
      doc.range? last .whole = some before → doc.range? id .closing = some tag →
      tag.start.line = before.stop.line →
      Crowded (doc.tree.elementChildren id).length tag closingMessage

/-- A crowded tag inside an element, if neither that element nor one around it holds text. -/
structure Violates (k : Nat) (tag : TextRange) (message : String) : Prop where
  isElement : doc.tree.isElement id
  holdsNoText : ∀ p, p = id ∨ doc.tree.Below id p → doc.tree.isElement p →
    doc.tree.holdsText p = false
  crowded : Crowded doc id k tag message

end

/-- The place of one tag is visited before that of another: the element of the first is entered
before that of the second, or both tags are inside the same element and the first has the lower
number. -/
def Earlier (tree : Tree) (place later : NodeId × Nat) : Prop :=
  [.enter place.1, .enter later.1].Sublist tree.events ∨ place.1 = later.1 ∧ place.2 < later.2

variable {doc : Document} {id : NodeId} {k : Nat} {tag : TextRange} {message : String}

/-! ## The first on each line -/

/-- Whether an issue is about something that starts on a line. -/
def startsOn (line : Nat) (issue : Issue) : Bool := issue.range.any (·.start.line == line)

section

variable {violations : List Violation} {reported : List Nat} {issue : Issue}

theorem issuesOf_cons_of_mem (h : tag.start.line ∈ reported) (message : String)
    (violations : List Violation) :
    issuesOf reported ((tag, message) :: violations) = issuesOf reported violations := by
  rw [issuesOf, if_pos (List.contains_iff_mem.2 h)]

theorem issuesOf_cons_of_not_mem (h : tag.start.line ∉ reported) (message : String)
    (violations : List Violation) :
    (issuesOf reported ((tag, message) :: violations)).1 =
      Issue.located rule tag message :: (issuesOf (tag.start.line :: reported) violations).1 := by
  rw [issuesOf, if_neg (mt List.contains_iff_mem.1 h)]

/-- A line that has an issue already gets no further one. Of what is on another line, only what
comes first does. -/
theorem mem_issuesOf_iff :
    issue ∈ (issuesOf reported violations).1 ↔ ∃ before tag message after,
      violations = before ++ (tag, message) :: after ∧ issue = Issue.located rule tag message ∧
        tag.start.line ∉ reported ∧ ∀ other ∈ before, other.1.start.line ≠ tag.start.line := by
  -- Each issue adds to the lines that have one, so these are any lines.
  induction violations generalizing reported with
  | nil => simp [issuesOf]
  | cons violation violations ih =>
    obtain ⟨range, text⟩ := violation
    by_cases hmem : range.start.line ∈ reported
    · rw [issuesOf_cons_of_mem hmem, ih]
      constructor
      · rintro ⟨before, tag, message, after, rfl, rfl, hline, hbefore⟩
        refine ⟨(range, text) :: before, tag, message, after, rfl, rfl, hline, ?_⟩
        refine List.forall_mem_cons.2 ⟨fun heq ↦ hline (heq ▸ hmem), hbefore⟩
      · rintro ⟨before, tag, message, after, hviolations, rfl, hline, hbefore⟩
        cases before with
        | nil =>
          cases hviolations
          exact absurd hmem hline
        | cons first before =>
          cases hviolations
          exact ⟨before, tag, message, after, rfl, rfl, hline, (List.forall_mem_cons.1 hbefore).2⟩
    · rw [issuesOf_cons_of_not_mem hmem, List.mem_cons, ih]
      constructor
      · rintro (rfl | ⟨before, tag, message, after, rfl, rfl, hline, hbefore⟩)
        · exact ⟨[], range, text, violations, rfl, rfl, hmem, by simp⟩
        · rw [List.mem_cons, not_or] at hline
          refine ⟨(range, text) :: before, tag, message, after, rfl, rfl, hline.2, ?_⟩
          exact List.forall_mem_cons.2 ⟨Ne.symm hline.1, hbefore⟩
      · rintro ⟨before, tag, message, after, hviolations, rfl, hline, hbefore⟩
        cases before with
        | nil =>
          cases hviolations
          exact .inl rfl
        | cons first before =>
          cases hviolations
          obtain ⟨hne, hbefore⟩ := List.forall_mem_cons.1 hbefore
          refine .inr ⟨before, tag, message, after, rfl, rfl, ?_, hbefore⟩
          rw [List.mem_cons, not_or]
          exact ⟨Ne.symm hne, hline⟩

private theorem countP_issuesOf (violations : List Violation) (reported : List Nat) (line : Nat) :
    (issuesOf reported violations).1.countP (startsOn line) =
      if line ∈ reported then 0
      else if violations.any (·.1.start.line == line) then 1 else 0 := by
  induction violations generalizing reported with
  | nil => simp [issuesOf]
  | cons violation violations ih =>
    obtain ⟨range, text⟩ := violation
    rw [List.any_cons]
    by_cases hmem : range.start.line ∈ reported
    · rw [issuesOf_cons_of_mem hmem, ih]
      by_cases hline : range.start.line = line
      · rw [if_pos (hline ▸ hmem), if_pos (hline ▸ hmem)]
      · rw [beq_eq_false_iff_ne.2 hline, Bool.false_or]
    · rw [issuesOf_cons_of_not_mem hmem, List.countP_cons, ih]
      by_cases hline : range.start.line = line
      · subst hline
        simp [startsOn, Issue.located, hmem]
      · rw [beq_eq_false_iff_ne.2 hline, Bool.false_or]
        simp [startsOn, Issue.located, hline, Ne.symm hline]

end

/-! ## The tags inside an element -/

section

variable (doc)

/-- For each child element in turn, and for the closing tag after them, the violation that it is, if
it is one. The first of them comes behind `before`. -/
def slots (closing : Option TextRange) : Option TextRange → List NodeId → List (Option Violation)
  | before, [] => [violation? before closing closingMessage]
  | before, child :: children =>
    violation? before (doc.range? child .opening) elementMessage ::
      slots closing (doc.range? child .whole) children

variable {doc} {before closing : Option TextRange} {first last previous child : NodeId}
  {children : List NodeId}

private theorem violation?_eq_some_iff {text : String} :
    violation? before closing text = some (tag, message) ↔ ∃ range, before = some range ∧
      closing = some tag ∧ tag.start.line = range.stop.line ∧ message = text := by
  unfold violation?
  split
  · simp only [Option.ite_none_right_eq_some, Option.some.injEq, Prod.mk.injEq]
    constructor
    · rintro ⟨hline, rfl, rfl⟩
      exact ⟨_, rfl, rfl, hline, rfl⟩
    · rintro ⟨_, rfl, rfl, hline, rfl⟩
      exact ⟨hline, rfl, rfl⟩
  · rename_i hnone
    refine iff_of_false nofun ?_
    rintro ⟨range, rfl, rfl, -⟩
    exact hnone _ _ rfl rfl

/-- To look at the first of some children, at pairs of them and at the last is to look at one after
the other. -/
theorem reduceOption_slots (before closing : Option TextRange)
    (hfirst : children.head? = some first) (hlast : children.getLast? = some last) :
    (slots doc closing before children).reduceOption =
      (violation? before (doc.range? first .opening) elementMessage).toList ++
        siblingViolations doc children ++
        (violation? (doc.range? last .whole) closing closingMessage).toList := by
  induction children generalizing before first with
  | nil => cases hfirst
  | cons child children ih =>
    obtain rfl : child = first := Option.some.inj hfirst
    rw [slots, ← List.singleton_append, List.reduceOption_append, List.reduceOption_singleton,
      List.append_assoc]
    congr 1
    cases children with
    | nil =>
      obtain rfl : child = last := Option.some.inj hlast
      rfl
    | cons second children =>
      rw [List.getLast?_cons_cons] at hlast
      rw [ih _ rfl hlast, siblingViolations]

private theorem length_slots (before closing : Option TextRange) (children : List NodeId) :
    (slots doc closing before children).length = children.length + 1 := by
  induction children generalizing before with
  | nil => rfl
  | cons child children ih => rw [slots, List.length_cons, ih, List.length_cons]

theorem getElem?_slots_zero (before closing : Option TextRange) (h : children[0]? = some child) :
    (slots doc closing before children)[0]? =
      some (violation? before (doc.range? child .opening) elementMessage) := by
  cases children with
  | nil => cases h
  | cons child' children =>
    cases h
    rfl

private theorem getElem?_slots_succ (before closing : Option TextRange)
    (hprevious : children[k]? = some previous) (hchild : children[k + 1]? = some child) :
    (slots doc closing before children)[k + 1]? = some
      (violation? (doc.range? previous .whole) (doc.range? child .opening) elementMessage) := by
  induction children generalizing before k with
  | nil => cases hprevious
  | cons first children ih =>
    rw [slots, List.getElem?_cons_succ]
    rw [List.getElem?_cons_succ] at hchild
    cases k with
    | zero =>
      cases hprevious
      exact getElem?_slots_zero _ _ hchild
    | succ k =>
      rw [List.getElem?_cons_succ] at hprevious
      exact ih _ hprevious hchild

private theorem getElem?_slots_length (before closing : Option TextRange)
    (hlast : children.getLast? = some last) :
    (slots doc closing before children)[children.length]? =
      some (violation? (doc.range? last .whole) closing closingMessage) := by
  induction children generalizing before with
  | nil => cases hlast
  | cons child children ih =>
    rw [slots, List.length_cons, List.getElem?_cons_succ]
    cases children with
    | nil =>
      cases hlast
      rfl
    | cons second children =>
      rw [List.getLast?_cons_cons] at hlast
      exact ih _ hlast

end

/-- The crowded tags inside an element are found by their numbers. -/
theorem crowded_iff (hchildren : doc.tree.elementChildren id ≠ []) :
    Crowded doc id k tag message ↔
      (slots doc (doc.range? id .closing) (doc.range? id .opening)
        (doc.tree.elementChildren id))[k]? = some (some (tag, message)) := by
  constructor
  · intro h
    cases h with
    | first hchild hbefore htag hline =>
      rw [getElem?_slots_zero _ _ hchild, Option.some.injEq, violation?_eq_some_iff]
      exact ⟨_, hbefore, htag, hline, rfl⟩
    | next hprevious hchild hbefore htag hline =>
      rw [getElem?_slots_succ _ _ hprevious hchild, Option.some.injEq, violation?_eq_some_iff]
      exact ⟨_, hbefore, htag, hline, rfl⟩
    | closing hlast hbefore htag hline =>
      rw [getElem?_slots_length _ _ hlast, Option.some.injEq, violation?_eq_some_iff]
      exact ⟨_, hbefore, htag, hline, rfl⟩
  · intro h
    have hk := (List.getElem?_eq_some_iff.1 h).1
    rw [length_slots, Nat.lt_succ_iff] at hk
    cases k with
    | zero =>
      have hchild := List.getElem?_eq_getElem (List.length_pos_of_ne_nil hchildren)
      rw [getElem?_slots_zero _ _ hchild, Option.some.injEq, violation?_eq_some_iff] at h
      obtain ⟨_, hbefore, htag, hline, rfl⟩ := h
      exact .first hchild hbefore htag hline
    | succ k =>
      obtain heq | hlt := hk.eq_or_lt
      · have hlast := List.getLast?_eq_some_getLast hchildren
        rw [heq, getElem?_slots_length _ _ hlast, Option.some.injEq, violation?_eq_some_iff] at h
        obtain ⟨_, hbefore, htag, hline, rfl⟩ := h
        exact heq ▸ .closing hlast hbefore htag hline
      · have hprevious := List.getElem?_eq_getElem hk
        have hchild := List.getElem?_eq_getElem hlt
        rw [getElem?_slots_succ _ _ hprevious hchild, Option.some.injEq,
          violation?_eq_some_iff] at h
        obtain ⟨_, hbefore, htag, hline, rfl⟩ := h
        exact .next hprevious hchild hbefore htag hline

private theorem Crowded.elementChildren_ne_nil (h : Crowded doc id k tag message) :
    doc.tree.elementChildren id ≠ [] := by
  intro hnil
  cases h with
  | first hchild | next hchild => simp [hnil] at hchild
  | closing hlast => simp [hnil] at hlast

/-! ## All places -/

/-- A violation with its place. -/
abbrev Placed := (NodeId × Nat) × Violation

section

variable (doc)

/-- The violations directly inside an element with their places. -/
def placesAt (id : NodeId) : List Placed :=
  if doc.tree.elementChildren id = [] ∨ doc.tree.inMixedContent id then
    []
  else
    (slots doc (doc.range? id .closing) (doc.range? id .opening)
      (doc.tree.elementChildren id)).zipIdx.filterMap fun (slot, k) ↦ slot.map ((id, k), ·)

/-- The violations of a document with their places. -/
def places : List Placed :=
  doc.tree.events.flatMap fun
    | .enter id => placesAt doc id
    | _ => []

end

private theorem inMixedContent_eq_false_iff (htree : doc.tree.InDocumentOrder) :
    doc.tree.inMixedContent id = false ↔ ∀ p, p = id ∨ doc.tree.Below id p →
      doc.tree.isElement p → doc.tree.holdsText p = false := by
  simp only [Tree.inMixedContent, List.any_eq_false, List.mem_cons, htree.mem_ancestors_iff,
    Bool.and_eq_true, not_and, Bool.not_eq_true]

theorem mem_placesAt_iff {place : NodeId × Nat} :
    (place, tag, message) ∈ placesAt doc id ↔ place.1 = id ∧
      doc.tree.inMixedContent id = false ∧ Crowded doc id place.2 tag message := by
  obtain ⟨id', k⟩ := place
  unfold placesAt
  split
  · rename_i hnone
    refine iff_of_false (List.not_mem_nil) ?_
    rintro ⟨-, hmixed, hcrowded⟩
    obtain hnil | htext := hnone
    · exact hcrowded.elementChildren_ne_nil hnil
    · exact Bool.false_ne_true (hmixed.symm.trans htext)
  · rename_i hsome
    obtain ⟨hchildren, hmixed⟩ := not_or.1 hsome
    rw [crowded_iff hchildren, List.mem_filterMap]
    constructor
    · rintro ⟨⟨slot, j⟩, hmem, hslot⟩
      obtain ⟨violation, rfl, heq⟩ := Option.map_eq_some_iff.1 hslot
      cases heq
      exact ⟨rfl, Bool.eq_false_iff.2 hmixed, List.mem_zipIdx_iff_getElem?.1 hmem⟩
    · rintro ⟨rfl, -, hslot⟩
      exact ⟨(some (tag, message), k), List.mem_zipIdx_iff_getElem?.2 hslot, rfl⟩

private theorem map_snd_placesAt (hopening : (doc.range? id .opening).isSome)
    (hclosing : (doc.range? id .closing).isSome) :
    (placesAt doc id).map (·.2) = violationsAt doc id := by
  obtain ⟨opening, hopening⟩ := Option.isSome_iff_exists.1 hopening
  obtain ⟨closing, hclosing⟩ := Option.isSome_iff_exists.1 hclosing
  have hsnd (slots : List (Option Violation)) :
      (slots.zipIdx.filterMap fun (slot, k) ↦ slot.map fun v ↦ ((id, k), v)).map (·.2) =
        slots.reduceOption := by
    conv_rhs => rw [← List.zipIdx_map_fst 0 slots, List.reduceOption, List.filterMap_map]
    rw [List.map_filterMap]
    congr 1
    funext ⟨slot, k⟩
    exact (Option.map_map ..).trans Option.map_id'
  unfold placesAt violationsAt
  cases hchildren : doc.tree.elementChildren id with
  | nil => rfl
  | cons first children =>
    have hlast := List.getLast?_eq_some_getLast (List.cons_ne_nil first children)
    simp only [reduceCtorEq, false_or, List.head?_cons, hlast, hopening, hclosing]
    split
    · rfl
    · rw [hsnd, reduceOption_slots _ _ rfl hlast]

private theorem pairwise_placesAt (doc : Document) (id : NodeId) :
    (placesAt doc id).Pairwise fun placed later ↦ placed.1.2 < later.1.2 := by
  unfold placesAt
  split
  · exact .nil
  · refine (pairwise_zipIdx _).filterMap _
      fun ⟨slot, k⟩ ⟨slot', k'⟩ hlt placed hplaced later hlater ↦ ?_
    obtain ⟨-, -, rfl⟩ := Option.map_eq_some_iff.1 hplaced
    obtain ⟨-, -, rfl⟩ := Option.map_eq_some_iff.1 hlater
    exact hlt

private theorem map_snd_places (htree : doc.tree.InDocumentOrder)
    (hranges : ∀ id, doc.tree.isElement id →
      (doc.range? id .opening).isSome ∧ (doc.range? id .closing).isSome) :
    (places doc).map (·.2) = violations doc := by
  rw [places, violations, List.map_flatMap]
  refine List.flatMap_congr fun call hcall ↦ ?_
  cases call with
  | enter id =>
    obtain ⟨hopening, hclosing⟩ := hranges id (htree.enter_mem_events_iff.1 hcall)
    exact map_snd_placesAt hopening hclosing
  | leave id | text id | cdata id | comment id => rfl

theorem mem_places_iff (htree : doc.tree.InDocumentOrder) :
    ((id, k), tag, message) ∈ places doc ↔ Violates doc id k tag message := by
  rw [places, List.mem_flatMap]
  constructor
  · rintro ⟨call, hcall, hplaced⟩
    split at hplaced
    · obtain ⟨rfl, hmixed, hcrowded⟩ := mem_placesAt_iff.1 hplaced
      exact ⟨htree.enter_mem_events_iff.1 hcall, (inMixedContent_eq_false_iff htree).1 hmixed,
        hcrowded⟩
    · cases hplaced
  · rintro ⟨helement, htext, hcrowded⟩
    refine ⟨.enter id, htree.enter_mem_events_iff.2 helement, mem_placesAt_iff.2 ?_⟩
    exact ⟨rfl, (inMixedContent_eq_false_iff htree).2 htext, hcrowded⟩

private theorem pairwise_places (doc : Document) :
    (places doc).Pairwise fun placed later ↦ Earlier doc.tree placed.1 later.1 := by
  rw [places, List.pairwise_flatMap]
  constructor
  · intro call _
    split
    · refine (pairwise_placesAt doc _).imp_of_mem fun {placed later} hplaced hlater hlt ↦ ?_
      exact .inr ⟨(mem_placesAt_iff.1 hplaced).1.trans (mem_placesAt_iff.1 hlater).1.symm, hlt⟩
    · exact .nil
  · rw [List.pairwise_iff_forall_sublist]
    intro call next hsub placed hplaced later hlater
    split at hplaced
    · split at hlater
      · refine .inl ?_
        rwa [(mem_placesAt_iff.1 hplaced).1, (mem_placesAt_iff.1 hlater).1]
      · cases hlater
    · cases hplaced

/-- What gets an issue is visited before everything else on its line. -/
theorem mem_issuesOf_places {issue : Issue} (htree : doc.tree.InDocumentOrder)
    (h : issue ∈ (issuesOf [] ((places doc).map (·.2))).1) :
    ∃ id k tag message, issue = Issue.located rule tag message ∧ Violates doc id k tag message ∧
      ∀ id' k' tag' message', Violates doc id' k' tag' message' →
        tag'.start.line = tag.start.line →
        (id', k') = (id, k) ∨ Earlier doc.tree (id, k) (id', k') := by
  obtain ⟨before, tag, message, after, hviolations, rfl, -, hfirst⟩ := mem_issuesOf_iff.1 h
  obtain ⟨front, rest, hplaces, rfl, hrest⟩ := List.map_eq_append_iff.1 hviolations
  obtain ⟨⟨⟨id, k⟩, violation⟩, back, rfl, heq, rfl⟩ := List.map_eq_cons_iff.1 hrest
  obtain rfl : violation = (tag, message) := heq
  refine ⟨id, k, tag, message, rfl, ?_, fun id' k' tag' message' hother hline ↦ ?_⟩
  · refine (mem_places_iff htree).1 ?_
    simp [hplaces]
  · have hmem := (mem_places_iff htree).2 hother
    have hpairwise := pairwise_places doc
    rw [hplaces, List.mem_append, List.mem_cons] at hmem
    rw [hplaces] at hpairwise
    -- What was visited before the tag is on other lines.
    obtain hfront | heq | hback := hmem
    · exact absurd hline (hfirst (tag', message') (List.mem_map.2 ⟨_, hfront, rfl⟩))
    · exact .inl (Prod.ext_iff.1 heq).1
    · exact .inr ((List.pairwise_cons.1 (List.pairwise_append.1 hpairwise).2.1).1 _ hback)

/-- The issues of a file all of whose elements have both tags, whatever the check has seen before. A
line has one issue exactly if a crowded tag starts on it that is not inside of mixed content, and
otherwise none. Each issue is about such a tag, and that tag is visited before every other on the
line. -/
theorem found_of_parse {source : Source} {file : XmlFile} (h : XmlFile.parse source = .ok file)
    (hranges : ∀ id, file.document.tree.isElement id →
      (file.document.range? id .opening).isSome ∧ (file.document.range? id .closing).isSome)
    (settings : Settings) :
    let doc := file.document
    ∃ issues, (∀ seasoned, check.Alike seasoned → seasoned.found? file settings = some issues) ∧
      (∀ line, issues.countP (startsOn line) ≤ 1 ∧
        (issues.countP (startsOn line) = 1 ↔
          ∃ id k tag message, Violates doc id k tag message ∧ tag.start.line = line)) ∧
      ∀ issue ∈ issues, ∃ id k tag message,
        issue = Issue.located rule tag message ∧ Violates doc id k tag message ∧
        ∀ id' k' tag' message', Violates doc id' k' tag' message' →
          tag'.start.line = tag.start.line →
          (id', k') = (id, k) ∨ Earlier doc.tree (id, k) (id', k') := by
  intro doc
  obtain ⟨spans, hbuild, -, -⟩ := Document.exists_spans_of_parse (XmlFile.parse_eq_ok h).2
  have htree := Tree.inDocumentOrder_of_build hbuild
  have hplaces := map_snd_places htree hranges
  refine ⟨(issuesOf [] ((places doc).map (·.2))).1, fun seasoned halike ↦ ?_, fun line ↦ ?_,
    fun issue hissue ↦ mem_issuesOf_places htree hissue⟩
  · rw [Check.IsBuiltin.newline.forgetful.found?_eq halike, hplaces]
    rfl
  · rw [countP_issuesOf, if_neg List.not_mem_nil]
    have hany : ((places doc).map (·.2)).any (·.1.start.line == line) ↔
        ∃ id k tag message, Violates doc id k tag message ∧ tag.start.line = line := by
      simp only [List.any_eq_true, List.mem_map, beq_iff_eq]
      constructor
      · rintro ⟨_, ⟨⟨⟨id, k⟩, tag, message⟩, hmem, rfl⟩, hline⟩
        exact ⟨id, k, tag, message, (mem_places_iff htree).1 hmem, hline⟩
      · rintro ⟨id, k, tag, message, hviolates, hline⟩
        exact ⟨_, ⟨((id, k), tag, message), (mem_places_iff htree).2 hviolates, rfl⟩, hline⟩
    rw [← hany]
    split <;> simp [*]

/-- Three tags are crowded on the first line and have one issue. On the second line it is the last
closing tag, since the element before it holds text. -/
theorem found_of_parse_nested :
    ∃ file, XmlFile.parse (.ofText "" "<a><b><c/></b>\n<d>t<e/></d></a>") = .ok file ∧
      (∀ id, file.document.tree.isElement id →
        (file.document.range? id .opening).isSome ∧ (file.document.range? id .closing).isSome) ∧
      ∃ issues, check.found? file .default = some issues ∧
        issues.map (·.message) = [elementMessage, closingMessage] ∧
        (issues.countP (startsOn 1) = 1 ∧
          ∃ id k tag message, Violates file.document id k tag message ∧ tag.start.line = 1) ∧
        (issues.countP (startsOn 3) = 0 ∧
          ¬ ∃ id k tag message, Violates file.document id k tag message ∧ tag.start.line = 3) := by
  have hrun : (XmlFile.parse (.ofText "" "<a><b><c/></b>\n<d>t<e/></d></a>")).toOption.any
      (fun file ↦
        ((List.range file.document.tree.size).all fun id ↦ !file.document.tree.isElement id ||
          (file.document.range? id .opening).isSome && (file.document.range? id .closing).isSome) &&
        (check.found? file .default).any fun issues ↦
          issues.map (·.message) == [elementMessage, closingMessage] &&
          issues.countP (startsOn 1) == 1 && issues.countP (startsOn 3) == 0) = true := by
    decide +kernel
  obtain ⟨file, hparse, hfile⟩ := exists_of_any hrun
  obtain ⟨helements, hissues⟩ := Bool.and_eq_true_iff.1 hfile
  have hranges (id : NodeId) (helement : file.document.tree.isElement id) :
      (file.document.range? id .opening).isSome ∧ (file.document.range? id .closing).isSome := by
    exact Bool.and_eq_true_iff.1 (Tree.of_all_of_isElement helements helement)
  obtain ⟨issues, hfound, hlines, -⟩ := found_of_parse hparse hranges .default
  rw [hfound check (.refl check)] at hissues
  simp only [Option.any_some, Bool.and_eq_true, beq_iff_eq] at hissues
  obtain ⟨⟨hmessages, hfirst⟩, hthird⟩ := hissues
  refine ⟨file, hparse, hranges, issues, hfound check (.refl check), hmessages,
    ⟨hfirst, (hlines 1).2.1 hfirst⟩, hthird, fun hviolates ↦ ?_⟩
  rw [← (hlines 3).2, hthird] at hviolates
  exact Nat.zero_ne_one hviolates

end NewlineCheck

end XmlInspect
