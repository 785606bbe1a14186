import XmlInspect.Check.Indentation
import XmlInspect.Proofs.TagOrder

/-!
# Tags that stand wrong

Which tags get an issue about their indentation can be said without a walk. An opening tag gets one
if it starts a line, does not stand where the depth of its element wants it, and nothing around it
keeps it from being looked at: no element there stands wrong or holds text of its own. For a closing
tag it matters besides what the element is like and what issues there were before, for no closing
tag gets one on a line that an issue starts on already. So the tags with issues are found by going
through all tags in the order of the text, and `Indentation.Reports` says how.
-/

namespace XmlInspect

/-- The line on which the tag of an event starts. -/
def Document.line? (doc : Document) (call : WalkEvent) : Option Nat :=
  (doc.tag? call).map (·.start.line)

/-- The elements of a document have tags, and those of an element around others are apart. -/
structure Document.HasTags (doc : Document) : Prop where
  order : doc.tree.InDocumentOrder
  linked : doc.tree.Linked
  opening : ∀ {id}, doc.tree.isElement id → ∃ range, doc.range? id .opening = some range
  closing : ∀ {id}, doc.tree.isElement id → doc.tree.elementChildren id ≠ [] →
    ∃ range, doc.range? id .closing = some range ∧ doc.tag? (.leave id) = some range

/-! ## Depths -/

namespace Tree.InDocumentOrder

variable {tree : Tree} {id p : NodeId}

theorem depth_of_parent? (h : tree.InDocumentOrder) (hp : tree.parent? id = some p) :
    tree.depth id = tree.depth p + if tree.isElement p then 1 else 0 := by
  rw [depth, h.ancestors_of_parent? hp, List.countP_cons]
  rfl

theorem not_isElement_root (h : tree.InDocumentOrder) : ¬ tree.isElement root := by
  rw [isElement_of_kind? (h.document_iff.2 rfl)]
  exact Bool.false_ne_true

private theorem depth_of_parent?_root (h : tree.InDocumentOrder)
    (hp : tree.parent? id = some root) : tree.depth id = 0 := by
  rw [h.depth_of_parent? hp, if_neg h.not_isElement_root, depth, h.ancestors_root]
  rfl

end Tree.InDocumentOrder

namespace Indentation

/-! ## Which tags stand wrong -/

section

variable (config : Indentation) (file : XmlFile)

/-- How far the tags of an element should be indented. -/
def due (id : NodeId) : Nat := config.expected (file.document.tree.depth id)

/-- How far a tag is indented, if it starts a line. -/
def indent? : WalkEvent → Option Nat
  | .enter id => config.leading? file id
  | .leave id => config.closing? file id
  | _ => none

/-- A tag starts a line and is not indented as it should be. -/
def Misplaced (call : WalkEvent) : Prop :=
  ∃ actual, config.indent? file call = some actual ∧ actual ≠ config.due file call.node

/-- Nothing around a node keeps it from being looked at. -/
def Visited (id : NodeId) : Prop :=
  ∀ p, file.document.tree.Below id p → file.document.tree.isElement p →
    ¬ config.Misplaced file (.enter p) ∧ file.document.tree.holdsText p = false

/-- A tag is looked at and stands wrong. A closing tag is looked at if its opening tag is and stands
right, and if there are elements and no text in between. -/
def CallsForIssue : WalkEvent → Prop
  | .enter id => config.Visited file id ∧ config.Misplaced file (.enter id)
  | .leave id => config.Visited file id ∧ ¬ config.Misplaced file (.enter id) ∧
      file.document.tree.holdsText id = false ∧ file.document.tree.elementChildren id ≠ [] ∧
      config.Misplaced file (.leave id)
  | _ => False

/-- A tag gets an issue after some others have got theirs. A closing tag gets none if one of them
starts on its line. -/
def Gets (earlier : List WalkEvent) (call : WalkEvent) : Prop :=
  config.CallsForIssue file call ∧
    (call.isLeave = true → ∀ other ∈ earlier, file.document.line? other ≠ file.document.line? call)

/-- Going through some tags adds those of them that get an issue to those that have one. -/
inductive Reports : List WalkEvent → List WalkEvent → List WalkEvent → Prop
  | nil {earlier : List WalkEvent} : Reports earlier [] earlier
  | add {earlier calls last : List WalkEvent} {call : WalkEvent} :
    config.Gets file earlier call → Reports (earlier ++ [call]) calls last →
      Reports earlier (call :: calls) last
  | skip {earlier calls last : List WalkEvent} {call : WalkEvent} :
    ¬ config.Gets file earlier call → Reports earlier calls last →
      Reports earlier (call :: calls) last

/-- The issue that a tag gets. -/
def Raises (call : WalkEvent) (issue : Issue) : Prop :=
  ∃ range actual, file.document.tag? call = some range ∧ config.indent? file call = some actual ∧
    issue = Issue.located rule range (config.message (config.due file call.node) actual)

/-- The issues of a record and the lines that it keeps are those of some tags. -/
structure Keeps (tags : List WalkEvent) (record : Record) : Prop where
  raises : List.Forall₂ (config.Raises file) tags record.issues
  mem_lines : ∀ line, line ∈ record.lines ↔ ∃ tag ∈ tags, file.document.line? tag = some line

/-- So many steps take some visits from the stack, whatever is below them. -/
def Clears (steps : Nat) (visits : List Visit) (record after : Record) : Prop :=
  ∀ fuel stack, config.visitAll file (steps + fuel) (visits ++ stack) record =
    config.visitAll file fuel stack after

end

variable {config : Indentation} {file : XmlFile} {id p : NodeId} {ids : List NodeId}
  {call : WalkEvent} {earlier mid last calls before after events inside : List WalkEvent}
  {l : List NodeId} {visits visits' : List Visit} {record between final : Record}
  {level m n : Nat}

/-! ## Going through tags -/

namespace Reports

theorem append (h : config.Reports file earlier before mid)
    (h' : config.Reports file mid after last) :
    config.Reports file earlier (before ++ after) last := by
  induction h with
  | nil => exact h'
  | add hgets _ ih => exact .add hgets (ih h')
  | skip hgets _ ih => exact .skip hgets (ih h')

private theorem exists_of_append (h : config.Reports file earlier (before ++ after) last) :
    ∃ mid, config.Reports file earlier before mid ∧ config.Reports file mid after last := by
  induction before generalizing earlier with
  | nil => exact ⟨earlier, .nil, h⟩
  | cons call before ih =>
    cases h with
    | add hgets h =>
      obtain ⟨mid, hbefore, hafter⟩ := ih h
      exact ⟨mid, .add hgets hbefore, hafter⟩
    | skip hgets h =>
      obtain ⟨mid, hbefore, hafter⟩ := ih h
      exact ⟨mid, .skip hgets hbefore, hafter⟩

theorem of_not_callsForIssue (h : ∀ call ∈ calls, ¬ config.CallsForIssue file call) :
    config.Reports file earlier calls earlier := by
  induction calls with
  | nil => exact .nil
  | cons call calls ih =>
    exact .skip (fun hgets ↦ h call List.mem_cons_self hgets.1)
      (ih fun other hother ↦ h other (List.mem_cons_of_mem _ hother))

/-- What is added are some of the tags, in their order. -/
theorem exists_sublist (h : config.Reports file earlier calls last) :
    ∃ added, last = earlier ++ added ∧ added.Sublist calls := by
  induction h with
  | nil => exact ⟨[], (List.append_nil _).symm, .refl _⟩
  | @add _ _ _ call _ _ ih =>
    obtain ⟨added, rfl, hadded⟩ := ih
    exact ⟨call :: added, by rw [List.append_assoc, List.singleton_append], hadded.cons_cons _⟩
  | skip _ _ ih =>
    obtain ⟨added, rfl, hadded⟩ := ih
    exact ⟨added, rfl, hadded.cons _⟩

/-- A tag is added if it gets an issue after those of the tags before it that were added. -/
theorem mem_iff (h : config.Reports file [] (before ++ call :: after) last)
    (hnodup : (before ++ call :: after).Nodup) :
    call ∈ last ↔ config.CallsForIssue file call ∧ (call.isLeave = true →
      ∀ other ∈ before, other ∈ last → file.document.line? other ≠ file.document.line? call) := by
  obtain ⟨mid, hbefore, hcall⟩ := h.exists_of_append
  obtain ⟨_, rfl, hmid⟩ := hbefore.exists_sublist
  obtain ⟨added, hadded, hsub⟩ := hcall.exists_sublist
  obtain ⟨-, hrest, hapart⟩ := List.nodup_append.1 hnodup
  have hfresh : call ∉ after := (List.nodup_cons.1 hrest).1
  -- Up to this tag, what was added is what will have been added in the end.
  have hearlier : ∀ other ∈ before, (other ∈ last ↔ other ∈ mid) := by
    intro other hother
    rw [hadded, List.mem_append, or_iff_left_iff_imp]
    exact fun hlater ↦ absurd rfl (hapart other hother other (hsub.subset hlater))
  have hgets : config.Gets file mid call ↔ config.CallsForIssue file call ∧ (call.isLeave = true →
      ∀ other ∈ before, other ∈ last → file.document.line? other ≠ file.document.line? call) := by
    refine and_congr_right fun _ ↦ imp_congr_right fun _ ↦ ?_
    constructor
    · exact fun hfree other hother hlast ↦ hfree other ((hearlier other hother).1 hlast)
    · exact fun hfree other hmem ↦ hfree other (hmid.subset hmem)
        ((hearlier other (hmid.subset hmem)).2 hmem)
  rw [← hgets]
  have hnotMid : call ∉ mid := fun hmem ↦
    hapart call (hmid.subset hmem) call List.mem_cons_self rfl
  cases hcall with
  | add hyes h =>
    obtain ⟨_, rfl, -⟩ := h.exists_sublist
    simp [hyes]
  | skip hno h =>
    obtain ⟨rest, rfl, hrest⟩ := h.exists_sublist
    refine iff_of_false (fun hmem ↦ ?_) hno
    rcases List.mem_append.1 hmem with hmem | hmem
    · exact hnotMid hmem
    · exact hfresh (hrest.subset hmem)

end Reports

/-! ## One element -/

theorem wrong?_eq_some_iff {actual? : Option Nat} {actual : Nat} :
    config.wrong? level actual? = some actual ↔
      actual? = some actual ∧ actual ≠ config.expected level := by
  simp [wrong?, Option.filter_eq_some_iff]

theorem misplaced_iff : config.Misplaced file call ↔
    (config.wrong? (file.document.tree.depth call.node) (config.indent? file call)).isSome := by
  rw [Option.isSome_iff_exists]
  simp only [wrong?_eq_some_iff]
  rfl

theorem keeps_empty : config.Keeps file [] .empty := ⟨.nil, by simp [Record.empty]⟩

theorem Keeps.report (h : config.Keeps file earlier record) {range : TextRange} {actual : Nat}
    (htag : file.document.tag? call = some range) (hindent : config.indent? file call = some actual)
    (hlevel : file.document.tree.depth call.node = level) :
    config.Keeps file (earlier ++ [call]) (record.report config level actual range) := by
  have hline : file.document.line? call = some range.start.line := by
    rw [Document.line?, htag]
    rfl
  refine ⟨List.rel_append h.raises (.cons ⟨range, actual, htag, hindent, ?_⟩ .nil), fun line ↦ ?_⟩
  · rw [due, hlevel]
    rfl
  · simp only [Record.report, List.mem_cons, h.mem_lines, List.mem_append, or_and_right, exists_or,
      List.not_mem_nil, or_false, exists_eq_left, hline, Option.some.injEq]
    rw [or_comm, eq_comm]

private theorem exists_reports_closing (hdoc : file.document.HasTags)
    (helement : file.document.tree.isElement id) (hvisited : config.Visited file id)
    (hright : ¬ config.Misplaced file (.enter id))
    (hmixed : file.document.tree.holdsText id = false) (hkeeps : config.Keeps file earlier record) :
    ∃ last, config.Reports file earlier [.leave id] last ∧
      config.Keeps file last
        (config.visitClosing file id (file.document.tree.depth id) record) := by
  have hmisplaced : config.Misplaced file (.leave id) ↔
      (config.wrong? (file.document.tree.depth id) (config.closing? file id)).isSome :=
    misplaced_iff
  by_cases hchildren : file.document.tree.elementChildren id = []
  · refine ⟨earlier, .skip (fun hgets ↦ hgets.1.2.2.2.1 hchildren) .nil, ?_⟩
    rwa [visitClosing, hchildren]
  obtain ⟨range, hrange, htag⟩ := hdoc.closing helement hchildren
  have hline : file.document.line? (.leave id) = some range.start.line := by
    rw [Document.line?, htag]
    rfl
  rw [visitClosing, List.isEmpty_eq_false_iff.2 hchildren, hrange]
  by_cases hmem : range.start.line ∈ record.lines
  · -- A tag that has an issue starts on the same line.
    obtain ⟨other, hother, hsame⟩ := (hkeeps.mem_lines _).1 hmem
    exact ⟨earlier, .skip (fun hgets ↦ hgets.2 rfl other hother (hsame.trans hline.symm)) .nil,
      by simpa [hmem] using hkeeps⟩
  cases hwrong : config.wrong? (file.document.tree.depth id) (config.closing? file id) with
  | none =>
    refine ⟨earlier, .skip (fun hgets ↦ ?_) .nil, by simpa [hmem] using hkeeps⟩
    have hsome := hmisplaced.1 hgets.1.2.2.2.2
    rw [hwrong] at hsome
    cases hsome
  | some actual =>
    have hgets : config.Gets file earlier (.leave id) := by
      refine ⟨⟨hvisited, hright, hmixed, hchildren, hmisplaced.2 (by rw [hwrong]; rfl)⟩,
        fun _ other hother hsame ↦ ?_⟩
      exact hmem ((hkeeps.mem_lines _).2 ⟨other, hother, hsame.trans hline⟩)
    have hkeeps : config.Keeps file (earlier ++ [.leave id])
        (record.report config (file.document.tree.depth id) actual range) :=
      hkeeps.report htag (wrong?_eq_some_iff.1 hwrong).1 rfl
    exact ⟨earlier ++ [.leave id], .add hgets .nil, by simpa [hmem] using hkeeps⟩

theorem not_callsForIssue_of_below (h : file.document.tree.Below call.node p)
    (helement : file.document.tree.isElement p)
    (hstop : config.Misplaced file (.enter p) ∨ file.document.tree.holdsText p = true) :
    ¬ config.CallsForIssue file call := by
  have hnot : ¬ config.Visited file call.node := by
    intro hvisited
    obtain ⟨hright, hmixed⟩ := hvisited p h helement
    rcases hstop with hwrong | hholds
    · exact hright hwrong
    · cases hmixed.symm.trans hholds
  cases call with
  | enter id => exact fun hcalls ↦ hnot hcalls.1
  | leave id => exact fun hcalls ↦ hnot hcalls.1
  | _ => exact False.elim

/-! ## The stack -/

namespace Clears

theorem nil : config.Clears file 0 [] record record := fun fuel stack ↦ by
  rw [Nat.zero_add, List.nil_append]

theorem append (h : config.Clears file m visits record between)
    (h' : config.Clears file n visits' between final) :
    config.Clears file (m + n) (visits ++ visits') record final := fun fuel stack ↦ by
  rw [Nat.add_assoc, List.append_assoc, h, h']

theorem closing : config.Clears file 1 [.closing id level] record
    (config.visitClosing file id level record) := fun fuel stack ↦ by
  rw [Nat.add_comm, List.singleton_append, visitAll]

theorem element {next : List Visit}
    (hvisit : config.visitElement file id level record = (next, between))
    (h : config.Clears file n next between final) :
    config.Clears file (n + 1) [.element id level] record final := fun fuel stack ↦ by
  rw [Nat.add_right_comm, List.singleton_append, visitAll, hvisit]
  exact h fuel stack

end Clears

/-- An element that is looked at. What is inside comes by induction, and only if it is looked at. -/
theorem exists_reports_element (hdoc : file.document.HasTags)
    (helement : file.document.tree.isElement id) (hvisited : config.Visited file id)
    (hinside : file.document.tree.Brackets (file.document.tree.children id) inside)
    (hkeeps : config.Keeps file earlier record)
    (ih : ¬ config.Misplaced file (.enter id) → file.document.tree.holdsText id = false →
      ∃ last between steps, steps ≤ n ∧ config.Reports file earlier inside last ∧
        config.Keeps file last between ∧ config.Clears file steps
          ((file.document.tree.elementChildren id).map
            (.element · (file.document.tree.depth id + 1))) record between) :
    ∃ last final steps, steps ≤ n + 2 ∧
      config.Reports file earlier (.enter id :: inside ++ [.leave id]) last ∧
      config.Keeps file last final ∧
      config.Clears file steps [.element id (file.document.tree.depth id)] record final := by
  have hbelow : ∀ call ∈ inside, file.document.tree.Below call.node id := fun call hcall ↦
    hdoc.order.mem_descendants_iff.1 (hinside.node_mem (hdoc.order.preorder id) call hcall)
  have hmisplaced : config.Misplaced file (.enter id) ↔
      (config.wrong? (file.document.tree.depth id) (config.leading? file id)).isSome :=
    misplaced_iff
  cases hwrong : config.wrong? (file.document.tree.depth id) (config.leading? file id) with
  | some actual =>
    -- The tag gets an issue, and nothing inside the element is looked at.
    have hmis : config.Misplaced file (.enter id) := by
      rw [hmisplaced, hwrong]
      rfl
    obtain ⟨range, hrange⟩ := hdoc.opening helement
    have hvisit : config.visitElement file id (file.document.tree.depth id) record =
        ([], record.report config (file.document.tree.depth id) actual range) := by
      simp only [visitElement, hwrong, hrange]
    have hkeeps : config.Keeps file (earlier ++ [.enter id])
        (record.report config (file.document.tree.depth id) actual range) :=
      hkeeps.report (show file.document.tag? (.enter id) = some range from hrange)
        (wrong?_eq_some_iff.1 hwrong).1 rfl
    refine ⟨earlier ++ [.enter id], _, 0 + 1, by omega,
      .add ⟨⟨hvisited, hmis⟩, fun hleave ↦ by cases hleave⟩ ?_, hkeeps, .element hvisit .nil⟩
    refine .of_not_callsForIssue fun call hcall ↦ ?_
    rcases List.mem_append.1 hcall with hcall | hcall
    · exact not_callsForIssue_of_below (hbelow call hcall) helement (.inl hmis)
    · obtain rfl := List.mem_singleton.1 hcall
      exact fun hcalls ↦ hcalls.2.1 hmis
  | none =>
    have hright : ¬ config.Misplaced file (.enter id) := by
      rw [hmisplaced, hwrong]
      exact Bool.false_ne_true
    have henter : ¬ config.Gets file earlier (.enter id) := fun hgets ↦ hright hgets.1.2
    cases hmixed : file.document.tree.holdsText id with
    | true =>
      have hvisit : config.visitElement file id (file.document.tree.depth id) record =
          ([], record) := by
        simp only [visitElement, hwrong, hmixed, if_true]
      refine ⟨earlier, record, 0 + 1, by omega,
        .skip henter (.of_not_callsForIssue fun call hcall ↦ ?_), hkeeps, .element hvisit .nil⟩
      rcases List.mem_append.1 hcall with hcall | hcall
      · exact not_callsForIssue_of_below (hbelow call hcall) helement (.inr hmixed)
      · obtain rfl := List.mem_singleton.1 hcall
        exact fun hcalls ↦ Bool.false_ne_true (hcalls.2.2.1.symm.trans hmixed)
    | false =>
      have hvisit : config.visitElement file id (file.document.tree.depth id) record =
          ((file.document.tree.elementChildren id).map
            (.element · (file.document.tree.depth id + 1)) ++
              [.closing id (file.document.tree.depth id)], record) := by
        simp [visitElement, hwrong, hmixed]
      -- The closing tag is looked at when the children have been taken from the stack.
      obtain ⟨mid, between, steps, hsteps, hreports, hbetween, hclears⟩ := ih hright hmixed
      obtain ⟨last, hclosing, hlast⟩ :=
        exists_reports_closing hdoc helement hvisited hright hmixed hbetween
      exact ⟨last, _, steps + 1 + 1, by omega, .skip henter (hreports.append hclosing), hlast,
        .element hvisit (hclears.append .closing)⟩

/-! ## All elements -/

private theorem visited_of_parent? (hvisited : config.Visited file p)
    (hright : ¬ config.Misplaced file (.enter p)) (hmixed : file.document.tree.holdsText p = false)
    (hp : file.document.tree.parent? id = some p) : config.Visited file id := by
  intro q hbelow helement
  obtain ⟨p', hp', rfl | hq⟩ := Tree.below_iff_exists_parent.1 hbelow
  · cases hp.symm.trans hp'
    exact ⟨hright, hmixed⟩
  · cases hp.symm.trans hp'
    exact hvisited q hq helement

private theorem visited_of_parent?_root (h : file.document.tree.InDocumentOrder)
    (hp : file.document.tree.parent? id = some Tree.root) : config.Visited file id := by
  intro q hbelow helement
  obtain ⟨p, hp', rfl | hq⟩ := Tree.below_iff_exists_parent.1 hbelow
  · cases hp.symm.trans hp'
    exact absurd helement h.not_isElement_root
  · cases hp.symm.trans hp'
    obtain ⟨_, hroot, -⟩ := Tree.below_iff_exists_parent.1 hq
    cases h.parent?_root.symm.trans hroot

/-- The stack goes through the tags of siblings that are looked at as a walk does. The induction is
on the walk; the level is the depth of the siblings, and no node takes more than two steps. -/
theorem exists_reports (hdoc : file.document.HasTags) (hl : file.document.tree.Preorder ids l)
    (h : file.document.tree.Brackets ids events)
    (hparent : ∀ id ∈ ids, file.document.tree.parent? id = some p)
    (hlevel : ∀ id, file.document.tree.parent? id = some p → file.document.tree.depth id = level)
    (hvisited : ∀ id, file.document.tree.parent? id = some p → config.Visited file id)
    (hkeeps : config.Keeps file earlier record) :
    ∃ last final steps, steps ≤ 2 * l.length ∧ config.Reports file earlier events last ∧
      config.Keeps file last final ∧ config.Clears file steps
        ((ids.filter file.document.tree.isElement).map (.element · level)) record final := by
  induction hl generalizing events p level earlier record with
  | nil =>
    cases h
    exact ⟨earlier, record, 0, Nat.zero_le _, .nil, hkeeps, .nil⟩
  | @cons id ids below behind _ _ ihinside ihafter =>
    obtain _ | @⟨_, _, inside, after, hinside, hafter⟩ := h
    have hp := hparent id List.mem_cons_self
    obtain ⟨mid, between, m, hm, hself, hmid, hclears⟩ : ∃ mid between m,
        m ≤ 2 * below.length + 2 ∧ config.Reports file earlier
          ((file.document.tree.arrival? id).toList ++ inside ++
            (file.document.tree.departure? id).toList) mid ∧
        config.Keeps file mid between ∧ config.Clears file m
          (([id].filter file.document.tree.isElement).map (.element · level)) record between := by
      by_cases helement : file.document.tree.isElement id
      · rw [Tree.arrival?_of_isElement helement, Tree.departure?, if_pos helement,
          List.filter_cons_of_pos helement, ← hlevel id hp]
        refine exists_reports_element hdoc helement (hvisited id hp) hinside hkeeps
          fun hright hmixed ↦ ?_
        refine ihinside hinside (fun child ↦ hdoc.order.mem_children_iff.1) (fun child hchild ↦ ?_)
          (fun child ↦ visited_of_parent? (hvisited id hp) hright hmixed) hkeeps
        rw [hdoc.order.depth_of_parent? hchild, if_pos helement]
      · have hne : id ≠ Tree.root := Nat.ne_zero_of_lt (hdoc.order.lt_of_parent? hp).1
        rw [hdoc.linked.children_eq_nil hne helement] at hinside
        cases hinside
        rw [List.filter_cons_of_neg helement, Tree.departure?, if_neg helement, Option.toList_none,
          List.append_nil, List.append_nil]
        refine ⟨earlier, record, 0, Nat.zero_le _, .of_not_callsForIssue fun call hcall ↦ ?_,
          hkeeps, .nil⟩
        have harrival := Option.mem_toList.1 hcall
        cases call with
        | enter n => exact absurd (Tree.isElement_of_enter_mem_arrival? harrival) helement
        | leave n => cases (Tree.node_of_mem_arrival? harrival).2
        | _ => exact False.elim
    obtain ⟨last, final, n, hn, hreports, hlast, hrest⟩ := ihafter hafter
      (fun other hother ↦ hparent other (List.mem_cons_of_mem _ hother)) hlevel hvisited hmid
    refine ⟨last, final, m + n, ?_, hself.append hreports, hlast, ?_⟩
    · simp only [List.length_append, List.length_singleton]
      omega
    · rw [← List.singleton_append, List.filter_append, List.map_append]
      exact hclears.append hrest

private theorem exists_reports_issues (config : Indentation) (hdoc : file.document.HasTags)
    (hrooted : file.document.tree.Rooted) :
    ∃ last, config.Reports file [] file.document.tree.events last ∧
      List.Forall₂ (config.Raises file) last (config.issues file) := by
  obtain ⟨front, element, rest, hchildren, helement, hothers, -⟩ := hrooted
  have hfilter : (file.document.tree.children Tree.root).filter file.document.tree.isElement =
      [element] := by
    have hfront : front.filter file.document.tree.isElement = [] :=
      List.filter_eq_nil_iff.2 fun id hid ↦ hothers id (List.mem_append_left _ hid)
    have hrest : rest.filter file.document.tree.isElement = [] :=
      List.filter_eq_nil_iff.2 fun id hid ↦ hothers id (List.mem_append_right _ hid)
    rw [hchildren, List.filter_append, List.filter_cons_of_pos helement, hfront, hrest,
      List.nil_append]
  have hroot : file.document.tree.rootElement? = some element := by
    rw [Tree.rootElement?, ← List.head?_filter, hfilter]
    rfl
  have hempty : config.Keeps file [] .empty := keeps_empty
  obtain ⟨last, final, steps, hsteps, hreports, hkeeps, hclears⟩ :=
    exists_reports hdoc (hdoc.order.preorder Tree.root) hdoc.order.brackets_children_root
      (fun id ↦ hdoc.order.mem_children_iff.1) (fun id ↦ hdoc.order.depth_of_parent?_root)
      (fun id ↦ visited_of_parent?_root hdoc.order) hempty
  refine ⟨last, hreports, ?_⟩
  -- The steps that are left find nothing on the stack.
  have hbound : (file.document.tree.descendants Tree.root).length ≤ file.document.tree.size :=
    Tree.length_visit_le _ _ _
  obtain ⟨spare, hspare⟩ := Nat.exists_eq_add_of_le
    (Nat.le_trans hsteps (Nat.mul_le_mul_left 2 hbound))
  have hdone : config.visitAll file spare [] final = final := by cases spare <;> rfl
  have hrun := hclears spare []
  rw [hfilter, ← hspare, hdone] at hrun
  have hissues : config.issues file = final.issues := by
    rw [issues, hroot]
    exact congrArg Record.issues hrun
  rw [hissues]
  exact hkeeps.raises

/-! ## Files -/

variable {uri : String} {charset : Charset} {text : List Char}

theorem hasTags_of_parse (h : XmlFile.parse (.ofChars uri charset text) = .ok file)
    (hranges : ∀ id, file.document.tree.isElement id →
      (file.document.range? id .opening).isSome ∧ (file.document.range? id .closing).isSome) :
    file.document.HasTags := by
  have hparse := (XmlFile.parse_eq_ok h).2
  obtain ⟨spans, hbuild, -, -⟩ := Document.exists_spans_of_parse hparse
  have horder := Tree.inDocumentOrder_of_build hbuild
  refine ⟨horder, (Tree.linked_of_build hbuild).1,
    fun {id} helement ↦ Option.isSome_iff_exists.1 (hranges id helement).1,
    fun {id} helement hchildren ↦ ?_⟩
  obtain ⟨child, hchild⟩ := List.exists_mem_of_ne_nil _ hchildren
  obtain ⟨hmem, hinner⟩ := List.mem_filter.1 hchild
  have hid : id ≠ Tree.root := by
    rintro rfl
    exact horder.not_isElement_root helement
  refine (Document.arranged_of_parse hparse).exists_tag?_leave hid helement hmem fun hunbound ↦ ?_
  have hsome := (hranges child hinner).1
  rw [hunbound .opening] at hsome
  cases hsome

theorem exists_reports_of_parse (config : Indentation)
    (h : XmlFile.parse (.ofChars uri charset text) = .ok file)
    (hranges : ∀ id, file.document.tree.isElement id →
      (file.document.range? id .opening).isSome ∧ (file.document.range? id .closing).isSome) :
    file.document.HasTags ∧ ∃ tags, config.Reports file [] file.document.tree.events tags ∧
      tags.Sublist file.document.tree.events ∧
      List.Forall₂ (config.Raises file) tags (config.issues file) := by
  have hdoc := hasTags_of_parse h hranges
  obtain ⟨spans, hbuild, -, -⟩ := Document.exists_spans_of_parse (XmlFile.parse_eq_ok h).2
  obtain ⟨tags, hreports, hraises⟩ :=
    exists_reports_issues config hdoc (Tree.wellFormed_of_build hbuild).rooted
  obtain ⟨_, rfl, hsub⟩ := hreports.exists_sublist
  exact ⟨hdoc, _, hreports, hsub, hraises⟩

/-- The issues of a file all of whose elements have both tags. What a tag should be indented by is
the depth of its element times the size of a level, unless that is too large a number. The issues
are those of some tags in the order of the text. An opening tag is among these exactly if it is
looked at and stands wrong. A closing tag is exactly if its opening tag is looked at and stands
right, there are elements and no text in between, it stands wrong itself, and no tag before it that
has an issue starts on the same line. So there are no issues inside an element whose opening tag has
one, nor inside one that holds text. -/
theorem issues_of_parse (config : Indentation)
    (h : XmlFile.parse (.ofChars uri charset text) = .ok file)
    (hranges : ∀ id, file.document.tree.isElement id →
      (file.document.range? id .opening).isSome ∧ (file.document.range? id .closing).isSome) :
    let doc := file.document
    (∀ id, doc.tree.depth id * config.indentSize < UInt64.size →
      config.due file id = doc.tree.depth id * config.indentSize) ∧
    ∃ tags, tags.Sublist doc.tree.events ∧
      List.Forall₂ (config.Raises file) tags (config.issues file) ∧
      (∀ id, .enter id ∈ tags ↔ doc.tree.isElement id ∧ config.Visited file id ∧
        config.Misplaced file (.enter id)) ∧
      (∀ id before after, doc.tree.events = before ++ .leave id :: after →
        (.leave id ∈ tags ↔ config.Visited file id ∧ ¬ config.Misplaced file (.enter id) ∧
          doc.tree.holdsText id = false ∧ doc.tree.elementChildren id ≠ [] ∧
          config.Misplaced file (.leave id) ∧
          ∀ tag ∈ before, tag ∈ tags → doc.line? tag ≠ doc.line? (.leave id))) ∧
      (config.issues file).Pairwise (fun issue later ↦ ∃ range next,
        issue.range = some range ∧ later.range = some next ∧ range.stop ≤ next.start) ∧
      ∀ tag ∈ tags, ∀ p, doc.tree.Below tag.node p → doc.tree.isElement p →
        .enter p ∉ tags ∧ doc.tree.holdsText p = false := by
  intro doc
  refine ⟨fun id ↦ Nat.mod_eq_of_lt, ?_⟩
  obtain ⟨hdoc, tags, hreports, hsub, hraises⟩ := exists_reports_of_parse config h hranges
  have hnodup := hdoc.order.nodup_events
  have hmem {call : WalkEvent} {before after : List WalkEvent}
      (hevents : doc.tree.events = before ++ call :: after) :=
    (hevents ▸ hreports).mem_iff (hevents ▸ hnodup)
  have hopening (id : NodeId) : .enter id ∈ tags ↔ doc.tree.isElement id ∧
      config.Visited file id ∧ config.Misplaced file (.enter id) := by
    rw [← hdoc.order.enter_mem_events_iff]
    constructor
    · intro htag
      obtain ⟨before, after, hevents⟩ := List.append_of_mem (hsub.subset htag)
      exact ⟨hsub.subset htag, ((hmem hevents).1 htag).1⟩
    · rintro ⟨hcall, hcalls⟩
      obtain ⟨before, after, hevents⟩ := List.append_of_mem hcall
      exact (hmem hevents).2 ⟨hcalls, fun hleave ↦ nomatch hleave⟩
  refine ⟨tags, hsub, hraises, hopening, fun id before after hevents ↦ ?_, ?_,
    fun tag htag p hbelow helement ↦ ?_⟩
  · rw [hmem hevents]
    simp only [CallsForIssue, WalkEvent.isLeave, forall_const, and_assoc, doc]
  · refine pairwise_of_forall₂ hraises
      ((Document.pairwise_precedes_of_parse (XmlFile.parse_eq_ok h).2).sublist hsub) ?_
    rintro call later _ _ ⟨range, _, hrange, -, rfl⟩ ⟨next, _, hnext, -, rfl⟩ hprecedes
    exact ⟨range, next, rfl, rfl, hprecedes range next hrange hnext⟩
  · obtain ⟨before, after, hevents⟩ := List.append_of_mem (hsub.subset htag)
    have hcalls := ((hmem hevents).1 htag).1
    constructor
    · intro hp
      exact not_callsForIssue_of_below hbelow helement (.inl ((hopening p).1 hp).2.2) hcalls
    · refine Bool.eq_false_iff.2 fun hholds ↦ ?_
      exact not_callsForIssue_of_below hbelow helement (.inr hholds) hcalls

/-- The element that stands wrong on the second line keeps what is inside from being looked at. The
last closing tag is on the line of the element before it, since its line break is a reference. -/
theorem issues_of_parse_skipped :
    let text := "<a>\n<b>\n<c/>\n</b>\n  <d>\n    <e/>\n</d>\n<f/>&#10; </a>".toList
    let config : Indentation := ⟨2, 2⟩
    ∃ file, XmlFile.parse (.ofChars "" .utf8 text) = .ok file ∧
      (∀ id, file.document.tree.isElement id →
        (file.document.range? id .opening).isSome ∧ (file.document.range? id .closing).isSome) ∧
      List.Forall₂ (config.Raises file) [.enter 3, .leave 8, .enter 13] (config.issues file) ∧
      config.Visited file 13 ∧ config.Misplaced file (.enter 13) ∧
      config.Misplaced file (.leave 8) := by
  intro text config
  have hrun : (XmlFile.parse (.ofChars "" .utf8 text)).toOption.any (fun file ↦
      ((List.range file.document.tree.size).all fun id ↦ !file.document.tree.isElement id ||
        (file.document.range? id .opening).isSome && (file.document.range? id .closing).isSome) &&
      file.document.tree.events.filter (fun call ↦
          (config.issues file).any (·.range == file.document.tag? call)) ==
        [.enter 3, .leave 8, .enter 13] &&
      (config.issues file).length == 3) = true := by
    decide +kernel
  obtain ⟨file, hparse, hfile⟩ := exists_of_any hrun
  simp only [Bool.and_eq_true _ (_ == _), beq_iff_eq] at hfile
  obtain ⟨⟨helements, hfound⟩, hlength⟩ := hfile
  have hranges (id : NodeId) (helement : file.document.tree.isElement id) :
      (file.document.range? id .opening).isSome ∧ (file.document.range? id .closing).isSome := by
    exact Bool.and_eq_true_iff.1 (Tree.of_all_of_isElement helements helement)
  obtain ⟨-, tags, hsub, hraises, hopening, hclosing, -, -⟩ :=
    issues_of_parse config hparse hranges
  -- These are the only tags with the ranges of issues.
  have htags : tags = [.enter 3, .leave 8, .enter 13] := by
    refine List.Sublist.eq_of_length ?_ (hraises.length_eq.trans hlength)
    have hself : tags.filter (fun call ↦
        (config.issues file).any (·.range == file.document.tag? call)) = tags := by
      refine List.filter_eq_self.2 fun call hcall ↦ ?_
      obtain ⟨issue, hissue, range, actual, htag, -, rfl⟩ := exists_of_forall₂_of_mem hraises hcall
      exact List.any_eq_true.2 ⟨_, hissue, beq_iff_eq.2 htag.symm⟩
    rw [← hfound, ← hself]
    exact hsub.filter _
  subst htags
  obtain ⟨-, hvisited, hopeningWrong⟩ := (hopening 13).1 (by decide)
  obtain ⟨before, after, hevents⟩ := List.append_of_mem (hsub.subset (show .leave 8 ∈ _ by decide))
  have hclosingWrong := ((hclosing 8 before after hevents).1 (by decide)).2.2.2.2.1
  exact ⟨file, hparse, hranges, hraises, hvisited, hopeningWrong, hclosingWrong⟩

end Indentation

end XmlInspect
