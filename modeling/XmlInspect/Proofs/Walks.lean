import XmlInspect.Proofs.Axes
import XmlInspect.Proofs.Declaration
import XmlInspect.Tree.Walk

/-!
# What a walk meets

A walk keeps a stack of what is still to come, where nodes that are to be entered are mixed with
elements that are to be left. What it is meant to do is a recursion: come to a node, go through its
children, leave the node. This recursion is said by `Tree.Brackets`, which knows nothing of a stack
and nothing of fuel, and the stack is shown to give it.

From the recursion follows what a visitor may rely on. It is told of every node once, in the order
of the numbers. It is told of the end of an element when everything inside was told and before
anything behind. If it fails it is told nothing more, and the walk fails as it did.
-/

namespace XmlInspect

/-! ## Events -/

namespace WalkEvent

/-- The node that an event is about. -/
def node : WalkEvent → NodeId
  | enter id => id
  | leave id => id
  | text id _ => id
  | cdata id _ => id
  | comment id _ => id

/-- Whether an event is the end of an element. -/
def isLeave : WalkEvent → Bool
  | leave _ => true
  | _ => false

end WalkEvent

namespace Tree

variable {tree : Tree} {ids l : List NodeId} {events : List WalkEvent} {id : NodeId}
  {call : WalkEvent}

/-- What happens when a walk has been through all that is in a node. -/
def departure? (tree : Tree) (id : NodeId) : Option WalkEvent :=
  if tree.isElement id then some (.leave id) else none

theorem node_of_mem_arrival? (h : call ∈ tree.arrival? id) :
    call.node = id ∧ call.isLeave = false := by
  unfold arrival? at h
  split at h <;> cases h <;> exact ⟨rfl, rfl⟩

theorem isElement_of_enter_mem_arrival? {n : NodeId} (h : .enter n ∈ tree.arrival? id) :
    tree.isElement id := by
  unfold arrival? at h
  split at h <;> cases h
  rename_i hkind
  exact isElement_of_kind? hkind

theorem mem_departure? : call ∈ tree.departure? id ↔ tree.isElement id ∧ call = .leave id := by
  unfold departure?
  split <;> rename_i helement
  · rw [Option.mem_some_iff]
    exact ⟨fun he ↦ ⟨helement, he.symm⟩, fun h ↦ h.2.symm⟩
  · simp [helement]

theorem Linked.children_eq_nil (h : tree.Linked) (hid : id ≠ root)
    (helement : ¬ tree.isElement id) : tree.children id = [] := by
  by_contra hne
  exact (h.isElement hne).elim hid helement

theorem arrival?_of_isElement (h : tree.isElement id) : tree.arrival? id = some (.enter id) := by
  obtain ⟨name, attrs, hkind⟩ := exists_kind_of_isElement h
  rw [arrival?, hkind]

/-! ## The recursion -/

/-- A list goes through some siblings and all that is below them: each node when it is come to, what
is below it, and its end if it has one. -/
inductive Brackets (tree : Tree) : List NodeId → List WalkEvent → Prop
  | nil : Brackets tree [] []
  | cons {id : NodeId} {ids : List NodeId} {inside after : List WalkEvent} :
    Brackets tree (tree.children id) inside → Brackets tree ids after →
      Brackets tree (id :: ids)
        ((tree.arrival? id).toList ++ inside ++ (tree.departure? id).toList ++ after)

namespace Brackets

private theorem exists_of_preorder (h : tree.Preorder ids l) :
    ∃ events, tree.Brackets ids events := by
  induction h with
  | nil => exact ⟨[], .nil⟩
  | cons _ _ ihinside ihafter =>
    obtain ⟨inside, hinside⟩ := ihinside
    obtain ⟨after, hafter⟩ := ihafter
    exact ⟨_, .cons hinside hafter⟩

/-- The stack goes through siblings as the recursion does and then on with what was below them on
the stack. Each node costs one step, and one more if it is left again. -/
theorem eventsFrom_eq (hl : tree.Preorder ids l) (h : tree.Brackets ids events) (fuel : Nat)
    (stack : List WalkStep) :
    tree.eventsFrom (l.length + l.countP tree.isElement + fuel) (ids.map .enter ++ stack) =
      events ++ tree.eventsFrom fuel stack := by
  induction hl generalizing events stack fuel with
  | nil =>
    cases h
    simp
  | @cons id ids below after _ _ ihbelow ihafter =>
    cases h with
    | @cons _ _ insideEvents afterEvents hinside hafter =>
      have hdeparture (rest : Nat) (stack : List WalkStep) :
          tree.eventsFrom ((if tree.isElement id then 1 else 0) + rest)
            ((if tree.isElement id then [.leave id] else []) ++ stack) =
          (tree.departure? id).toList ++ tree.eventsFrom rest stack := by
        unfold departure?
        split
        · rw [Nat.add_comm, List.singleton_append, eventsFrom, Option.toList_some,
            List.singleton_append]
        · rw [Nat.zero_add, List.nil_append, Option.toList_none, List.nil_append]
      -- The steps of what is below the node, of its end and of its later siblings.
      have hfuel : ([id] ++ below ++ after).length +
          ([id] ++ below ++ after).countP tree.isElement + fuel =
            (below.length + below.countP tree.isElement + ((if tree.isElement id then 1 else 0) +
              (after.length + after.countP tree.isElement + fuel))) + 1 := by
        simp only [List.length_append, List.length_singleton, List.countP_append,
          List.countP_singleton]
        omega
      rw [hfuel, List.map_cons, List.cons_append, eventsFrom, pushed, List.append_assoc,
        ihbelow hinside, hdeparture, ihafter hafter]
      simp only [List.append_assoc]

theorem node_mem (hl : tree.Preorder ids l) (h : tree.Brackets ids events) :
    ∀ call ∈ events, call.node ∈ l := by
  induction hl generalizing events with
  | nil =>
    cases h
    simp
  | cons _ _ ihbelow ihafter =>
    cases h with
    | cons hinside hafter =>
      intro call hcall
      simp only [List.mem_append, Option.mem_toList] at hcall
      rcases hcall with ((hcall | hcall) | hcall) | hcall
      · rw [(node_of_mem_arrival? hcall).1]
        simp
      · exact List.mem_append_left _ (List.mem_append_right _ (ihbelow hinside call hcall))
      · rw [(mem_departure?.1 hcall).2]
        simp [WalkEvent.node]
      · exact List.mem_append_right _ (ihafter hafter call hcall)

/-- Without the ends, a walk meets the nodes in the order in which they are gone through. -/
theorem filter_isLeave (hl : tree.Preorder ids l) (h : tree.Brackets ids events) :
    events.filter (!·.isLeave) = l.filterMap tree.arrival? := by
  induction hl generalizing events with
  | nil =>
    cases h
    rfl
  | @cons id _ _ _ _ _ ihbelow ihafter =>
    cases h with
    | cons hinside hafter =>
      have harrival : (tree.arrival? id).toList.filter (!·.isLeave) =
          [id].filterMap tree.arrival? := by
        rw [List.filterMap_cons, List.filterMap_nil, List.filter_eq_self.2]
        · cases tree.arrival? id <;> rfl
        · intro call hcall
          rw [(node_of_mem_arrival? (Option.mem_toList.1 hcall)).2]
          rfl
      have hdeparture : (tree.departure? id).toList.filter (!·.isLeave) = [] := by
        refine List.filter_eq_nil_iff.2 fun call hcall ↦ ?_
        rw [(mem_departure?.1 (Option.mem_toList.1 hcall)).2]
        simp [WalkEvent.isLeave]
      rw [List.filter_append, List.filter_append, List.filter_append, harrival, hdeparture,
        ihbelow hinside, ihafter hafter, List.append_nil, List.filterMap_append,
        List.filterMap_append]

private theorem count_leave (hl : tree.Preorder ids l) (h : tree.Brackets ids events)
    (id : NodeId) : events.count (.leave id) = (l.filter tree.isElement).count id := by
  induction hl generalizing events with
  | nil =>
    cases h
    rfl
  | @cons first _ _ _ _ _ ihbelow ihafter =>
    cases h with
    | cons hinside hafter =>
      have harrival : (tree.arrival? first).toList.count (.leave id) = 0 := by
        refine List.count_eq_zero.2 fun hmem ↦ ?_
        cases (node_of_mem_arrival? (Option.mem_toList.1 hmem)).2
      have hdeparture : (tree.departure? first).toList.count (.leave id) =
          ([first].filter tree.isElement).count id := by
        unfold departure?
        split <;> rename_i helement
        · simp [helement, List.count_cons]
        · simp [helement]
      rw [List.count_append, List.count_append, List.count_append, harrival, hdeparture,
        ihbelow hinside, ihafter hafter, List.filter_append, List.filter_append, List.count_append,
        List.count_append]
      omega

end Brackets

/-! ## Around an element -/

/-- What is told before, inside and after an element: of nodes with lower numbers, of nodes below
it, and then of nodes behind it or of the ends of elements around it. -/
structure Encloses (tree : Tree) (id : NodeId) (before inside after : List WalkEvent) : Prop where
  before : ∀ call ∈ before, ¬ tree.Below call.node id ∧ call.node < id
  inside : ∀ call ∈ inside, tree.Below call.node id
  after : ∀ call ∈ after, ¬ tree.Below call.node id ∧
    (id < call.node ∨ ∃ p, call = .leave p ∧ tree.Below id p)

/-- Every element is entered, gone through and left. The induction is on the recursion: the element
is the first of some siblings, or below it, or one of the siblings behind it or below one. -/
theorem Brackets.exists_encloses (h : tree.InDocumentOrder) (hl : tree.Preorder ids l)
    (hsorted : l.Pairwise (· < ·)) (hevents : tree.Brackets ids events) (hid : id ∈ l)
    (helement : tree.isElement id) :
    ∃ before inside after, events = before ++ .enter id :: (inside ++ .leave id :: after) ∧
      tree.Encloses id before inside after := by
  induction hl generalizing events with
  | nil => cases hid
  | @cons first ids below behind hbelow hbehind ihbelow ihbehind =>
    cases hevents with
    | @cons _ _ inside after hinside hafter =>
      obtain ⟨hfront, hsortedBehind, hfrontBehind⟩ := List.pairwise_append.1 hsorted
      obtain ⟨hfirst, hsortedBelow⟩ := List.pairwise_cons.1 hfront
      have hmemBelow {m : NodeId} : m ∈ below ↔ tree.Below m first := by
        rw [h.mem_preorder_iff hbelow, below_iff_exists_child]
        simp only [h.mem_children_iff]
      have hnotBelow {m : NodeId} (hlt : m < id) : ¬ tree.Below m id :=
        fun hm ↦ Nat.lt_asymm hlt (h.lt_of_below hm)
      -- What is behind the first sibling has higher numbers than all that is below it.
      have hbehindOf {m : NodeId} (hm : m ∈ [first] ++ below) :
          ∀ call ∈ after, ¬ tree.Below call.node m ∧ m < call.node := by
        intro call hcall
        have hnode := hafter.node_mem hbehind call hcall
        refine ⟨fun hcallBelow ↦ ?_, hfrontBehind m hm _ hnode⟩
        have hcallMem : call.node ∈ below := by
          rcases List.mem_cons.1 hm with rfl | hm
          · exact hmemBelow.2 hcallBelow
          · exact hmemBelow.2 (hcallBelow.trans (hmemBelow.1 hm))
        exact Nat.lt_irrefl _ (hfrontBehind _ (List.mem_append_right _ hcallMem) _ hnode)
      rcases List.mem_append.1 hid with hid | hid
      · rcases List.mem_cons.1 hid with rfl | hid
        · refine ⟨[], inside, after, ?_, by simp, ?_, ?_⟩
          · rw [arrival?_of_isElement helement, departure?, if_pos helement]
            simp
          · exact fun call hcall ↦ hmemBelow.1 (hinside.node_mem hbelow call hcall)
          · exact fun call hcall ↦ (hbehindOf (by simp) call hcall).imp_right Or.inl
        · obtain ⟨before, within, rest, rfl, henclosed⟩ := ihbelow hsortedBelow hinside hid
          refine ⟨(tree.arrival? first).toList ++ before, within,
            rest ++ (tree.departure? first).toList ++ after, by simp, ?_, henclosed.inside, ?_⟩
          · intro call hcall
            rcases List.mem_append.1 hcall with hcall | hcall
            · rw [(node_of_mem_arrival? (Option.mem_toList.1 hcall)).1]
              exact ⟨hnotBelow (hfirst id hid), hfirst id hid⟩
            · exact henclosed.before call hcall
          · intro call hcall
            simp only [List.mem_append, Option.mem_toList] at hcall
            rcases hcall with (hcall | hcall) | hcall
            · exact henclosed.after call hcall
            · obtain rfl := (mem_departure?.1 hcall).2
              exact ⟨hnotBelow (hfirst id hid), Or.inr ⟨first, rfl, hmemBelow.1 hid⟩⟩
            · exact (hbehindOf (List.mem_append_right _ hid) call hcall).imp_right Or.inl
      · obtain ⟨before, within, rest, rfl, henclosed⟩ := ihbehind hsortedBehind hafter hid
        refine ⟨(tree.arrival? first).toList ++ inside ++ (tree.departure? first).toList ++ before,
          within, rest, by simp, ?_, henclosed.inside, henclosed.after⟩
        intro call hcall
        rcases List.mem_append.1 hcall with hcall | hcall
        · have hnode : call.node ∈ [first] ++ below := by
            have hfront : tree.Brackets [first] ((tree.arrival? first).toList ++ inside ++
                (tree.departure? first).toList ++ []) := .cons hinside .nil
            have hpreorder : tree.Preorder [first] ([first] ++ below) := hbelow.singleton
            exact hfront.node_mem hpreorder call (List.mem_append_left _ hcall)
          have hlt := hfrontBehind _ hnode id hid
          exact ⟨hnotBelow hlt, hlt⟩
        · exact henclosed.before call hcall

/-! ## The whole tree -/

namespace InDocumentOrder

theorem brackets_events (h : tree.InDocumentOrder) : tree.Brackets [root] tree.events := by
  obtain ⟨events, hevents⟩ := Brackets.exists_of_preorder h.preorder_root
  have hcount := List.countP_le_length (p := tree.isElement) (l := List.range tree.size)
  rw [List.length_range] at hcount
  obtain ⟨spare, hspare⟩ := Nat.exists_eq_add_of_le
    (show tree.size + (List.range tree.size).countP tree.isElement ≤ 2 * tree.size by omega)
  have hrun := hevents.eventsFrom_eq h.preorder_root spare []
  have hdone : tree.eventsFrom spare [] = [] := by cases spare <;> rfl
  rw [List.length_range, ← hspare, hdone, List.append_nil, List.append_nil] at hrun
  have hall : tree.events = events := hrun
  rw [hall]
  exact hevents

theorem brackets_children_root (h : tree.InDocumentOrder) :
    tree.Brackets (tree.children root) tree.events := by
  have hkind : tree.kind? root = some .document := h.document_iff.2 rfl
  have hevents := h.brackets_events
  generalize tree.events = events at hevents ⊢
  cases hevents with
  | cons hinside hafter =>
    cases hafter
    have harrival : tree.arrival? root = none := by rw [arrival?, hkind]
    have hdeparture : tree.departure? root = none := by
      rw [departure?, isElement_of_kind? hkind]
      rfl
    rw [harrival, hdeparture]
    simpa using hinside

theorem count_leave_events (h : tree.InDocumentOrder) (id : NodeId) :
    tree.events.count (.leave id) = if tree.isElement id then 1 else 0 := by
  rw [h.brackets_events.count_leave h.preorder_root]
  split <;> rename_i helement
  · obtain ⟨name, attrs, hkind⟩ := exists_kind_of_isElement helement
    refine List.count_eq_one_of_mem (List.nodup_range.filter _) ?_
    exact List.mem_filter.2 ⟨List.mem_range.2 (lt_size_of_kind? hkind), helement⟩
  · exact List.count_eq_zero.2 fun hmem ↦ helement (List.mem_filter.1 hmem).2

theorem enter_mem_events_iff (h : tree.InDocumentOrder) :
    .enter id ∈ tree.events ↔ tree.isElement id := by
  have hnodes := h.brackets_events.filter_isLeave h.preorder_root
  have hmem : .enter id ∈ tree.events ↔ .enter id ∈ tree.events.filter (!·.isLeave) := by
    simp [WalkEvent.isLeave]
  rw [hmem, hnodes, List.mem_filterMap]
  constructor
  · rintro ⟨n, -, hn⟩
    obtain rfl : id = n := (node_of_mem_arrival? hn).1
    exact isElement_of_enter_mem_arrival? hn
  · intro helement
    obtain ⟨name, attrs, hkind⟩ := exists_kind_of_isElement helement
    exact ⟨id, List.mem_range.2 (lt_size_of_kind? hkind), arrival?_of_isElement helement⟩

theorem nodup_events (h : tree.InDocumentOrder) : tree.events.Nodup := by
  refine List.nodup_iff_count_le_one.2 fun call ↦ ?_
  cases hleave : call.isLeave with
  | true =>
    cases call with
    | leave id =>
      rw [h.count_leave_events]
      split <;> decide
    | _ => cases hleave
  | false =>
    have hnodes := h.brackets_events.filter_isLeave h.preorder_root
    rw [← List.count_filter (p := (!·.isLeave)) (by rw [hleave]; rfl), hnodes]
    refine List.nodup_iff_count_le_one.1 (List.nodup_range.filterMap fun m n other hm hn ↦ ?_) call
    exact (node_of_mem_arrival? hm).1.symm.trans (node_of_mem_arrival? hn).1

end InDocumentOrder

end Tree

/-! ## Visitors -/

section Visitors

variable {ε σ : Type} {visit : WalkEvent → ExceptT ε (StateM σ) PUnit} {call : WalkEvent}
  {state next : σ} {fault : ε}

private theorem run_forM_cons_of_ok (h : (visit call).run.run state = (.ok ⟨⟩, next))
    (calls : List WalkEvent) :
    ((call :: calls).forM visit).run.run state = (calls.forM visit).run.run next := by
  change (visit call >>= fun _ ↦ calls.forM visit).run.run state = _
  rw [ExceptT.run_bind, StateT.run_bind, h]
  rfl

private theorem run_forM_cons_of_error (h : (visit call).run.run state = (.error fault, next))
    (calls : List WalkEvent) :
    ((call :: calls).forM visit).run.run state = (.error fault, next) := by
  change (visit call >>= fun _ ↦ calls.forM visit).run.run state = _
  rw [ExceptT.run_bind, StateT.run_bind, h]
  rfl

/-- A visitor that also keeps a record of what it is told. -/
def recording (visit : WalkEvent → ExceptT ε (StateM σ) PUnit) (call : WalkEvent) :
    ExceptT ε (StateM (σ × List WalkEvent)) PUnit :=
  ExceptT.mk fun (state, record) ↦
    let (result, state) := (visit call).run.run state
    (result, state, record ++ [call])

private theorem run_recording {result : Except ε PUnit}
    (h : (visit call).run.run state = (result, next)) (record : List WalkEvent) :
    (recording visit call).run.run (state, record) = (result, next, record ++ [call]) := by
  change (((visit call).run.run state).1, ((visit call).run.run state).2, record ++ [call]) = _
  rw [h]

/-- How a visitor that is told one thing after the other ends: it was told of everything, or the
last thing it was told of made it fail. The record changes nothing in this. -/
theorem forM_recording (visit : WalkEvent → ExceptT ε (StateM σ) PUnit) (calls : List WalkEvent)
    (state : σ) (record : List WalkEvent) :
    (∃ last, (calls.forM visit).run.run state = (.ok ⟨⟩, last) ∧
      (calls.forM (recording visit)).run.run (state, record) = (.ok ⟨⟩, last, record ++ calls)) ∨
    ∃ fault last front call rest before, calls = front ++ call :: rest ∧
      (front.forM visit).run.run state = (.ok ⟨⟩, before) ∧
      (visit call).run.run before = (.error fault, last) ∧
      (calls.forM visit).run.run state = (.error fault, last) ∧
      (calls.forM (recording visit)).run.run (state, record) =
        (.error fault, last, record ++ (front ++ [call])) := by
  induction calls generalizing state record with
  | nil => exact Or.inl ⟨state, rfl, by rw [List.append_nil]; rfl⟩
  | cons call calls ih =>
    rcases hcall : (visit call).run.run state with ⟨fault | ⟨⟨⟩⟩, next⟩
    · exact Or.inr ⟨fault, next, [], call, calls, state, rfl, rfl, hcall,
        run_forM_cons_of_error hcall calls,
        run_forM_cons_of_error (run_recording hcall record) calls⟩
    · rw [run_forM_cons_of_ok hcall, run_forM_cons_of_ok (run_recording hcall record)]
      rcases ih next (record ++ [call]) with ⟨last, hplain, hrecorded⟩ |
        ⟨fault, last, front, failed, rest, before, rfl, hfront, hfailed, hplain, hrecorded⟩
      · refine Or.inl ⟨last, hplain, ?_⟩
        rw [hrecorded, List.append_assoc, List.singleton_append]
      · refine Or.inr ⟨fault, last, call :: front, failed, rest, before, rfl, ?_, hfailed, hplain,
          ?_⟩
        · rw [run_forM_cons_of_ok hcall, hfront]
        · rw [hrecorded, List.append_assoc, List.singleton_append, List.cons_append]

end Visitors

/-! ## Files -/

namespace XmlFile

/-- What a visitor of a parsed file is told. All there is to tell are the brackets of the tree.
Apart from the ends of elements these are the nodes that are visited, each once and in the order of
their numbers. Every element has one end, told after all that is below the element and before
anything behind it. A visitor is told all of this, or it is told of everything up to a call on which
it fails, and then the walk fails with the same fault. -/
theorem walk_of_parse {source : Source} {file : XmlFile} (h : parse source = .ok file) :
    let tree := file.document.tree
    ∃ calls, tree.Brackets [Tree.root] calls ∧
      calls.filter (!·.isLeave) = (List.range tree.size).filterMap tree.arrival? ∧
      (∀ id, calls.count (.leave id) = if tree.isElement id then 1 else 0) ∧
      (∀ id, tree.isElement id → ∃ before inside after,
        calls = before ++ .enter id :: (inside ++ .leave id :: after) ∧
          tree.Encloses id before inside after) ∧
      ∀ (ε σ : Type) (visit : WalkEvent → ExceptT ε (StateM σ) PUnit) (state : σ),
        (∃ last, (tree.walk visit).run.run state = (.ok ⟨⟩, last) ∧
          (tree.walk (recording visit)).run.run (state, []) = (.ok ⟨⟩, last, calls)) ∨
        ∃ fault last front call rest before, calls = front ++ call :: rest ∧
          (front.forM visit).run.run state = (.ok ⟨⟩, before) ∧
          (visit call).run.run before = (.error fault, last) ∧
          (tree.walk visit).run.run state = (.error fault, last) ∧
          (tree.walk (recording visit)).run.run (state, []) =
            (.error fault, last, front ++ [call]) := by
  intro tree
  obtain ⟨spans, hbuild, -, -⟩ := Document.exists_spans_of_parse (parse_eq_ok h).2
  have htree := Tree.inDocumentOrder_of_build hbuild
  have hevents := htree.brackets_events
  refine ⟨tree.events, hevents, hevents.filter_isLeave htree.preorder_root,
    htree.count_leave_events, fun id helement ↦ ?_,
    fun ε σ visit state ↦ forM_recording visit tree.events state []⟩
  obtain ⟨name, attrs, hkind⟩ := Tree.exists_kind_of_isElement helement
  exact hevents.exists_encloses htree htree.preorder_root List.pairwise_lt_range
    (List.mem_range.2 (Tree.lt_size_of_kind? hkind)) helement

/-- A visitor that fails when the last element is entered is not told of its end, nor of the end of
the outermost element. -/
theorem walk_of_parse_stopped :
    let visit : WalkEvent → ExceptT String (StateM Unit) PUnit := fun call ↦
      if call = .enter 5 then throw "stopped" else pure ⟨⟩
    ∃ file, parse (.ofText "" "<a><b>x</b><!--c--><d/></a>") = .ok file ∧
      file.document.tree.Brackets [Tree.root] [.enter 1, .enter 2, .text 3 "x", .leave 2,
        .comment 4 "c", .enter 5, .leave 5, .leave 1] ∧
      (file.document.tree.walk (recording visit)).run.run ((), []) = (.error "stopped", (),
        [.enter 1, .enter 2, .text 3 "x", .leave 2, .comment 4 "c", .enter 5]) := by
  intro visit
  have hrun : (parse (.ofText "" "<a><b>x</b><!--c--><d/></a>")).toOption.any (fun file ↦
      file.document.tree.events == [.enter 1, .enter 2, .text 3 "x", .leave 2, .comment 4 "c",
        .enter 5, .leave 5, .leave 1]) = true := by
    decide +kernel
  obtain ⟨file, hparse, hfile⟩ := exists_of_any hrun
  have hwalk : (file.document.tree.walk (recording visit)).run.run ((), []) = (.error "stopped", (),
      [.enter 1, .enter 2, .text 3 "x", .leave 2, .comment 4 "c", .enter 5]) := by
    rw [Tree.walk, beq_iff_eq.1 hfile]
    rfl
  obtain ⟨calls, hbrackets, -, -, -, hvisits⟩ := walk_of_parse hparse
  -- A visitor that never fails is told of everything.
  have hcalls : calls = file.document.tree.events := by
    rcases hvisits String Unit (fun _ ↦ pure ⟨⟩) () with ⟨last, -, hall⟩ |
      ⟨_, _, _, _, _, _, -, -, hcall, -⟩
    · unfold Tree.walk at hall
      rw [beq_iff_eq.1 hfile] at hall
      cases hall
      exact (beq_iff_eq.1 hfile).symm
    · cases hcall
  rw [hcalls, beq_iff_eq.1 hfile] at hbrackets
  exact ⟨file, hparse, hbrackets, hwalk⟩

end XmlFile

end XmlInspect
