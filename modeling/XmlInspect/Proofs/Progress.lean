import XmlInspect.Proofs.Agreement
import XmlInspect.Proofs.Replay

/-!
# When the replay goes on

What a token does once it was replayed is one question and whether it can be replayed is another.
This module is about the second. A token goes through if the next child is there, is what the token
calls for and has the names that stand in it; no slot is in the way, since the slots of a node that
was not found yet are free.

Whether the replay gets to the end is then asked of a state and what is left of the text, so that it
can be followed from one token to the next. A run of text is one step in this, however many tokens
it takes.
-/

namespace XmlInspect

open Markup

/-! ## Results -/

/-- There is a result. -/
def Succeeds {ε α : Type} (x : Except ε α) : Prop := ∃ a, x = .ok a

namespace Succeeds

variable {ε α β : Type} {x : Except ε α} {f : α → Except ε β} {a : α}

theorem ok (a : α) : Succeeds (.ok a : Except ε α) := ⟨a, rfl⟩

theorem bind_ok (hx : x = .ok a) (hf : Succeeds (f a)) : Succeeds (x >>= f) := by
  rw [hx]
  exact hf

end Succeeds

namespace Binder

variable {d : Binder} {id : NodeId} {kind : NodeKind} {expected : Expected}

/-! ## Leaves -/

theorem nextChild_eq (h : d.Meets expected id kind) :
    d.nextChild expected = .ok (id, d.advance) := by
  obtain ⟨hnext, hkind, haccepts⟩ := h
  rw [next?] at hnext
  unfold nextChild
  dsimp only
  rw [hnext]
  dsimp only
  rw [hkind, Option.getD_some, if_pos haccepts]
  rfl

theorem succeeds_bindDelimited (hfresh : d.Fresh) (hmeets : d.Meets expected id kind)
    (token : Token) : Succeeds (d.bindDelimited expected token) := by
  obtain ⟨hlt, hempty⟩ := hfresh id hmeets.1
  refine .bind_ok (nextChild_eq hmeets) ?_
  refine .bind_ok (setNode_eq hempty rfl) ?_
  refine .bind_ok (setNode_fill (d := d.advance) hlt rfl) ?_
  exact ⟨_, setNode_fill (d := d.advance) hlt rfl⟩

theorem succeeds_bindDoctype (hfresh : d.Fresh) (hmeets : d.Meets .doctype id kind)
    (token : Token) : Succeeds (d.bindDoctype token) := by
  refine .bind_ok (nextChild_eq hmeets) ?_
  exact ⟨_, setNode_eq (hfresh id hmeets.1).2 rfl⟩

/-! ## Tags -/

private theorem succeeds_bindAttributes (id : NodeId) {left : List AttrId}
    {attrs : List AttributeLexeme} (hnodup : left.Nodup)
    (hleft : ∀ a ∈ left, a < d.spans.attributes.size ∧ d.spans.attrRanges a = .empty)
    (hnames : List.Forall₂ (Names d.tree) left attrs) :
    Succeeds (bindAttributes id d left attrs) := by
  induction attrs generalizing d left with
  | nil =>
    cases hnames
    exact .ok d
  | cons attr attrs ih =>
    cases hnames with
    | @cons a _ left _ hname hnames =>
      obtain ⟨hnot, hnodup⟩ := List.nodup_cons.1 hnodup
      obtain ⟨⟨hlt, hempty⟩, hleft⟩ := List.forall_mem_cons.1 hleft
      -- The first attribute left has the name, so the search stops there.
      have hfind : (a :: left).find? (fun attr' ↦ d.tree.writtenAttr? attr' ==
          some (String.ofList attr.name.text)) = some a :=
        List.find?_cons_of_pos (by simpa [Names] using hname)
      unfold bindAttributes
      dsimp only
      rw [hfind]
      refine .bind_ok (setAttr_eq hempty rfl) ?_
      refine .bind_ok (setAttr_fill hlt rfl) ?_
      refine .bind_ok (setAttr_fill hlt rfl) ?_
      rw [List.erase_cons_head]
      refine ih hnodup (fun b hb ↦ ?_) hnames
      have hne : b ≠ a := fun he ↦ hnot (he ▸ hb)
      rw [d.spans.attrRanges_fillAttr hlt, Function.update_of_ne hne, TreeSpans.fillAttr,
        Array.size_setIfInBounds]
      exact hleft b hb

theorem succeeds_bindOpenTag {name : Lexeme} {attrs : List AttributeLexeme} (hfresh : d.Fresh)
    (hattrs : d.FreshAttrs) (hmeets : d.Meets .element id kind)
    (hname : String.ofList name.text = ((d.tree.name? id).map (·.written)).getD "")
    (hnames : List.Forall₂ (Names d.tree) (d.tree.attributesOf id) attrs) (token : Token)
    (selfClosing : Bool) : Succeeds (d.bindOpenTag token name attrs selfClosing) := by
  obtain ⟨hlt, hempty⟩ := hfresh id hmeets.1
  obtain ⟨hnodup, hroom⟩ := hattrs id hmeets.1
  have hsame : d.advance.sameName name id = .ok () := if_pos hname
  refine .bind_ok (nextChild_eq hmeets) ?_
  refine .bind_ok hsame ?_
  refine .bind_ok (setNode_eq hempty rfl) ?_
  refine .bind_ok (setNode_fill (d := d.advance) hlt rfl) ?_
  dsimp only
  have hlength : (d.advance.tree.attributesOf id).length = attrs.length := hnames.length_eq
  rw [if_neg (not_not.2 hlength)]
  let opened : Binder := { d.advance with
    spans := d.spans.fill id (openPlaces token.span name.span) }
  obtain ⟨bound, hbound⟩ : Succeeds (bindAttributes id opened (d.tree.attributesOf id) attrs) :=
    succeeds_bindAttributes id hnodup hroom hnames
  refine .bind_ok hbound ?_
  obtain ⟨ids, others, -, -, -, rfl⟩ :=
    (yields_bindAttributes (d := opened) id hnodup hroom).elim hbound
  cases selfClosing with
  | true =>
    -- The last slots of the element are filled after its attributes, which comes to the same.
    rw [← TreeSpans.fill_fillAttrs]
    let base : Binder := { d.advance with spans := d.spans.fillAttrs ids attrs }
    have hbase : id < base.spans.nodes.size := by
      rw [TreeSpans.nodes_fillAttrs]
      exact hlt
    refine .bind_ok (setNode_fill hbase rfl) ?_
    exact ⟨_, setNode_fill hbase rfl⟩
  | false => exact .ok _

theorem succeeds_bindCloseTag {visit : Visit} {outer : List Visit} {written : Lexeme}
    (houter : d.outer = visit :: outer) (hopen : d.Open)
    (hvisited : d.current.visited = (d.tree.children d.current.node).length)
    (hname : String.ofList written.text =
      ((d.tree.name? d.current.node).map (·.written)).getD "") (token : Token) :
    Succeeds (d.bindCloseTag token written) := by
  obtain ⟨hlt, opening, name, hranges⟩ := hopen
  have hall : d.allVisited d.current = .ok () := if_pos hvisited
  have hsame : d.sameName written d.current.node = .ok () := if_pos hname
  unfold bindCloseTag
  rw [houter]
  dsimp only
  refine .bind_ok hall ?_
  refine .bind_ok hsame ?_
  rw [show d.spans.nodes.getD d.current.node .empty = _ from hranges]
  dsimp only [openPlaces]
  refine .bind_ok (setNode_eq (d := { d with current := visit, outer }) hranges rfl) ?_
  exact ⟨_, setNode_fill (d := { d with current := visit, outer }) hlt rfl⟩

theorem succeeds_bindDeclaration {token : Token} (hstart : token.start = 0)
    (hprolog : d.spans.prolog = none) (attributes : List AttributeLexeme) :
    Succeeds (d.bindDeclaration token attributes) := by
  unfold bindDeclaration
  rw [if_neg (by simp [hstart, hprolog])]
  exact .ok _

/-- At the end nothing may be open, and the document has to have something in it. -/
theorem succeeds_finish (hpending : d.pending = none) (houter : d.outer = [])
    (hvisited : d.current.visited = (d.tree.children d.current.node).length)
    (hroot : d.spans.ranges Tree.root = .empty) (hne : d.tree.children Tree.root ≠ [])
    (hwhole : ∀ id ∈ d.tree.children Tree.root, ∃ span, (d.spans.ranges id).whole = some span) :
    Succeeds d.finish := by
  obtain ⟨last, hlast⟩ := hwhole _ (List.getLast_mem hne)
  obtain ⟨head, hhead⟩ := hwhole _ (List.head_mem hne)
  have hall : d.allVisited d.current = .ok () := if_pos hvisited
  have hbind : Succeeds d.bindRoot := by
    obtain ⟨first, hfirst⟩ : ∃ first,
        (d.spans.prolog.map (·.opening)).or (some head) = some first := by
      cases d.spans.prolog <;> exact ⟨_, rfl⟩
    rw [TreeSpans.ranges] at hlast hhead
    unfold bindRoot
    dsimp only
    rw [List.getLast?_eq_some_getLast hne, List.head?_eq_some_head hne, Option.bind_some,
      Option.bind_some, hlast, hhead, hfirst]
    exact ⟨_, setNode_eq hroot rfl⟩
  unfold finish
  refine .bind_ok (flush_of_pending_eq_none hpending) ?_
  rw [houter]
  dsimp only
  refine .bind_ok hall ?_
  obtain ⟨bound, hbound⟩ := hbind
  exact .bind_ok hbound (.ok _)

theorem take_of_pending (h : d.pending = none) (token : Token) :
    d.take token = match token.form with
      | .text => d.bindText token.span
      | .declaration attributes => d.bindDeclaration token attributes
      | .instruction => .ok d
      | .doctype => d.bindDoctype token
      | .comment => d.bindDelimited .comment token
      | .cdata => d.bindDelimited .cdata token
      | .openTag name attributes selfClosing => d.bindOpenTag token name attributes selfClosing
      | .closeTag name => d.bindCloseTag token name := by
  unfold take
  rw [flush_of_pending_eq_none h]
  cases token.form <;> rfl

/-! ## To the end -/

/-- The replay gets from a state to the end of the text that is left. -/
def Completes (d : Binder) (offset : Nat) (text : List Char) : Prop :=
  (Token.scanFrom offset text).2 = none ∧
    ∃ last, (Token.scanFrom offset text).1.foldlM take d = .ok last ∧ Succeeds last.finish

variable {offset : Nat} {c : Char} {text rest raw : List Char} {form : TokenForm} {next : Cursor}

theorem completes_nil : d.Completes offset [] ↔ Succeeds d.finish := by
  rw [Completes, Token.scanFrom_nil]
  simp [List.foldlM_nil, pure, Except.pure]

theorem completes_cons (h : Cursor.token offset c text = .ok (form, next))
    (hraw : c :: text = raw ++ next.rest) :
    d.Completes offset (c :: text) ↔ ∃ d', d.take ⟨offset, raw, form⟩ = .ok d' ∧
      d'.Completes (offset + Text.byteSize raw) next.rest := by
  simp only [Completes, Token.scanFrom_cons h hraw, foldlM_cons_eq_ok_iff]
  constructor
  · rintro ⟨hfault, last, ⟨d', htake, hrun⟩, hfinish⟩
    exact ⟨d', htake, hfault, last, hrun, hfinish⟩
  · rintro ⟨d', htake, hfault, last, hrun, hfinish⟩
    exact ⟨hfault, last, ⟨d', htake, hrun⟩, hfinish⟩

private theorem not_completes_of_error {fault : ScanFault}
    (h : Cursor.token offset c text = .error fault) : ¬ d.Completes offset (c :: text) := by
  rw [Completes, Token.scanFrom_error h]
  rintro ⟨hfault, -⟩
  cases hfault

theorem completes_markup : d.Completes offset ('<' :: text) ↔ ∃ form next raw d',
    Cursor.markup offset text = .ok (form, next) ∧ '<' :: text = raw ++ next.rest ∧
      d.take ⟨offset, raw, form⟩ = .ok d' ∧
      d'.Completes (offset + Text.byteSize raw) next.rest := by
  have htoken : Cursor.token offset '<' text = Cursor.markup offset text := if_pos rfl
  constructor
  · intro h
    cases hmarkup : Cursor.markup offset text with
    | error fault => exact absurd h (not_completes_of_error (htoken.trans hmarkup))
    | ok result =>
      obtain ⟨form, next⟩ := result
      obtain ⟨front, hfront⟩ := Cursor.suffix_of_markup hmarkup
      have hraw : '<' :: text = '<' :: front ++ next.rest := by rw [← hfront, List.cons_append]
      obtain ⟨d', htake, hrest⟩ := (completes_cons (htoken.trans hmarkup) hraw).1 h
      exact ⟨form, next, _, d', rfl, hraw, htake, hrest⟩
  · rintro ⟨form, next, raw, d', hmarkup, hraw, htake, hrest⟩
    exact (completes_cons (htoken.trans hmarkup) hraw).2 ⟨d', htake, hrest⟩

/-! ## Text -/

/-- A run of text is bound when it is over, but might be bound before what follows as well. -/
theorem completes_flush {e : Binder} (hflush : e.flush = .ok d) (hpending : d.pending = none)
    (hhead : ∀ c ∈ text.head?, c = '<') : e.Completes offset text ↔ d.Completes offset text := by
  cases text with
  | nil =>
    have hfinish : e.finish = d.finish := by
      unfold finish
      rw [hflush, flush_of_pending_eq_none hpending]
    rw [completes_nil, completes_nil, hfinish]
  | cons c text =>
    obtain rfl : c = '<' := hhead c rfl
    rw [completes_markup, completes_markup]
    refine exists_congr fun form ↦ exists_congr fun next ↦ exists_congr fun raw ↦
      exists_congr fun d' ↦ and_congr_right fun hmarkup ↦ and_congr_right fun _ ↦ ?_
    rw [take_of_flush hflush hpending (Cursor.form_ne_text_of_markup hmarkup)]

/-- The state in a run of text. -/
def awaiting (d : Binder) (id : NodeId) (start stop : Nat) : Binder :=
  { d with pending := some (id, ⟨start, stop⟩) }

/-- As long as a run of text lasts, it only gets longer. -/
theorem completes_awaiting {entity? : List Char → Option (List Char)} {run : List Char}
    (hrun : IsReadable entity? run) (hfree : '<' ∉ run) (hrest : ∀ c ∈ rest.head?, c = '<')
    (id : NodeId) (start offset : Nat) :
    (d.awaiting id start offset).Completes offset (run ++ rest) ↔
      (d.awaiting id start (offset + Text.byteSize run)).Completes
        (offset + Text.byteSize run) rest := by
  -- On the length of the run, of which the next token takes at least one character.
  induction hn : run.length using Nat.strong_induction_on generalizing run offset with
  | _ n ih =>
    cases run with
    | nil => rfl
    | cons c run =>
      have hc : c ≠ '<' := fun he ↦ hfree (he ▸ List.mem_cons_self)
      obtain ⟨raw, left, hsplit, hleft, htoken⟩ := Cursor.token_text hrun hc hrest offset
      have hraw : c :: (run ++ rest) = raw ++ (left ++ rest) := by
        rw [← List.append_assoc, ← hsplit, List.cons_append]
      have htake : (d.awaiting id start offset).take ⟨offset, raw, .text⟩ =
          .ok (d.awaiting id start (offset + Text.byteSize raw)) := rfl
      have hlength : left.length < n := by
        have hle := (Cursor.suffix_of_token htoken).length_le
        simp only [List.length_append, List.length_cons] at hle hn
        omega
      have hfree' : '<' ∉ left := by
        rw [hsplit] at hfree
        exact fun hmem ↦ hfree (List.mem_append_right _ hmem)
      rw [List.cons_append, completes_cons htoken hraw, htake]
      simp only [Except.ok.injEq, exists_eq_left']
      rw [ih left.length hlength hleft hfree' _ rfl, hsplit, Text.byteSize_append, Nat.add_assoc]

private theorem flush_awaiting {start stop : Nat} (hpending : d.pending = none)
    (hempty : d.spans.ranges id = .empty) : (d.awaiting id start stop).flush =
      .ok { d with spans := d.spans.fill id ⟨some ⟨start, stop⟩, none, none, none, none⟩ } := by
  have hflush : (d.awaiting id start stop).flush =
      { d with pending := none }.setNode id .whole ⟨start, stop⟩ := rfl
  rw [hflush, ← hpending]
  exact setNode_eq hempty rfl

/-- A run of text is replayed as a whole. -/
theorem completes_text {entity? : List Char → Option (List Char)} {run : List Char}
    (hrun : IsReadable entity? run) (hne : run ≠ []) (hfree : '<' ∉ run)
    (hrest : ∀ c ∈ rest.head?, c = '<') (hpending : d.pending = none) (hfresh : d.Fresh)
    (hmeets : d.Meets .text id kind) (offset : Nat) :
    ∃ d', d.Binds .text ⟨some ⟨offset, offset + Text.byteSize run⟩, none, none, none, none⟩ d' ∧
      d'.pending = none ∧ (d.Completes offset (run ++ rest) ↔
        d'.Completes (offset + Text.byteSize run) rest) := by
  obtain ⟨c, run, rfl⟩ := List.exists_cons_of_ne_nil hne
  have hc : c ≠ '<' := fun he ↦ hfree (he ▸ List.mem_cons_self)
  obtain ⟨raw, left, hsplit, hleft, htoken⟩ := Cursor.token_text hrun hc hrest offset
  have hraw : c :: (run ++ rest) = raw ++ (left ++ rest) := by
    rw [← List.append_assoc, ← hsplit, List.cons_append]
  have htake : d.take ⟨offset, raw, .text⟩ =
      .ok (d.advance.awaiting id offset (offset + Text.byteSize raw)) := by
    rw [take_of_pending hpending]
    dsimp only
    rw [bindText, hpending]
    exact bind_eq_ok_iff.2 ⟨_, nextChild_eq hmeets, rfl⟩
  have hfree' : '<' ∉ left := by
    rw [hsplit] at hfree
    exact fun hmem ↦ hfree (List.mem_append_right _ hmem)
  have hsize : offset + Text.byteSize (c :: run) =
      offset + Text.byteSize raw + Text.byteSize left := by
    rw [hsplit, Text.byteSize_append, Nat.add_assoc]
  refine ⟨_, ⟨id, kind, hmeets, rfl⟩, hpending, ?_⟩
  rw [List.cons_append, completes_cons htoken hraw, htake]
  simp only [Except.ok.injEq, exists_eq_left']
  rw [completes_awaiting hleft hfree' hrest, hsize]
  exact completes_flush (flush_awaiting hpending (hfresh id hmeets.1).2) hpending hrest

end Binder

/-- Binding succeeds if the replay gets to the end. -/
theorem Document.succeeds_bind_iff {tree : Tree} {body : List Char} :
    Succeeds (Document.bind tree body) ↔ (Binder.initial tree).Completes 0 body := by
  have hscan : Token.scan body = Token.scanFrom 0 body := rfl
  unfold Document.bind Binder.Completes
  rw [hscan]
  dsimp only
  constructor
  · rintro ⟨spans, h⟩
    obtain ⟨last, hrun, h⟩ := bind_eq_ok_iff.1 h
    split at h
    · cases h
    · rename_i hfault
      exact ⟨hfault, last, mapError_eq_ok_iff.1 hrun, spans, mapError_eq_ok_iff.1 h⟩
  · rintro ⟨hfault, last, hrun, spans, hfinish⟩
    refine .bind_ok (mapError_eq_ok_iff.2 hrun) ?_
    rw [hfault]
    exact ⟨spans, mapError_eq_ok_iff.2 hfinish⟩

end XmlInspect
