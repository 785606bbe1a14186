import Mathlib.Data.List.Forall2
import Mathlib.Data.List.Pairwise
import XmlInspect.Proofs.Slice

/-!
# From spans to ranges

A document is made in three stages, each of which may fail: a tree is built, tokens are bound to
it, and the spans that come out are moved into the file. This module takes a document apart again.
It says of every range of a document which span of the body it comes from, so that whatever is known
of spans carries over to ranges and nobody else has to look into the stages.
-/

namespace XmlInspect

/-! ## Results that are no faults -/

theorem mapError_eq_ok_iff {ε ε' α : Type} {f : ε → ε'} {x : Except ε α} {a : α} :
    x.mapError f = .ok a ↔ x = .ok a := by
  cases x with
  | error e => simp [Except.mapError]
  | ok b => simp [Except.mapError]

theorem bind_eq_ok_iff {ε α β : Type} {x : Except ε α} {f : α → Except ε β} {b : β} :
    x >>= f = .ok b ↔ ∃ a, x = .ok a ∧ f a = .ok b := by
  cases x with
  | error e => simp [bind, Except.bind]
  | ok a => simp [bind, Except.bind]

theorem mapError_eq_error_iff {ε ε' α : Type} {f : ε → ε'} {x : Except ε α} {e' : ε'} :
    x.mapError f = .error e' ↔ ∃ e, x = .error e ∧ f e = e' := by
  cases x with
  | error e => simp [Except.mapError]
  | ok a => simp [Except.mapError]

theorem bind_eq_error_iff {ε α β : Type} {x : Except ε α} {f : α → Except ε β} {e : ε} :
    x >>= f = .error e ↔ x = .error e ∨ ∃ a, x = .ok a ∧ f a = .error e := by
  cases x with
  | error e => simp [bind, Except.bind]
  | ok a => simp [bind, Except.bind]

theorem map_eq_ok_iff {ε α β : Type} {f : α → β} {x : Except ε α} {b : β} :
    x.map f = .ok b ↔ ∃ a, x = .ok a ∧ f a = b := by
  cases x with
  | error e => simp [Except.map]
  | ok a => simp [Except.map]

theorem exists_of_any {ε α : Type} {x : Except ε α} {p : α → Bool}
    (h : x.toOption.any p = true) : ∃ a, x = .ok a ∧ p a = true := by
  cases x with
  | error e => cases h
  | ok a => exact ⟨a, rfl, h⟩

theorem foldlM_cons_eq_ok_iff {ε σ α : Type} {f : σ → α → Except ε σ} {s t : σ} {a : α}
    {l : List α} : (a :: l).foldlM f s = .ok t ↔ ∃ m, f s a = .ok m ∧ l.foldlM f m = .ok t := by
  rw [List.foldlM_cons, bind_eq_ok_iff]

/-- What every step keeps, a run keeps. -/
theorem foldlM_induction {ε σ α : Type} {f : σ → α → Except ε σ} {P : σ → Prop} {l : List α}
    {s t : σ} (hstep : ∀ s a t, P s → f s a = .ok t → P t) (hs : P s)
    (hrun : l.foldlM f s = .ok t) : P t := by
  induction l generalizing s with
  | nil =>
    cases hrun
    exact hs
  | cons a l ih =>
    obtain ⟨m, hm, hrun⟩ := foldlM_cons_eq_ok_iff.1 hrun
    exact ih (hstep s a m hs hm) hrun

theorem forall₂_of_mapM {ε α β : Type} {f : α → Except ε β} {l : List α} {l' : List β}
    (h : l.mapM f = .ok l') : List.Forall₂ (fun a b ↦ f a = .ok b) l l' := by
  induction l generalizing l' with
  | nil =>
    cases h
    exact .nil
  | cons a l ih =>
    rw [List.mapM_cons] at h
    obtain ⟨b, hb, h⟩ := bind_eq_ok_iff.1 h
    obtain ⟨bs, hbs, h⟩ := bind_eq_ok_iff.1 h
    cases h
    exact .cons hb (ih hbs)

theorem exists_mapM_eq_ok {ε α β : Type} {f : α → Except ε β} {r : α → β → Prop} {l : List α}
    (h : ∀ a ∈ l, ∃ b, f a = .ok b ∧ r a b) : ∃ l', l.mapM f = .ok l' ∧ List.Forall₂ r l l' := by
  induction l with
  | nil => exact ⟨[], rfl, .nil⟩
  | cons a l ih =>
    obtain ⟨⟨b, hb, hab⟩, hl⟩ := List.forall_mem_cons.1 h
    obtain ⟨bs, hbs, hrest⟩ := ih hl
    refine ⟨b :: bs, ?_, .cons hab hrest⟩
    rw [List.mapM_cons, hb, hbs]
    rfl

theorem exists_append_of_getElem? {α : Type*} {l : List α} {i : Nat} {a : α}
    (h : l[i]? = some a) : ∃ front rest, l = front ++ a :: rest ∧ front.length = i := by
  obtain ⟨hi, rfl⟩ := List.getElem?_eq_some_iff.1 h
  refine ⟨l.take i, l.drop (i + 1), ?_, List.length_take_of_le (Nat.le_of_lt hi)⟩
  rw [List.getElem_cons_drop, List.take_append_drop]

private theorem rel_getElem?_of_forall₂ {α β : Type} {r : α → β → Prop} {l : List α} {l' : List β}
    (h : List.Forall₂ r l l') (i : Nat) : Option.Rel r l[i]? l'[i]? := by
  induction h generalizing i with
  | nil => exact .none
  | cons hab _ ih =>
    cases i with
    | zero => exact .some hab
    | succ i => simpa using ih i

/-- What has a partner has one that is related to it. -/
theorem exists_of_rel {α β : Type} {r : α → β → Prop} {a? : Option α} {b? : Option β} {a : α}
    (h : Option.Rel r a? b?) (ha : a? = some a) : ∃ b, b? = some b ∧ r a b := by
  cases h with
  | none => cases ha
  | some hab =>
    cases ha
    exact ⟨_, rfl, hab⟩

theorem exists_of_forall₂_of_mem {α β : Type} {r : α → β → Prop} {l : List α} {l' : List β} {a : α}
    (h : List.Forall₂ r l l') (ha : a ∈ l) : ∃ b ∈ l', r a b := by
  induction h with
  | nil => cases ha
  | cons hab _ ih =>
    rcases List.mem_cons.1 ha with rfl | ha
    · exact ⟨_, List.mem_cons_self, hab⟩
    · obtain ⟨b, hb, hr⟩ := ih ha
      exact ⟨b, List.mem_cons_of_mem _ hb, hr⟩

theorem forall₂_comp {α β γ : Type} {r : α → β → Prop} {s : β → γ → Prop} {t : α → γ → Prop}
    {l : List α} {l' : List β} {l'' : List γ} (h : List.Forall₂ r l l')
    (h' : List.Forall₂ s l' l'') (ht : ∀ {a b c}, r a b → s b c → t a c) :
    List.Forall₂ t l l'' := by
  induction h generalizing l'' with
  | nil =>
    cases h'
    exact .nil
  | cons hab _ ih =>
    cases h' with
    | cons hbc h' => exact .cons (ht hab hbc) (ih h')

theorem exists_of_forall₂_of_mem_right {α β : Type} {r : α → β → Prop} {l : List α} {l' : List β}
    {b : β} (h : List.Forall₂ r l l') (hb : b ∈ l') : ∃ a ∈ l, r a b :=
  exists_of_forall₂_of_mem (List.Forall₂.flip (R := flip r) h) hb

theorem forall_mem_iff_of_forall₂ {α β : Type} {r : α → β → Prop} {p : α → Prop} {q : β → Prop}
    {l : List α} {l' : List β} (h : List.Forall₂ r l l') (hpq : ∀ {a b}, r a b → (p a ↔ q b)) :
    (∀ a ∈ l, p a) ↔ ∀ b ∈ l', q b := by
  induction h with
  | nil => simp
  | cons hfirst _ ih => rw [List.forall_mem_cons, List.forall_mem_cons, hpq hfirst, ih]

/-- Related elements stand in related orders. -/
theorem pairwise_of_forall₂ {α β : Type} {r : α → β → Prop} {s : α → α → Prop} {t : β → β → Prop}
    {l : List α} {l' : List β} (h : List.Forall₂ r l l') (hs : l.Pairwise s)
    (ht : ∀ {a b a' b'}, r a a' → r b b' → s a b → t a' b') : l'.Pairwise t := by
  induction h with
  | nil => exact .nil
  | cons hfirst hrest ih =>
    obtain ⟨hbefore, hs⟩ := List.pairwise_cons.1 hs
    refine .cons (fun b' hb' ↦ ?_) (ih hs)
    obtain ⟨b, hb, hr⟩ := exists_of_forall₂_of_mem_right hrest hb'
    exact ht hfirst hr (hbefore b hb)

theorem rel_or_rel_of_pairwise {α : Type} {r : α → α → Prop} {l : List α} {a b : α}
    (h : l.Pairwise r) (ha : a ∈ l) (hb : b ∈ l) (hne : a ≠ b) : r a b ∨ r b a := by
  have hsymm : Std.Symm fun a b ↦ r a b ∨ r b a := ⟨fun _ _ ↦ Or.symm⟩
  have heither : l.Pairwise fun a b ↦ r a b ∨ r b a := h.imp Or.inl
  exact heither.forall ha hb hne

theorem pairwise_zipIdx {α : Type} (l : List α) :
    l.zipIdx.Pairwise fun a later ↦ a.2 < later.2 := by
  rw [← List.pairwise_map, List.zipIdx_map_snd]
  exact List.pairwise_lt_range'

private theorem rel_getElem?_of_mapM {ε α β : Type} {f : α → Except ε β} {xs : Array α}
    {ys : Array β}
    (h : xs.mapM f = .ok ys) (i : Nat) : Option.Rel (fun a b ↦ f a = .ok b) xs[i]? ys[i]? := by
  rw [Array.mapM_eq_mapM_toList] at h
  cases hl : xs.toList.mapM f with
  | error fault =>
    rw [hl] at h
    cases h
  | ok l =>
    rw [hl] at h
    cases h
    simpa using rel_getElem?_of_forall₂ (forall₂_of_mapM hl) i

namespace Ranges

variable {ε α β : Type} {f : α → Except ε β}

theorem rel_of_mapPlace {place : Option α} {place' : Option β} (h : mapPlace f place = .ok place') :
    Option.Rel (fun a b ↦ f a = .ok b) place place' := by
  unfold mapPlace at h
  split at h
  · split at h
    · rename_i hb
      cases h
      exact .some hb
    · cases h
  · cases h
    exact .none

private theorem rel_get_of_mapM {ranges : Ranges α} {ranges' : Ranges β}
    (h : ranges.mapM f = .ok ranges') (slot : Slot) :
    Option.Rel (fun a b ↦ f a = .ok b) (ranges.get slot) (ranges'.get slot) := by
  unfold mapM at h
  obtain ⟨whole, hwhole, h⟩ := bind_eq_ok_iff.1 h
  obtain ⟨opening, hopening, h⟩ := bind_eq_ok_iff.1 h
  obtain ⟨closing, hclosing, h⟩ := bind_eq_ok_iff.1 h
  obtain ⟨name, hname, h⟩ := bind_eq_ok_iff.1 h
  obtain ⟨value, hvalue, h⟩ := bind_eq_ok_iff.1 h
  cases h
  cases slot with
  | whole => exact rel_of_mapPlace hwhole
  | opening => exact rel_of_mapPlace hopening
  | closing => exact rel_of_mapPlace hclosing
  | name => exact rel_of_mapPlace hname
  | value => exact rel_of_mapPlace hvalue

@[simp] theorem get_empty (slot : Slot) : (empty : Ranges α).get slot = none := by
  cases slot <;> rfl

end Ranges

/-! ## Spans and ranges -/

namespace TreeSpans

/-- Where the parts of a node stand in the body. -/
def ranges (spans : TreeSpans) (id : NodeId) : Ranges Span := spans.nodes.getD id .empty

/-- Where the parts of an attribute stand in the body. -/
def attrRanges (spans : TreeSpans) (id : AttrId) : Ranges Span := spans.attributes.getD id .empty

end TreeSpans

namespace Source

/-- A range lies in the file where a span lies in the body. -/
structure Covers (source : Source) (span : Span) (range : TextRange) : Prop where
  start_eq : range.start = source.positionAt span.start
  stop_eq : range.stop = source.positionAt span.stop

theorem covers_of_rangeOf {source : Source} {span : Span} {range : TextRange}
    (h : source.rangeOf (Locator.of source.body) span = .ok range) : source.Covers span range := by
  obtain ⟨hstart, hstop⟩ := TextRange.between_eq_ok_iff.1 h
  exact ⟨hstart, hstop⟩

theorem Covers.slice {uri : String} {charset : Charset} {text chars : List Char} {span : Span}
    {range : TextRange} (h : (ofChars uri charset text).Covers span range)
    (hspan : Text.Stands (ofChars uri charset text).body span.start span.stop chars) :
    range.slice text = chars := by
  rw [TextRange.slice, h.start_eq, h.stop_eq]
  exact between_positionAt hspan

/-- A pseudo-attribute lies in the file where its lexemes lie in the body. -/
structure LocatesAttr (source : Source) (lexeme : AttributeLexeme) (attr : PrologAttribute) :
    Prop where
  name : attr.name = String.ofList lexeme.name.text
  nameRange : source.Covers lexeme.name.span attr.nameRange
  value : attr.value = String.ofList ((lexeme.value.text.drop 1).dropLast)
  valueRange : source.Covers lexeme.value.span attr.valueRange

/-- A declaration lies in the file where its token lies in the body. -/
structure Locates (source : Source) (spans : PrologSpans) (prolog : Prolog) : Prop where
  range : source.Covers spans.whole prolog.range
  opening : source.Covers spans.opening prolog.opening
  closing : source.Covers spans.closing prolog.closing
  attributes : List.Forall₂ source.LocatesAttr spans.attributes prolog.attributes

private theorem locatesAttr_of_locateAttribute {source : Source} {lexeme : AttributeLexeme}
    {attr : PrologAttribute}
    (h : source.locateAttribute (Locator.of source.body) lexeme = .ok attr) :
    source.LocatesAttr lexeme attr := by
  unfold locateAttribute at h
  obtain ⟨nameRange, hname, h⟩ := bind_eq_ok_iff.1 h
  obtain ⟨valueRange, hvalue, h⟩ := bind_eq_ok_iff.1 h
  cases h
  exact ⟨rfl, covers_of_rangeOf hname, rfl, covers_of_rangeOf hvalue⟩

private theorem locates_of_locateProlog {source : Source} {spans : PrologSpans} {prolog : Prolog}
    (h : source.locateProlog (Locator.of source.body) spans = .ok prolog) :
    source.Locates spans prolog := by
  unfold locateProlog at h
  obtain ⟨range, hrange, h⟩ := bind_eq_ok_iff.1 h
  obtain ⟨opening, hopening, h⟩ := bind_eq_ok_iff.1 h
  obtain ⟨closing, hclosing, h⟩ := bind_eq_ok_iff.1 h
  obtain ⟨attrs, hattrs, h⟩ := bind_eq_ok_iff.1 h
  cases h
  exact ⟨covers_of_rangeOf hrange, covers_of_rangeOf hopening, covers_of_rangeOf hclosing,
    (forall₂_of_mapM hattrs).imp fun _ _ ↦ locatesAttr_of_locateAttribute⟩

end Source

namespace Document

variable {source : Source} {mode : NamespaceMode} {spans : TreeSpans} {doc : Document}

/-- The stages behind a document. -/
theorem exists_spans_of_parse (h : parse source mode = .ok doc) :
    ∃ spans, Tree.build mode source.body = .ok doc.tree ∧
      Document.bind doc.tree source.body = .ok spans ∧
      locate source doc.tree spans = .ok doc := by
  unfold parse at h
  obtain ⟨tree, htree, h⟩ := bind_eq_ok_iff.1 h
  obtain ⟨spans, hspans, h⟩ := bind_eq_ok_iff.1 h
  have hlocate := mapError_eq_ok_iff.1 h
  have hdoc : doc.tree = tree := by
    unfold locate at hlocate
    obtain ⟨_, _, hlocate⟩ := bind_eq_ok_iff.1 hlocate
    obtain ⟨_, _, hlocate⟩ := bind_eq_ok_iff.1 hlocate
    obtain ⟨_, _, hlocate⟩ := bind_eq_ok_iff.1 hlocate
    cases hlocate
    rfl
  rw [hdoc]
  exact ⟨spans, mapError_eq_ok_iff.1 htree, mapError_eq_ok_iff.1 hspans, hlocate⟩

/-- The stage in which parsing failed. -/
theorem parse_eq_error {error : Error} (h : parse source mode = .error error) :
    (∃ fault, Tree.build mode source.body = .error fault ∧ malformed source fault = error) ∨
      ∃ tree, Tree.build mode source.body = .ok tree ∧
        ((∃ fault, Document.bind tree source.body = .error fault ∧ .internal fault = error) ∨
          ∃ spans, Document.bind tree source.body = .ok spans ∧
            ∃ fault, locate source tree spans = .error fault ∧ .invalidRange fault = error) := by
  unfold parse at h
  rcases bind_eq_error_iff.1 h with hbuild | ⟨tree, hbuild, h⟩
  · exact Or.inl (mapError_eq_error_iff.1 hbuild)
  refine Or.inr ⟨tree, mapError_eq_ok_iff.1 hbuild, ?_⟩
  rcases bind_eq_error_iff.1 h with hbind | ⟨spans, hbind, hlocate⟩
  · exact Or.inl (mapError_eq_error_iff.1 hbind)
  · exact Or.inr ⟨spans, mapError_eq_ok_iff.1 hbind, mapError_eq_error_iff.1 hlocate⟩

/-- What locating does to the parts of a document. -/
theorem locate_eq_ok (h : locate source doc.tree spans = .ok doc) :
    spans.nodes.mapM (Ranges.mapM (source.rangeOf (Locator.of source.body))) =
        .ok doc.nodeRanges ∧
      spans.attributes.mapM (Ranges.mapM (source.rangeOf (Locator.of source.body))) =
        .ok doc.attrRanges ∧
      Ranges.mapPlace (source.locateProlog (Locator.of source.body)) spans.prolog =
        .ok doc.prolog := by
  unfold locate at h
  obtain ⟨nodes, hnodes, h⟩ := bind_eq_ok_iff.1 h
  obtain ⟨attrs, hattrs, h⟩ := bind_eq_ok_iff.1 h
  obtain ⟨prolog, hprolog, h⟩ := bind_eq_ok_iff.1 h
  have hdoc := Except.ok.inj h
  rw [← hdoc]
  exact ⟨hnodes, hattrs, hprolog⟩

/-- A table of places looks the same in spans and in ranges. -/
theorem rel_get_of_mapM {table : Array (Ranges Span)} {table' : Array (Ranges TextRange)}
    (h : table.mapM (Ranges.mapM (source.rangeOf (Locator.of source.body))) = .ok table')
    (id : Nat) (slot : Slot) :
    Option.Rel source.Covers ((table.getD id .empty).get slot)
      (table'[id]?.bind (·.get slot)) := by
  have hrel := rel_getElem?_of_mapM h id
  rw [Array.getD_eq_getD_getElem?]
  generalize table[id]? = entry at hrel
  generalize table'[id]? = entry' at hrel
  cases hrel with
  | none =>
    -- A row that is not there reads like one without places.
    simp
  | some hranges =>
    have hget := Ranges.rel_get_of_mapM hranges slot
    simp only [Option.getD_some, Option.bind_some]
    generalize Ranges.get _ slot = place at hget ⊢
    generalize Ranges.get _ slot = place' at hget ⊢
    cases hget with
    | none => exact .none
    | some hrange => exact .some (Source.covers_of_rangeOf hrange)

theorem rel_range? (h : locate source doc.tree spans = .ok doc) (id : NodeId) (slot : Slot) :
    Option.Rel source.Covers ((spans.ranges id).get slot) (doc.range? id slot) :=
  rel_get_of_mapM (locate_eq_ok h).1 id slot

theorem rel_attrRange? (h : locate source doc.tree spans = .ok doc) (id : AttrId) (slot : Slot) :
    Option.Rel source.Covers ((spans.attrRanges id).get slot) (doc.attrRange? id slot) :=
  rel_get_of_mapM (locate_eq_ok h).2.1 id slot

theorem exists_range?_of_span {id : NodeId} {span : Span}
    (h : locate source doc.tree spans = .ok doc) (slot : Slot)
    (hspan : (spans.ranges id).get slot = some span) :
    ∃ range, doc.range? id slot = some range ∧ source.Covers span range :=
  exists_of_rel (rel_range? h id slot) hspan

theorem exists_attrRange?_of_span {a : AttrId} {span : Span}
    (h : locate source doc.tree spans = .ok doc) (slot : Slot)
    (hspan : (spans.attrRanges a).get slot = some span) :
    ∃ range, doc.attrRange? a slot = some range ∧ source.Covers span range :=
  exists_of_rel (rel_attrRange? h a slot) hspan

theorem rel_prolog (h : locate source doc.tree spans = .ok doc) :
    Option.Rel source.Locates spans.prolog doc.prolog := by
  have hrel := Ranges.rel_of_mapPlace (locate_eq_ok h).2.2
  generalize spans.prolog = prolog at hrel ⊢
  generalize doc.prolog = prolog' at hrel ⊢
  cases hrel with
  | none => exact .none
  | some hprolog => exact .some (Source.locates_of_locateProlog hprolog)

/-- The declaration stands in the file where its token stands in the body. -/
theorem rel_prologRange (h : locate source doc.tree spans = .ok doc) :
    Option.Rel source.Covers (spans.prolog.map (·.whole)) (doc.prolog.map (·.range)) := by
  have hrel := rel_prolog h
  generalize spans.prolog = prolog at hrel ⊢
  generalize doc.prolog = prolog' at hrel ⊢
  cases hrel with
  | none => exact .none
  | some hprolog => exact .some hprolog.range

end Document

end XmlInspect
