import XmlInspect.Check.Indentation
import XmlInspect.Proofs.Axes
import XmlInspect.Proofs.Complete
import XmlInspect.Proofs.FaultLines

/-!
# What stands before an element on its line

Where the line of a place starts can be read off the file up to that place: after its last line
break, or after the mark if there is none. Before an element of the tree the file is known as far as
its neighbour goes. If that is text, the file has the text, written with references, then perhaps
processing instructions, which are in no tree, and then the tag.
-/

namespace XmlInspect

/-! ## Last lines -/

namespace Indentation

variable {text a b front tail : List Char} {c : Char}

theorem lastLine?_eq_none_iff : lastLine? text = none ↔ text.any Text.isLineEnd = false := by
  rw [lastLine?]
  cases text.any Text.isLineEnd <;> simp

theorem lastLine?_append_cons (hc : Text.isLineEnd c = true)
    (htail : tail.any Text.isLineEnd = false) : lastLine? (front ++ c :: tail) = some tail := by
  have hany : (front ++ c :: tail).any Text.isLineEnd = true := by simp [hc]
  have hkept : ∀ d ∈ tail.reverse, (!Text.isLineEnd d) = true := by
    simpa using htail
  have hstops : (c :: front.reverse).takeWhile (!Text.isLineEnd ·) = [] := by simp [hc]
  rw [lastLine?, if_pos hany, List.reverse_append, List.reverse_cons, List.append_assoc,
    List.takeWhile_append_of_pos hkept, List.singleton_append, hstops, List.append_nil,
    List.reverse_reverse]

theorem exists_of_lastLine? (h : lastLine? text = some tail) : ∃ front c,
    text = front ++ c :: tail ∧ Text.isLineEnd c = true ∧ tail.any Text.isLineEnd = false := by
  rw [lastLine?] at h
  split at h <;> cases h
  rename_i hany
  have hsplit := List.takeWhile_append_dropWhile (p := (!Text.isLineEnd ·)) (l := text.reverse)
  have htaken : (text.reverse.takeWhile (!Text.isLineEnd ·)).any Text.isLineEnd = false := by
    refine List.any_eq_false.2 fun c hc ↦ ?_
    simpa using List.mem_takeWhile_imp hc
  rcases hdropped : text.reverse.dropWhile (!Text.isLineEnd ·) with _ | ⟨c, dropped⟩
  · rw [List.dropWhile_eq_nil_iff] at hdropped
    obtain ⟨c, hc, hbreak⟩ := List.any_eq_true.1 hany
    simpa [hbreak] using hdropped c (List.mem_reverse.2 hc)
  · have hc := List.head?_dropWhile_not (!Text.isLineEnd ·) text.reverse
    rw [hdropped] at hc hsplit
    have htext := congrArg List.reverse hsplit
    rw [List.reverse_append, List.reverse_cons, List.reverse_reverse, List.append_assoc,
      List.singleton_append] at htext
    exact ⟨dropped.reverse, c, htext.symm, by simpa using hc, by simpa using htaken⟩

theorem lastLine?_append_of_some (h : lastLine? b = some tail) :
    lastLine? (a ++ b) = some tail := by
  obtain ⟨front, c, rfl, hc, htail⟩ := exists_of_lastLine? h
  rw [← List.append_assoc]
  exact lastLine?_append_cons hc htail

theorem lastLine?_append_of_none (h : lastLine? b = none) :
    lastLine? (a ++ b) = (lastLine? a).map (· ++ b) := by
  have hb := lastLine?_eq_none_iff.1 h
  cases ha : lastLine? a with
  | none =>
    rw [lastLine?_eq_none_iff] at ha
    rw [Option.map_none, lastLine?_eq_none_iff, List.any_append, ha, hb]
    rfl
  | some tail =>
    obtain ⟨front, c, rfl, hc, htail⟩ := exists_of_lastLine? ha
    rw [Option.map_some, List.append_assoc, List.cons_append]
    exact lastLine?_append_cons hc (by rw [List.any_append, htail, hb]; rfl)

end Indentation

/-! ## Lines of files -/

namespace Source

variable {source : Source} {front rest chars : List Char}

/-- What stands before a position on its line. -/
def lineBefore (source : Source) (text : List Char) (position : Position) : List Char :=
  Text.between text ⟨position.line, source.firstColumn position.line⟩ position

/-- What a file has on the last line of its start. A mark at the head is on no line. -/
def lastLine (source : Source) (front : List Char) : List Char :=
  (Indentation.lastLine? front).getD (front.drop (source.firstColumn 1))

theorem lastLine_append_of_some {tail : List Char} (h : Indentation.lastLine? chars = some tail) :
    source.lastLine (front ++ chars) = tail := by
  rw [lastLine, Indentation.lastLine?_append_of_some h]
  rfl

theorem lastLine_append_of_none (h : Indentation.lastLine? chars = none)
    (hmark : source.firstColumn 1 ≤ front.length) :
    source.lastLine (front ++ chars) = source.lastLine front ++ chars := by
  rw [lastLine, lastLine, Indentation.lastLine?_append_of_none h]
  cases Indentation.lastLine? front with
  | none => exact List.drop_append_of_le_length hmark
  | some tail => rfl

/-- The place after the start of a file, and what stands before it on its line. -/
theorem lineBefore_after (hrest : rest.head? ≠ some '\n')
    (hmark : source.firstColumn 1 ≤ front.length) :
    (Position.first.after front rest).column =
        source.firstColumn (Position.first.after front rest).line + (source.lastLine front).length ∧
      source.lineBefore (front ++ rest) (Position.first.after front rest) =
        source.lastLine front := by
  rw [lastLine]
  cases hlast : Indentation.lastLine? front with
  | none =>
    -- This is the first line of the file, on which the mark takes a column.
    have hfront : front.any Text.isLineEnd = false := Indentation.lastLine?_eq_none_iff.1 hlast
    set k := source.firstColumn 1 with hk
    have hsplit := List.take_append_drop k front
    have htake : (front.take k).any Text.isLineEnd = false := by
      rw [← hsplit, List.any_append, Bool.or_eq_false_iff] at hfront
      exact hfront.1
    have hplace : Position.first.after front rest = ⟨1, front.length⟩ := by
      rw [Text.after_of_not_any _ _ hfront]
      simp [Position.first]
    have hstart : Position.first.after (front.take k) (front.drop k ++ rest) = ⟨1, k⟩ := by
      rw [Text.after_of_not_any _ _ htake, List.length_take_of_le hmark]
      simp [Position.first]
    have hbetween := Text.between_after (front.take k) (front.drop k) rest
    rw [hstart, hsplit, hplace] at hbetween
    rw [lineBefore, hplace, Option.getD_none, ← hk]
    refine ⟨?_, hbetween⟩
    rw [List.length_drop]
    exact (Nat.add_sub_cancel' hmark).symm
  | some tail =>
    obtain ⟨before, c, rfl, hc, htail⟩ := Indentation.exists_of_lastLine? hlast
    have hhead : (tail ++ rest).head? ≠ some '\n' := by
      cases tail with
      | nil => exact hrest
      | cons d tail =>
        rintro ⟨⟩
        cases htail
    have hends : c = '\n' ∨ c = '\r' ∧ (tail ++ rest).head? ≠ some '\n' := by
      have hc : c = '\n' ∨ c = '\r' := by simpa [Text.isLineEnd] using hc
      exact hc.imp_right fun hc ↦ ⟨hc, hhead⟩
    set line := (Position.first.after before (c :: (tail ++ rest))).line + 1 with hline
    have hstart : Position.first.after (before ++ [c]) (tail ++ rest) = ⟨line, 0⟩ := by
      rw [Position.after_append]
      exact Position.past_of_lineEnd _ hends
    have hplace : Position.first.after (before ++ [c] ++ tail) rest = ⟨line, tail.length⟩ := by
      rw [Position.after_append, hstart, Text.after_of_not_any _ _ htail, Nat.zero_add]
    have hfirst : source.firstColumn line = 0 := by
      have hle := Position.le_after Position.first before (c :: (tail ++ rest))
      rw [Position.le_def] at hle
      have hne : line ≠ 1 := by
        rw [hline]
        simp only [Position.first] at hle ⊢
        omega
      simp [firstColumn, hne]
    have hbetween := Text.between_after (before ++ [c]) tail rest
    rw [hstart, hplace] at hbetween
    rw [← List.append_cons] at hplace hbetween
    rw [lineBefore, hplace, hfirst, Option.getD_some]
    exact ⟨(Nat.zero_add _).symm, hbetween⟩

end Source

theorem Source.lineBefore_eq {source : Source} {text front rest : List Char} {range : TextRange}
    (htext : text = front ++ '<' :: rest) (hmark : source.firstColumn 1 ≤ front.length)
    (hstart : range.start = Position.first.after front ('<' :: rest)) :
    source.lineBefore text range.start = source.lastLine front := by
  rw [htext, hstart]
  exact (lineBefore_after (by simp) hmark).2

theorem Text.mem_between {front rest : List Char} {c : Char} {start stop : Position}
    (hstart : start ≤ Position.first.after front (c :: rest))
    (hstop : Position.first.after front (c :: rest) < stop) :
    c ∈ between (front ++ c :: rest) start stop := by
  obtain ⟨others, hplaced, -, -⟩ := placed_append .first front (c :: rest)
  rw [between, hplaced, placed]
  refine List.mem_map.2 ⟨(Position.first.after front (c :: rest), c), ?_, rfl⟩
  exact List.mem_filter.2 ⟨by simp, decide_eq_true ⟨hstart, hstop⟩⟩

/-! ## References -/

/-- Where no reference can be, a text stands for itself. -/
theorem Markup.exists_append_of_unescape {entity? : List Char → Option (List Char)}
    {front tail content : List Char} (h : unescape entity? (front ++ tail) = .ok content)
    (hstart : '&' ∉ tail) (hstop : ';' ∉ tail) : ∃ start, content = start ++ tail := by
  unfold unescape at h
  generalize Text.byteSize (front ++ tail) = size at h
  generalize 0 = offset at h
  -- A reference takes up more than one character, so the induction is on the length.
  induction hlength : front.length using Nat.strong_induction_on
    generalizing front content offset with
  | _ length ih =>
    subst hlength
    cases front with
    | nil =>
      rw [List.nil_append, unescapeFrom_of_notMem hstart] at h
      cases h
      exact ⟨[], rfl⟩
    | cons c rest =>
      rw [List.cons_append, unescapeFrom] at h
      split at h
      · dsimp only at h
        split at h
        · rename_i after hafter
          obtain ⟨expansion, -, h⟩ := bind_eq_ok_iff.1 h
          obtain ⟨expanded, hexpanded, h⟩ := bind_eq_ok_iff.1 h
          cases h
          set name := (rest ++ tail).takeWhile fun c ↦ c != '&' && c != ';' with hname
          have hsplit : rest ++ tail = name ++ ';' :: after := by
            rw [← hafter]
            exact (List.prefix_iff_eq_append.1 (List.takeWhile_prefix _)).symm
          -- The semicolon stands before the tail.
          obtain ⟨more, -, htail⟩ | ⟨more, hrest, hmore⟩ := List.append_eq_append_iff.1 hsplit
          · exact absurd (by rw [htail]; simp) hstop
          · cases more with
            | nil =>
              have htail : ';' :: after = tail := hmore
              exact absurd (htail ▸ List.mem_cons_self) hstop
            | cons d more =>
              obtain ⟨-, rfl⟩ := List.cons.inj hmore
              have hlt : more.length < (c :: rest).length := by
                rw [hrest, List.length_cons, List.length_append, List.length_cons]
                omega
              obtain ⟨start, rfl⟩ := ih more.length hlt _ hexpanded rfl
              exact ⟨expansion ++ start, (List.append_assoc _ _ _).symm⟩
        · cases h
      · obtain ⟨expanded, hexpanded, h⟩ := bind_eq_ok_iff.1 h
        cases h
        obtain ⟨start, rfl⟩ := ih rest.length (Nat.lt_succ_self _) _ hexpanded rfl
        exact ⟨c :: start, rfl⟩

/-! ## Neighbours -/

theorem Source.exists_front {uri : String} {charset : Charset} {text chars : List Char} {i j : Nat}
    (h : Text.Stands (ofChars uri charset text).body i j chars) :
    ∃ front after, text = front ++ chars ++ after ∧
      (ofChars uri charset text).firstColumn 1 ≤ front.length ∧
      ∀ a b, chars = a ++ b → (ofChars uri charset text).positionAt (i + Text.byteSize a) =
        Position.first.after (front ++ a) (b ++ after) := by
  obtain ⟨before, after, hbody, hi, -⟩ := h
  refine ⟨(ofChars uri charset text).lead ++ before, after, ?_, ?_, ?_⟩
  · refine (lead_append_body uri charset text).symm.trans ?_
    rw [hbody]
    simp
  · rw [lead, firstColumn]
    cases (ofChars uri charset text).marked <;> simp
  · rintro a b rfl
    have hsplit : (ofChars uri charset text).body = before ++ a ++ (b ++ after) := by
      rw [hbody]
      simp
    rw [positionAt, hi, ← Text.byteSize_append, placeOf_byteSize hsplit, List.append_assoc]

private theorem Text.exists_of_isInstruction {text : List Char} (h : isInstruction text = true) :
    ∃ init, text = init ++ ['>'] := by
  unfold isInstruction at h
  split at h
  · rename_i before hcut
    obtain ⟨rest, hrest, hbefore⟩ := Option.bind_eq_some_iff.1 hcut
    obtain rfl := stripStart?_eq_some_iff.1 hrest
    obtain rfl := eq_append_of_cutAt hbefore
    exact ⟨"<?".toList ++ (before ++ ['?']), by simp⟩
  · cases h

private theorem Gap.exists_stands {tokens : List Token} {body : List Char} {start stop : Nat}
    (h : Gap tokens body start stop) :
    ∃ chars, Text.Stands body start stop chars ∧ (chars = [] ∨ ∃ init, chars = init ++ ['>']) := by
  obtain ⟨parts, hparts, hstands⟩ := h
  refine ⟨_, hstands, ?_⟩
  rcases List.eq_nil_or_concat parts with rfl | ⟨parts, part, rfl⟩
  · exact Or.inl rfl
  · rw [List.concat_eq_append] at hparts ⊢
    obtain ⟨init, hinit⟩ := Text.exists_of_isInstruction (hparts part (by simp)).2.2
    exact Or.inr ⟨parts.flatMap (·.raw) ++ init, by simp [hinit]⟩

/-- Of two tiles next to each other only a gap is in between. -/
theorem Tiles.gap_of_forall₂ {ι ρ α : Type} {first last : ρ → α} {gap : α → α → Prop}
    {start stop : α} {r : ι → ρ → Prop} {front rest : List ι} {i j : ι} {more tiles : List ρ}
    (h : List.Forall₂ r (front ++ i :: j :: rest) tiles)
    (htiles : Tiles first last gap start (more ++ tiles) stop) :
    ∃ a b, r i a ∧ r j b ∧ gap (last a) (first b) := by
  induction more generalizing start with
  | cons tile more ih => exact ih htiles.2
  | nil =>
    rw [List.nil_append] at htiles
    induction front generalizing tiles start with
    | nil =>
      obtain _ | ⟨hi, h⟩ := h
      obtain _ | ⟨hj, -⟩ := h
      exact ⟨_, _, hi, hj, htiles.2.1⟩
    | cons other front ih =>
      obtain _ | ⟨-, h⟩ := h
      exact ih h htiles.2

private theorem Tree.InDocumentOrder.exists_children_of_previousSibling? {tree : Tree}
    {id previous : NodeId} (h : tree.InDocumentOrder)
    (hprevious : tree.previousSibling? id = some previous) :
    ∃ p front rest, tree.parent? id = some p ∧
      tree.children p = front ++ previous :: id :: rest := by
  obtain ⟨p, hp, hget⟩ := Option.bind_eq_some_iff.1 hprevious
  have hself := h.getElem?_children hp
  cases hindex : tree.indexOf id with
  | zero =>
    rw [hindex, if_pos rfl] at hget
    cases hget
  | succ i =>
    rw [hindex] at hself
    rw [hindex, if_neg (Nat.succ_ne_zero i), Nat.add_sub_cancel] at hget
    obtain ⟨hlt, hself⟩ := List.getElem?_eq_some_iff.1 hself
    obtain ⟨hlt', hother⟩ := List.getElem?_eq_some_iff.1 hget
    refine ⟨p, (tree.children p).take i, (tree.children p).drop (i + 2), hp, ?_⟩
    rw [← hself, ← hother, List.getElem_cons_drop, List.getElem_cons_drop, List.take_append_drop]

namespace Document

/-- The spans from which the ranges of a document were made, where every node shows what it is. -/
structure MadeFrom (doc : Document) (source : Source) (spans : TreeSpans)
    (entities : List Markup.Entity) : Prop where
  order : doc.tree.InDocumentOrder
  located : locate source doc.tree spans = .ok doc
  place : spans.InPlace doc.tree (Token.scan source.body).1 source.body
  has : ∀ {id kind}, doc.tree.kind? id = some kind → (spans.ranges id).Has kind.slots
  shows : ∀ {id kind}, doc.tree.kind? id = some kind →
    spans.Shows doc.tree source.body entities id kind
  childless : ∀ {id span}, (spans.ranges id).opening = some span →
    (spans.ranges id).whole = some span → doc.tree.children id = []

variable {uri : String} {charset : Charset} {text : List Char} {mode : NamespaceMode}
  {source : Source} {doc : Document} {spans : TreeSpans} {entities : List Markup.Entity}
  {id previous : NodeId} {content : String}

theorem exists_madeFrom (h : parse source mode = .ok doc)
    (hself : ∀ {id name raw}, doc.tree.kind? id = some (.doctype name raw) →
      Text.isSelfContained raw.toList = true) :
    ∃ spans entities, doc.MadeFrom source spans entities := by
  obtain ⟨spans, hbuild, hbind, hlocate⟩ := exists_spans_of_parse h
  obtain ⟨hlinked, howned⟩ := Tree.linked_of_build hbuild
  obtain ⟨entities, hcontained⟩ := Tree.exists_contained hbuild hself
  obtain ⟨hshows, hchildless⟩ := shows_of_bind hbuild hlinked howned hcontained hbind
  obtain ⟨hplace, hsettled⟩ := inPlace_of_bind hlinked howned hbind
  exact ⟨spans, entities, Tree.inDocumentOrder_of_build hbuild, hlocate, hplace,
    ((hsettled.complete_iff hlinked howned).2 hchildless).nodes, hshows, hchildless⟩

namespace MadeFrom

theorem isSome_range? (h : doc.MadeFrom source spans entities) (helement : doc.tree.isElement id) :
    (doc.range? id .opening).isSome ∧ (doc.range? id .closing).isSome := by
  obtain ⟨name, attrs, hkind⟩ := Tree.exists_kind_of_isElement helement
  rw [← isSome_of_rel (rel_range? h.located id .opening),
    ← isSome_of_rel (rel_range? h.located id .closing), h.has hkind, h.has hkind]
  simp [NodeKind.slots]

/-- An element starts with its opening tag, and that with an angle bracket. -/
theorem exists_opening (h : doc.MadeFrom source spans entities) (helement : doc.tree.isElement id) :
    ∃ whole opening chars, (spans.ranges id).whole = some whole ∧
      (spans.ranges id).opening = some opening ∧ whole.start = opening.start ∧
      Text.Stands source.body opening.start opening.stop ('<' :: chars) := by
  obtain ⟨name, attrs, hkind⟩ := Tree.exists_kind_of_isElement helement
  obtain ⟨start, stop, front, -, hopening, -, hstands, -⟩ := h.shows hkind
  rcases h.place.node hkind (h.has hkind).ne_empty with ⟨whole, -, hwhole, hopening', -⟩ |
    ⟨opening, closing, -, hopening', -, hwhole, -⟩
  · obtain rfl := Option.some.inj (hopening.symm.trans hopening')
    exact ⟨_, _, _, hwhole, hopening, rfl, hstands⟩
  · obtain rfl := Option.some.inj (hopening.symm.trans hopening')
    exact ⟨_, _, _, hwhole, hopening, rfl, hstands⟩

/-- Between a node and the one before it there is only a gap. -/
theorem exists_gap (h : doc.MadeFrom source spans entities)
    (hprevious : doc.tree.previousSibling? id = some previous) :
    ∃ earlier later, (spans.ranges previous).whole = some earlier ∧
      (spans.ranges id).whole = some later ∧
      Gap (Token.scan source.body).1 source.body earlier.stop later.start := by
  obtain ⟨p, front, rest, hp, hchildren⟩ := h.order.exists_children_of_previousSibling? hprevious
  by_cases hroot : p = Tree.root
  · obtain ⟨tiles, hwholes, htiles⟩ := h.place.top
    rw [← hroot, hchildren] at hwholes
    exact Tiles.gap_of_forall₂ hwholes htiles
  · obtain ⟨hlt, hsize⟩ := h.order.lt_of_parent? hp
    obtain ⟨q, hq, -, hparent, -⟩ := h.order.exists_parent hsize (Nat.ne_zero_of_lt hlt)
    cases hp.symm.trans hq
    obtain ⟨name, attrs, hkind⟩ := Tree.exists_kind_of_isElement (hparent.resolve_left hroot)
    rcases h.place.node hkind (h.has hkind).ne_empty with ⟨whole, -, hwhole, hopening, -⟩ |
      ⟨opening, closing, -, -, -, -, ⟨tiles, hwholes, htiles⟩, -⟩
    · rw [h.childless hopening hwhole] at hchildren
      simp at hchildren
    · rw [List.take_length, hchildren] at hwholes
      exact Tiles.gap_of_forall₂ hwholes (List.nil_append tiles ▸ htiles)

theorem exists_front (h : doc.MadeFrom (.ofChars uri charset text) spans entities)
    (helement : doc.tree.isElement id) :
    ∃ opening front rest, doc.range? id .opening = some opening ∧ text = front ++ '<' :: rest ∧
      (Source.ofChars uri charset text).firstColumn 1 ≤ front.length ∧
      opening.start = Position.first.after front ('<' :: rest) := by
  obtain ⟨-, span, chars, -, hopening, -, hstands⟩ := h.exists_opening helement
  obtain ⟨opening, hrange, hcovers⟩ := exists_range?_of_span h.located .opening hopening
  obtain ⟨front, after, htext, hmark, hplace⟩ := Source.exists_front hstands
  refine ⟨opening, front, chars ++ after, hrange, by rw [htext]; simp, hmark, ?_⟩
  have hstart := hplace [] ('<' :: chars) rfl
  rw [List.append_nil] at hstart
  exact hcovers.start_eq.trans hstart

end MadeFrom

/-- A text in a file, the element after it and what is between them. -/
structure Leads (doc : Document) (text : List Char) (previous id : NodeId)
    (front chars gap rest : List Char) (range opening : TextRange) : Prop where
  range_eq : doc.range? previous .whole = some range
  opening_eq : doc.range? id .opening = some opening
  text_eq : text = front ++ (chars ++ (gap ++ '<' :: rest))
  start_eq : range.start = Position.first.after front (chars ++ (gap ++ '<' :: rest))
  stop_eq : range.stop = Position.first.after (front ++ chars) (gap ++ '<' :: rest)
  opening_start_eq : opening.start = Position.first.after (front ++ chars ++ gap) ('<' :: rest)
  gap_eq : gap = [] ∨ ∃ init, gap = init ++ ['>']

namespace Leads

variable {front chars gap rest : List Char} {range opening : TextRange}

theorem slice_eq (h : doc.Leads text previous id front chars gap rest range opening) :
    range.slice text = chars := by
  rw [TextRange.slice, h.start_eq, h.stop_eq, h.text_eq, ← List.append_assoc]
  exact Text.between_after front chars (gap ++ '<' :: rest)

theorem gap_eq_nil (h : doc.Leads text previous id front chars gap rest range opening)
    (hnext : range.stop = opening.start) : gap = [] := by
  by_contra hgap
  have hlt := range.stop.lt_after ('<' :: rest) hgap
  rw [h.stop_eq, ← Position.after_append, ← h.stop_eq, ← h.opening_start_eq, hnext] at hlt
  exact Position.lt_irrefl _ hlt

theorem lineBefore_eq (h : doc.Leads text previous id front chars gap rest range opening)
    (hmark : source.firstColumn 1 ≤ front.length) :
    source.lineBefore text opening.start = source.lastLine (front ++ chars ++ gap) := by
  have htext : text = front ++ chars ++ gap ++ '<' :: rest := by
    rw [h.text_eq]
    simp
  refine Source.lineBefore_eq htext ?_ h.opening_start_eq
  rw [List.append_assoc, List.length_append]
  exact Nat.le_add_right_of_le hmark

end Leads

/-- The file up to a text and the element after it. The text is written as it is, apart from a mark
and from references. -/
theorem MadeFrom.exists_leads (h : doc.MadeFrom (.ofChars uri charset text) spans entities)
    (helement : doc.tree.isElement id) (hprevious : doc.tree.previousSibling? id = some previous)
    (hkind : doc.tree.kind? previous = some (.text content)) :
    ∃ front mark raw gap rest range opening,
      doc.Leads text previous id front (mark ++ raw) gap rest range opening ∧
      (Source.ofChars uri charset text).firstColumn 1 ≤ front.length ∧
      (∀ c ∈ mark, c = Text.byteOrderMark) ∧
      Markup.unescape (Markup.Entity.lookup entities) raw = .ok content.toList := by
  obtain ⟨earlier, later, hearlier, hlater, hgap⟩ := h.exists_gap hprevious
  obtain ⟨gap, hgapStands, hgapEq⟩ := hgap.exists_stands
  obtain ⟨whole, span, chars, hwhole, hopening, hstart, hstands⟩ := h.exists_opening helement
  obtain ⟨earlier', mark, raw, hearlier', htext, hmark, hraw⟩ := h.shows hkind
  obtain rfl := Option.some.inj (hearlier.symm.trans hearlier')
  obtain rfl := Option.some.inj (hlater.symm.trans hwhole)
  obtain ⟨range, hrange, hcovers⟩ := exists_range?_of_span h.located .whole hearlier
  obtain ⟨opening, hopening', hcovers'⟩ := exists_range?_of_span h.located .opening hopening
  rw [hstart] at hgapStands
  obtain ⟨front, after, hfile, hfirst, hplace⟩ :=
    Source.exists_front ((htext.append hgapStands).append hstands)
  refine ⟨front, mark, raw, gap, chars ++ after, range, opening, ⟨hrange, hopening', ?_, ?_, ?_, ?_,
    hgapEq⟩, hfirst, ?_, hraw⟩
  · rw [hfile]
    simp
  · have hplace := hplace [] _ rfl
    rw [List.append_nil] at hplace
    rw [hcovers.start_eq]
    refine hplace.trans ?_
    simp
  · have hplace := hplace (mark ++ raw) (gap ++ '<' :: chars) (by simp)
    rw [← htext.stop_eq] at hplace
    rw [hcovers.stop_eq, hplace]
    simp
  · have hplace := hplace (mark ++ raw ++ gap) ('<' :: chars) rfl
    rw [Text.byteSize_append, ← Nat.add_assoc, ← htext.stop_eq, ← hgapStands.stop_eq] at hplace
    rw [hcovers'.start_eq, hplace]
    simp
  · rcases hmark with rfl | ⟨⟨-, rfl⟩, -⟩ <;> simp

end Document

end XmlInspect
