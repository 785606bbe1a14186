import Mathlib.Algebra.GroupWithZero.Nat
import XmlInspect.Proofs.IndentedTags
import XmlInspect.Proofs.LineStarts

/-!
# Whether indentation is measured right

The indentation of an element is taken from the text before it in the tree. This is meant to be what
stands before the tag on its line, and it is, unless the file has something there that is not in the
text: an instruction, which leaves nothing behind in the tree, or a reference or a mark, which is no
blank itself. These are the only ways.
-/

namespace XmlInspect

/-- The blanks before an element stand right before it, and those on their last line are written as
they are. -/
def Document.Plain (doc : Document) (text : List Char) (id : NodeId) : Prop :=
  ∀ previous content, doc.tree.previousSibling? id = some previous →
    doc.tree.kind? previous = some (.text content) →
    ∃ range opening, doc.range? previous .whole = some range ∧
      doc.range? id .opening = some opening ∧ range.stop = opening.start ∧
      Indentation.lastLine? (range.slice text) = Indentation.lastLine? content.toList ∧
      (Indentation.lastLine? content.toList = none → range.slice text = content.toList)

/-- Nothing but blanks stands before a position on its line, and this is their width. -/
def Indentation.Measured (config : Indentation) (source : Source) (text : List Char)
    (position : Position) (actual : Nat) : Prop :=
  (∀ c ∈ source.lineBefore text position, Text.isBlank c = true) ∧
    actual = ((source.lineBefore text position).map fun c ↦
      if c = '\t' then config.tabSize else 1).sum % UInt64.size

namespace Indentation

variable {uri : String} {charset : Charset} {text : List Char} {config : Indentation}
  {file : XmlFile} {spans : TreeSpans} {entities : List Markup.Entity} {id : NodeId} {actual : Nat}
  {opening : TextRange}

private theorem width_eq_sum (blanks : List Char) : config.width blanks =
    (blanks.map fun c ↦ if c = '\t' then config.tabSize else 1).sum % UInt64.size := by
  rw [width, List.sum_eq_foldl_nat, List.foldl_map]

private theorem leading?_cases (h : config.leading? file id = some actual) :
    (file.document.tree.previousSibling? id = none ∧ actual = 0 ∧
      ∃ opening, file.document.range? id .opening = some opening ∧
        startsLine file.source opening = true) ∨
    ∃ previous content, file.document.tree.previousSibling? id = some previous ∧
      file.document.tree.kind? previous = some (.text content) ∧
      (∀ c ∈ content.toList, Text.isBlank c = true) ∧
      ((∃ blanks, lastLine? content.toList = some blanks ∧ actual = config.width blanks) ∨
        lastLine? content.toList = none ∧ actual = config.width content.toList ∧
        ∃ range, file.document.range? previous .whole = some range ∧
          startsLine file.source range = true) := by
  rw [leading?] at h
  split at h
  · rename_i hprevious
    obtain ⟨opening, hopening, hfound⟩ := Option.bind_eq_some_iff.1 h
    obtain ⟨hstarts, hactual⟩ := Option.ite_none_right_eq_some.1 hfound
    cases hactual
    exact Or.inl ⟨hprevious, rfl, opening, hopening, hstarts⟩
  · rename_i previous hprevious
    obtain ⟨chars, hchars, hfound⟩ := Option.bind_eq_some_iff.1 h
    unfold blankText? at hchars
    split at hchars
    · rename_i content hkind
      obtain ⟨hblank, hcontent⟩ := Option.ite_none_right_eq_some.1 hchars
      cases hcontent
      refine Or.inr ⟨previous, content, hprevious, hkind, List.all_eq_true.1 hblank, ?_⟩
      split at hfound
      · rename_i blanks hlast
        cases hfound
        exact Or.inl ⟨blanks, hlast, rfl⟩
      · rename_i hlast
        obtain ⟨range, hrange, hfound⟩ := Option.bind_eq_some_iff.1 hfound
        obtain ⟨hstarts, hactual⟩ := Option.ite_none_right_eq_some.1 hfound
        cases hactual
        exact Or.inr ⟨hlast, rfl, range, hrange, (Bool.and_eq_true_iff.1 hstarts).2⟩
    · cases hchars

private theorem lastLine_eq_nil_of_startsLine {source : Source} {front rest : List Char}
    {range : TextRange}
    (hmark : source.firstColumn 1 ≤ front.length) (hrest : rest.head? ≠ some '\n')
    (hstart : range.start = Position.first.after front rest)
    (hstarts : startsLine source range = true) : source.lastLine front = [] := by
  have hcolumn := (Source.lineBefore_after hrest hmark).1
  rw [startsLine, beq_iff_eq, hstart] at hstarts
  rw [hstarts] at hcolumn
  exact List.length_eq_zero_iff.1 (Nat.left_eq_add.1 hcolumn)

private theorem measured_of_plain
    (h : file.document.MadeFrom (.ofChars uri charset text) spans entities)
    (hsource : file.source = .ofChars uri charset text)
    (helement : file.document.tree.isElement id)
    (hleading : config.leading? file id = some actual)
    (hopening : file.document.range? id .opening = some opening)
    (hplain : file.document.Plain text id) :
    config.Measured file.source text opening.start actual := by
  rw [hsource]
  rcases leading?_cases hleading with ⟨-, rfl, opening', hopening', hstarts⟩ |
    ⟨previous, content, hprevious, hkind, hblank, hcases⟩
  · -- The element is the first child, and it starts its line.
    obtain ⟨opening'', front, rest, hopening'', htext, hmark, hstart⟩ := h.exists_front helement
    obtain rfl := Option.some.inj (hopening.symm.trans hopening')
    obtain rfl := Option.some.inj (hopening.symm.trans hopening'')
    rw [hsource] at hstarts
    have hnil := lastLine_eq_nil_of_startsLine hmark (by simp) hstart hstarts
    rw [Measured, Source.lineBefore_eq htext hmark hstart, hnil]
    exact ⟨by simp, rfl⟩
  · obtain ⟨front, mark, raw, gap, rest, range, opening', hleads, hmark, -, -⟩ :=
      h.exists_leads helement hprevious hkind
    obtain ⟨range', opening'', hrange', hopening'', hnext, hlast, hwhole⟩ :=
      hplain previous content hprevious hkind
    obtain rfl := Option.some.inj (hopening.symm.trans hopening'')
    obtain rfl := Option.some.inj (hopening.symm.trans hleads.opening_eq)
    obtain rfl := Option.some.inj (hrange'.symm.trans hleads.range_eq)
    obtain rfl := hleads.gap_eq_nil hnext
    rw [hleads.slice_eq] at hlast hwhole
    rw [Measured, hleads.lineBefore_eq hmark, List.append_nil, ← width_eq_sum]
    rcases hcases with ⟨blanks, hblanks, rfl⟩ | ⟨hnone, rfl, range', hrange', hstarts⟩
    · rw [Source.lastLine_append_of_some (hlast.trans hblanks)]
      obtain ⟨before, c, hcontent, -, -⟩ := exists_of_lastLine? hblanks
      refine ⟨fun c hc ↦ hblank c ?_, rfl⟩
      rw [hcontent]
      simp [hc]
    · obtain rfl := Option.some.inj (hrange'.symm.trans hleads.range_eq)
      have hbreaks := lastLine?_eq_none_iff.1 (hlast.trans hnone)
      have hhead : (mark ++ raw ++ '<' :: rest).head? ≠ some '\n' := by
        cases hchars : mark ++ raw with
        | nil => simp
        | cons c chars =>
          rw [hchars] at hbreaks
          rintro ⟨⟩
          cases hbreaks
      rw [hsource] at hstarts
      rw [Source.lastLine_append_of_none (hlast.trans hnone) hmark,
        lastLine_eq_nil_of_startsLine hmark hhead hleads.start_eq hstarts, List.nil_append,
        hwhole hnone]
      exact ⟨hblank, rfl⟩

private theorem lastLine?_eq_of_blank {source : Source} {entity? : List Char → Option (List Char)}
    {front mark raw content : List Char} (hfirst : source.firstColumn 1 ≤ front.length)
    (hmark : ∀ c ∈ mark, c = Text.byteOrderMark) (hraw : Markup.unescape entity? raw = .ok content)
    (hblank : ∀ c ∈ source.lastLine (front ++ (mark ++ raw)), Text.isBlank c = true) :
    lastLine? (mark ++ raw) = lastLine? content ∧
      (lastLine? content = none → mark ++ raw = content) := by
  cases hlast : lastLine? (mark ++ raw) with
  | some tail =>
    rw [Source.lastLine_append_of_some hlast] at hblank
    have hrawLast : lastLine? raw = some tail := by
      cases hraw' : lastLine? raw with
      | some tail' => rw [← hlast, lastLine?_append_of_some hraw']
      | none =>
        have hmarkLast : lastLine? mark = none := by
          refine lastLine?_eq_none_iff.2 (List.any_eq_false.2 fun c hc ↦ ?_)
          rw [hmark c hc]
          decide
        rw [lastLine?_append_of_none hraw', hmarkLast] at hlast
        cases hlast
    obtain ⟨before, c, rfl, hc, htail⟩ := exists_of_lastLine? hrawLast
    have hnotMem (d : Char) (hd : Text.isBlank d = false) (hd' : Text.isLineEnd d = false) :
        d ∉ c :: tail := by
      rintro (_ | ⟨_, hmem⟩)
      · cases hc.symm.trans hd'
      · cases (hblank d hmem).symm.trans hd
    -- Blanks hold no reference, so the last line is written as it is read.
    obtain ⟨start, rfl⟩ := Markup.exists_append_of_unescape hraw
      (hnotMem '&' (by decide) (by decide)) (hnotMem ';' (by decide) (by decide))
    rw [lastLine?_append_cons hc htail]
    exact ⟨rfl, fun hnone ↦ nomatch hnone⟩
  | none =>
    rw [Source.lastLine_append_of_none hlast hfirst] at hblank
    have hchars : ∀ c ∈ mark ++ raw, Text.isBlank c = true :=
      fun c hc ↦ hblank c (List.mem_append_right _ hc)
    obtain rfl : mark = [] := by
      refine List.eq_nil_iff_forall_not_mem.2 fun c hc ↦ ?_
      have hc' := hchars c (List.mem_append_left _ hc)
      rw [hmark c hc] at hc'
      cases hc'
    have hnotMem : '&' ∉ raw := fun hmem ↦ nomatch hchars '&' (List.mem_append_right _ hmem)
    rw [Markup.unescape_of_notMem hnotMem] at hraw
    cases hraw
    rw [List.nil_append] at hlast ⊢
    exact ⟨hlast.symm, fun _ ↦ rfl⟩

private theorem plain_of_blank
    (h : file.document.MadeFrom (.ofChars uri charset text) spans entities)
    (helement : file.document.tree.isElement id)
    (hopening : file.document.range? id .opening = some opening)
    (hblank : ∀ c ∈ (Source.ofChars uri charset text).lineBefore text opening.start,
      Text.isBlank c = true) : file.document.Plain text id := by
  intro previous content hprevious hkind
  obtain ⟨front, mark, raw, gap, rest, range, opening', hleads, hfirst, hmark, hraw⟩ :=
    h.exists_leads helement hprevious hkind
  obtain rfl := Option.some.inj (hopening.symm.trans hleads.opening_eq)
  rw [hleads.lineBefore_eq hfirst] at hblank
  -- An instruction would end on the line.
  obtain rfl : gap = [] := by
    rcases hleads.gap_eq with hnil | ⟨init, rfl⟩
    · exact hnil
    · have hbracket : lastLine? ['>'] = none := rfl
      have hlength : (Source.ofChars uri charset text).firstColumn 1 ≤
          (front ++ (mark ++ raw) ++ init).length := by
        rw [List.append_assoc, List.length_append]
        exact Nat.le_add_right_of_le hfirst
      rw [← List.append_assoc, Source.lastLine_append_of_none hbracket hlength] at hblank
      cases hblank '>' (by simp)
  have hstart := hleads.opening_start_eq
  rw [List.append_nil] at hblank hstart
  refine ⟨range, opening, hleads.range_eq, hleads.opening_eq, hleads.stop_eq.trans hstart.symm, ?_⟩
  rw [hleads.slice_eq]
  exact lastLine?_eq_of_blank hfirst hmark hraw hblank

/-! ## One tag on a line -/

private theorem line_ne_of_stop_le {later : TextRange}
    (h : file.document.MadeFrom (.ofChars uri charset text) spans entities)
    (helement : file.document.tree.isElement id)
    (hopening : file.document.range? id .opening = some opening) (hle : opening.stop ≤ later.start)
    (hblank : ∀ c ∈ (Source.ofChars uri charset text).lineBefore text later.start,
      Text.isBlank c = true) : opening.start.line ≠ later.start.line := by
  intro hline
  obtain ⟨opening', front, rest, hopening', htext, hmark, hstart⟩ := h.exists_front helement
  obtain rfl := Option.some.inj (hopening.symm.trans hopening')
  have hrest : ('<' :: rest).head? ≠ some '\n' := by simp
  have hcolumn := (Source.lineBefore_after hrest hmark).1
  rw [← hstart] at hcolumn
  have hbracket : '<' ∈ (Source.ofChars uri charset text).lineBefore text later.start := by
    rw [Source.lineBefore, ← hline]
    have hlt := Position.lt_of_lt_of_le opening.start_lt_stop hle
    have hge : (⟨opening.start.line, (Source.ofChars uri charset text).firstColumn
        opening.start.line⟩ : Position) ≤ opening.start := by
      rw [Position.le_def]
      exact Or.inr ⟨rfl, hcolumn ▸ Nat.le_add_right _ _⟩
    rw [hstart] at hlt hge ⊢
    have hmem := Text.mem_between hge hlt
    rwa [← htext] at hmem
  cases hblank '<' hbracket

/-! ## Files -/

/-- How far the issues of opening tags are about lines of the file, as long as the document type
declaration, if there is one, ends where it should. An issue about an opening tag tells the width of
what stands before the tag on its line, which is all blank, exactly if the blanks before the element
are plain: they stand right before it, and those on their last line are written as they are. No two
opening tags of this kind with issues are on one line. -/
theorem measured_iff_of_parse (config : Indentation)
    (h : XmlFile.parse (.ofChars uri charset text) = .ok file)
    (hself : ∀ {id name raw}, file.document.tree.kind? id = some (.doctype name raw) →
      Text.isSelfContained raw.toList = true) :
    let doc := file.document
    ∃ tags, tags.Sublist doc.tree.events ∧
      List.Forall₂ (config.Raises file) tags (config.issues file) ∧
      (∀ id, .enter id ∈ tags → ∃ opening actual, doc.range? id .opening = some opening ∧
        config.leading? file id = some actual ∧
        (config.Measured file.source text opening.start actual ↔ doc.Plain text id)) ∧
      ∀ id id' opening opening', .enter id ∈ tags → .enter id' ∈ tags →
        doc.range? id .opening = some opening → doc.range? id' .opening = some opening' →
        doc.Plain text id → doc.Plain text id' → opening.start.line = opening'.start.line →
        id = id' := by
  intro doc
  obtain ⟨hsource, hparse⟩ := XmlFile.parse_eq_ok h
  obtain ⟨spans, entities, hmade⟩ := Document.exists_madeFrom hparse hself
  obtain ⟨hdoc, tags, -, hsub, hraises⟩ :=
    exists_reports_of_parse config h fun id ↦ hmade.isSome_range?
  have hmeasured (id : NodeId) (htag : .enter id ∈ tags) : ∃ opening actual,
      doc.tree.isElement id ∧ doc.range? id .opening = some opening ∧
        config.leading? file id = some actual ∧
        (config.Measured file.source text opening.start actual ↔ doc.Plain text id) := by
    have helement := hdoc.order.enter_mem_events_iff.1 (hsub.subset htag)
    obtain ⟨issue, -, opening, actual, hopening, hleading, -⟩ :=
      exists_of_forall₂_of_mem hraises htag
    refine ⟨opening, actual, helement, hopening, hleading, ?_, ?_⟩
    · rintro ⟨hblank, -⟩
      rw [hsource] at hblank
      exact plain_of_blank hmade helement hopening hblank
    · exact measured_of_plain hmade hsource helement hleading hopening
  refine ⟨tags, hsub, hraises, fun id htag ↦ ?_, ?_⟩
  · obtain ⟨opening, actual, -, hopening, hleading, hiff⟩ := hmeasured id htag
    exact ⟨opening, actual, hopening, hleading, hiff⟩
  · intro id id' opening opening' htag htag' hopening hopening' hplain hplain' hline
    by_contra hne
    obtain ⟨_, actual, helement, hrange, -, hiff⟩ := hmeasured id htag
    obtain ⟨_, actual', helement', hrange', -, hiff'⟩ := hmeasured id' htag'
    cases hopening.symm.trans hrange
    cases hopening'.symm.trans hrange'
    have hblank := (hiff.2 hplain).1
    have hblank' := (hiff'.2 hplain').1
    rw [hsource] at hblank hblank'
    rcases rel_or_rel_of_pairwise (Document.pairwise_precedes_of_parse hparse)
      (hsub.subset htag) (hsub.subset htag') (mt WalkEvent.enter.inj hne) with hprecedes | hprecedes
    · have hle := hprecedes opening opening' hopening hopening'
      exact line_ne_of_stop_le hmade helement hopening hle hblank' hline
    · have hle := hprecedes opening' opening hopening' hopening
      exact line_ne_of_stop_le hmade helement' hopening' hle hblank hline.symm

/-- A tab and a blank before a tag on its line. -/
theorem measured_iff_of_parse_tab :
    let text := "<a>\n \t<b/>\n</a>".toList
    let config : Indentation := ⟨2, 4⟩
    ∃ file opening, XmlFile.parse (.ofChars "" .utf8 text) = .ok file ∧
      (∀ {id name raw}, file.document.tree.kind? id = some (.doctype name raw) →
        Text.isSelfContained raw.toList = true) ∧
      file.document.range? 3 .opening = some opening ∧
      config.issues file = [Issue.located rule opening (config.message 2 5)] ∧
      file.document.Plain text 3 ∧ config.Measured file.source text opening.start 5 := by
  intro text config
  have hrun : (XmlFile.parse (.ofChars "" .utf8 text)).toOption.any (fun file ↦
      !file.document.tree.hasDoctype && file.document.tree.previousSibling? 3 == some 2 &&
      file.document.tree.kind? 2 == some (.text "\n \t") && config.leading? file 3 == some 5 &&
      (file.document.range? 3 .opening).any fun opening ↦
        config.issues file == [Issue.located rule opening (config.message 2 5)] &&
        file.document.tree.events.all (fun call ↦
          file.document.tag? call != some opening || call == .enter 3) &&
        (file.document.range? 2 .whole).any fun range ↦ range.stop == opening.start &&
          range.slice text == "\n \t".toList) = true := by
    decide +kernel
  obtain ⟨file, hparse, hfile⟩ := exists_of_any hrun
  simp only [Bool.and_eq_true, Bool.not_eq_true', beq_iff_eq, Option.any_eq_true] at hfile
  obtain ⟨⟨⟨⟨hdoctype, hprevious⟩, hkind⟩, hleading⟩, opening, hopening, ⟨hissues, hevents⟩, range,
    hrange, hstop, hslice⟩ := hfile
  have hself : ∀ {id name raw}, file.document.tree.kind? id = some (.doctype name raw) →
      Text.isSelfContained raw.toList = true :=
    fun hkind ↦ (Tree.contained_of_hasDoctype hdoctype hkind).1
  have hplain : file.document.Plain text 3 := by
    intro previous content hprevious' hkind'
    cases hprevious.symm.trans hprevious'
    cases hkind.symm.trans hkind'
    refine ⟨range, opening, hrange, hopening, hstop, by rw [hslice], fun _ ↦ hslice⟩
  obtain ⟨tags, hsub, hraises, hmeasured, -⟩ := measured_iff_of_parse config hparse hself
  rw [hissues] at hraises
  obtain ⟨tag, rest, hraise, -, rfl⟩ := List.forall₂_cons_right_iff.1 hraises
  obtain ⟨opening', _, htag, -, hissue⟩ := hraise
  have hsame : some opening = some opening' := congrArg Issue.range hissue
  rw [← hsame] at htag
  have henter : tag = .enter 3 := by
    simpa [htag] using List.all_eq_true.1 hevents tag (hsub.subset List.mem_cons_self)
  obtain ⟨_, actual, hopening', hleading', hiff⟩ := hmeasured 3 (henter ▸ List.mem_cons_self)
  obtain rfl := Option.some.inj (hopening.symm.trans hopening')
  obtain rfl : 5 = actual := Option.some.inj (hleading.symm.trans hleading')
  exact ⟨file, opening, hparse, hself, hopening, hissues, hplain, hiff.2 hplain⟩

/-- An instruction before an element is no part of the tree, so the element is measured by what
stands before the instruction. Line breaks that are written as references start no lines, so two
elements on one line are measured. -/
theorem not_measured_of_instruction :
    let config : Indentation := ⟨2, 2⟩
    (let text := "<a>\n<?b?><c/>\n</a>".toList
      ∃ file opening, XmlFile.parse (.ofChars "" .utf8 text) = .ok file ∧
        file.document.range? 3 .opening = some opening ∧
        config.issues file = [Issue.located rule opening (config.message 2 0)] ∧
        file.source.lineBefore text opening.start = "<?b?>".toList ∧
        ¬ config.Measured file.source text opening.start 0) ∧
    ∃ file first second, XmlFile.parse (.ofChars "" .utf8 "<a>&#10;<b/>&#10;<c/></a>".toList) =
        .ok file ∧
      config.issues file = [Issue.located rule first (config.message 2 0),
        Issue.located rule second (config.message 2 0)] ∧ first.start.line = second.start.line := by
  intro config
  constructor
  · intro text
    have hrun : (XmlFile.parse (.ofChars "" .utf8 text)).toOption.any (fun file ↦
        (file.document.range? 3 .opening).any fun opening ↦
          config.issues file == [Issue.located rule opening (config.message 2 0)] &&
          file.source.lineBefore text opening.start == "<?b?>".toList) = true := by
      decide +kernel
    obtain ⟨file, hparse, hfile⟩ := exists_of_any hrun
    simp only [Bool.and_eq_true, beq_iff_eq, Option.any_eq_true] at hfile
    obtain ⟨opening, hopening, hissues, hline⟩ := hfile
    refine ⟨file, opening, hparse, hopening, hissues, hline, fun hmeasured ↦ ?_⟩
    have hblank := hmeasured.1
    rw [hline] at hblank
    cases hblank '<' (by decide)
  · have hrun : (XmlFile.parse (.ofChars "" .utf8 "<a>&#10;<b/>&#10;<c/></a>".toList)).toOption.any
        (fun file ↦ (file.document.range? 3 .opening).any fun first ↦
          (file.document.range? 5 .opening).any fun second ↦
          config.issues file == [Issue.located rule first (config.message 2 0),
            Issue.located rule second (config.message 2 0)] &&
          first.start.line == second.start.line) = true := by
      decide +kernel
    obtain ⟨file, hparse, hfile⟩ := exists_of_any hrun
    simp only [Bool.and_eq_true, beq_iff_eq, Option.any_eq_true] at hfile
    obtain ⟨first, -, second, -, hissues, hline⟩ := hfile
    exact ⟨file, first, second, hparse, hissues, hline⟩

end Indentation

end XmlInspect
