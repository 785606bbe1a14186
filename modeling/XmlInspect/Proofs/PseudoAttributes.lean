import XmlInspect.Proofs.Boundaries
import XmlInspect.Proofs.Declaration

/-!
# What is in a declaration

An XML declaration ends at the first `?>` after its opening. Its pseudo-attributes are read from the
opening on, as long as one starts before that end, and where a value ends is told by its quote
alone. The two searches know nothing of each other. So all pseudo-attributes start in the
declaration, one after the other, but the value of the last one need not end there: its quote may be
closed by one that belongs to what follows. That happens exactly if what stands between the
delimiters is not made of whole assignments.
-/

namespace XmlInspect

/-! ## Reading one assignment -/

namespace Text

private theorem exists_eq_append_of_not_mem {c : Char} {front text before after : List Char}
    (h : front ++ text = before ++ c :: after) (hnot : c ∉ front) :
    ∃ middle, before = front ++ middle := by
  rcases List.append_eq_append_iff.1 h with ⟨middle, hbefore, -⟩ | ⟨middle, hfront, hafter⟩
  · exact ⟨middle, hbefore⟩
  · cases middle with
    | nil => exact ⟨[], by simpa using hfront.symm⟩
    | cons d middle =>
      obtain ⟨rfl, -⟩ := List.cons.inj hafter
      exact absurd (by simp [hfront]) hnot

private theorem dropWhile_isAsciiBlank_append (content rest : List Char) :
    (content ++ '?' :: rest).dropWhile isAsciiBlank =
      content.dropWhile isAsciiBlank ++ '?' :: rest := by
  rw [List.dropWhile_append]
  split
  · rename_i hempty
    rw [List.isEmpty_iff.1 hempty]
    rfl
  · rfl

private theorem assignments_zero_iff {text : List Char} (h : text.dropWhile isAsciiBlank ≠ []) :
    Assignments 0 text ↔
      ∃ after, Assigns (text.dropWhile isAsciiBlank) after ∧ Assignments 0 after := by
  have hpos : 0 < byteSize (text.dropWhile isAsciiBlank) :=
    Nat.pos_of_ne_zero (mt byteSize_eq_zero_iff.1 h)
  constructor
  · rintro (hle | ⟨-, hfirst, hrest⟩)
    · exact absurd hpos (Nat.not_lt.2 hle)
    · exact ⟨_, hfirst, hrest⟩
  · rintro ⟨after, hfirst, hrest⟩
    exact .next hpos hfirst hrest

theorem Assigns.append {text after : List Char} (h : Assigns text after) (more : List Char) :
    Assigns (text ++ more) (after ++ more) := by
  obtain ⟨key, blanks, blanks', value, quote, hkey, hblanks, hblanks', hquote, hnot, rfl⟩ := h
  exact ⟨key, blanks, blanks', value, quote, hkey, hblanks, hblanks', hquote, hnot, by simp⟩

theorem Assigns.unique {text after other : List Char} (h : Assigns text after)
    (h' : Assigns text other) : after = other := by
  obtain ⟨lexeme, next, hattr, rfl⟩ := (@Cursor.attr_iff 0 text after).2 h
  obtain ⟨lexeme', next', hattr', rfl⟩ := (@Cursor.attr_iff 0 text other).2 h'
  cases hattr.symm.trans hattr'
  rfl

end Text

namespace Cursor

variable {cursor next : Cursor} {text content rest tail : List Char} {offset stop : Nat}
  {lexeme : AttributeLexeme} {attrs : List AttributeLexeme}

/-- What an attribute is read from. Before its value no question mark can stand, and what comes
after it has no say. -/
theorem exists_lead_of_attr (h : attr ⟨offset, text⟩ = .ok (lexeme, next)) :
    ∃ lead quote more, lexeme.value.text = quote :: more ∧ '?' ∉ lead ++ [quote] ∧
      text = lead ++ lexeme.value.text ++ next.rest ∧
      lexeme.value.start = offset + Text.byteSize lead ∧ next.offset = lexeme.value.stop ∧
      ∀ after, Text.Assigns (lead ++ lexeme.value.text ++ after) after := by
  obtain ⟨stop, rest⟩ := next
  obtain ⟨key, blanks, gap, value, quote, ⟨hne, hkey⟩, hblanks, hgap, hquote, hnot, rfl⟩ :=
    attr_iff.1 ⟨lexeme, _, h, rfl⟩
  cases h.symm.trans (attr_append hne hkey hblanks hgap hquote (cutAt_singleton hnot) offset)
  refine ⟨key ++ blanks ++ '=' :: gap, quote, _, rfl, ?_, by simp, rfl, ?_, fun after ↦ ?_⟩
  · have hnotKey : '?' ∉ key := fun hmem ↦ absurd (hkey '?' hmem) (by decide)
    have hnotBlanks : '?' ∉ blanks := fun hmem ↦ absurd (hblanks '?' hmem) (by decide)
    have hnotGap : '?' ∉ gap := fun hmem ↦ absurd (hgap '?' hmem) (by decide)
    have hnotQuote : '?' ≠ quote := by rcases hquote with rfl | rfl <;> decide
    simp [hnotKey, hnotBlanks, hnotGap, hnotQuote]
  · rw [Lexeme.stop, Nat.add_assoc, ← Text.byteSize_append]
  · exact ⟨key, blanks, gap, value, quote, ⟨hne, hkey⟩, hblanks, hgap, hquote, hnot, by simp⟩

private theorem value_start_lt_of_attr
    (h : attr ⟨offset, content ++ '?' :: rest⟩ = .ok (lexeme, next)) :
    lexeme.value.start < offset + Text.byteSize content := by
  obtain ⟨lead, quote, more, hvalue, hnot, htext, hstart, -, -⟩ := exists_lead_of_attr h
  have hfront : lead ++ [quote] ++ (more ++ next.rest) = content ++ '?' :: rest := by
    rw [htext, hvalue]
    simp
  obtain ⟨middle, rfl⟩ := Text.exists_eq_append_of_not_mem hfront hnot
  have hpos := quote.utf8Size_pos
  rw [hstart, Text.byteSize_append, Text.byteSize_append, Text.byteSize_cons]
  omega

/-- It stops before what follows exactly if all of it is written before that. -/
theorem value_stop_le_iff (h : attr ⟨offset, content ++ tail⟩ = .ok (lexeme, next)) :
    lexeme.value.stop ≤ offset + Text.byteSize content ↔
      ∃ after, Text.Assigns content after ∧ next.rest = after ++ tail := by
  obtain ⟨lead, quote, more, -, -, htext, hstart, -, hassigns⟩ := exists_lead_of_attr h
  rw [Lexeme.stop, hstart, Nat.add_assoc, ← Text.byteSize_append, Nat.add_le_add_iff_left]
  constructor
  · intro hle
    obtain ⟨after, rfl, hafter⟩ := Text.exists_eq_append_of_byteSize_le htext.symm hle
    exact ⟨after, hassigns after, hafter⟩
  · rintro ⟨after, -, hafter⟩
    rw [hafter, ← List.append_assoc] at htext
    rw [List.append_cancel_right htext, Text.byteSize_append _ after]
    exact Nat.le_add_right _ _

private theorem pseudoAttributes_of_le (h : stop ≤ cursor.offset) :
    cursor.pseudoAttributes stop = .ok [] := by
  have hle := (moves_skipBlanks cursor).le
  rw [pseudoAttributes]
  exact if_neg (by omega)

private theorem skipBlanks_of_rest (hrest : cursor.rest = content ++ '?' :: rest)
    (hstop : cursor.offset + Text.byteSize content = stop) :
    cursor.skipBlanks.rest = content.dropWhile Text.isAsciiBlank ++ '?' :: rest ∧
      cursor.skipBlanks.offset + Text.byteSize (content.dropWhile Text.isAsciiBlank) = stop := by
  have hdrop : cursor.skipBlanks.rest = content.dropWhile Text.isAsciiBlank ++ '?' :: rest := by
    rw [← Text.dropWhile_isAsciiBlank_append, ← hrest]
    rfl
  have hmoves := moves_skipBlanks cursor
  generalize cursor.rest.takeWhile Text.isAsciiBlank = blanks at hmoves
  have hsize := congrArg Text.byteSize hmoves.rest_eq
  have hoffset := hmoves.offset_eq
  rw [hrest, hdrop] at hsize
  simp only [Text.byteSize_append] at hsize
  exact ⟨hdrop, by omega⟩

/-- Pseudo-attributes start before the end of a declaration, and they stop before it exactly if the
declaration holds whole assignments. -/
theorem pseudoAttributes_inside (h : cursor.pseudoAttributes stop = .ok attrs)
    (hrest : cursor.rest = content ++ '?' :: rest)
    (hstop : cursor.offset + Text.byteSize content = stop) :
    (∀ attr ∈ attrs, attr.value.start < stop) ∧
      ((∀ attr ∈ attrs, attr.value.stop ≤ stop) ↔ Text.Assignments 0 content) := by
  fun_induction pseudoAttributes stop cursor generalizing content attrs with
  | case1 => cases h
  | case2 => cases h
  | case3 cursor _ hlt lexeme next hattr _ later hlater =>
    rename_i ih
    cases h
    have hlt : cursor.skipBlanks.offset < stop := hlt
    obtain ⟨hrest', hstop'⟩ := skipBlanks_of_rest hrest hstop
    have hsize := offset_add_of_attr hattr (congrArg (cursor.offset + Text.byteSize ·) hrest)
    have hattr : attr ⟨cursor.skipBlanks.offset,
        content.dropWhile Text.isAsciiBlank ++ '?' :: rest⟩ = .ok (lexeme, next) := by
      rw [← hrest']
      exact hattr
    have hne : content.dropWhile Text.isAsciiBlank ≠ [] := by
      intro hnil
      rw [hnil, Text.byteSize_nil] at hstop'
      omega
    have hfirst := value_start_lt_of_attr hattr
    have hiff := value_stop_le_iff hattr
    rw [hstop'] at hfirst hiff
    rw [Text.assignments_zero_iff hne, List.forall_mem_cons, List.forall_mem_cons]
    by_cases hinside : lexeme.value.stop ≤ stop
    · obtain ⟨after, hassigns, hafter⟩ := hiff.1 hinside
      have hoffset : next.offset + Text.byteSize after = stop := by
        rw [hafter, Text.byteSize_append, Text.byteSize_append] at hsize
        omega
      obtain ⟨hstart, hlaterIff⟩ := ih hlater hafter hoffset
      refine ⟨⟨hfirst, hstart⟩, ?_⟩
      rw [and_iff_right hinside, hlaterIff]
      refine ⟨fun hrest ↦ ⟨after, hassigns, hrest⟩, ?_⟩
      rintro ⟨other, hother, hrest⟩
      rw [hassigns.unique hother]
      exact hrest
    · -- The value goes on behind the end, so it is the last, and it is not written out before.
      obtain ⟨-, -, -, -, -, -, -, hnext, -⟩ := exists_lead_of_attr hattr
      rw [pseudoAttributes_of_le (by omega)] at hlater
      cases hlater
      refine ⟨⟨hfirst, by simp⟩, iff_of_false (fun h ↦ hinside h.1) ?_⟩
      rintro ⟨after, hassigns, -⟩
      have hread := attr_iff.1 ⟨lexeme, next, hattr, rfl⟩
      exact hinside (hiff.2 ⟨after, hassigns, hread.unique (hassigns.append _)⟩)
  | case4 cursor =>
    rename_i hge
    cases h
    have hge : ¬ cursor.skipBlanks.offset < stop := hge
    obtain ⟨-, hstop'⟩ := skipBlanks_of_rest hrest hstop
    refine ⟨by simp, iff_of_true (by simp) (.stop ?_)⟩
    omega

private theorem row_of_pseudoAttributes (h : cursor.pseudoAttributes stop = .ok attrs)
    (hin : cursor.IsIn text) :
    AttributeLexeme.Row text cursor.offset attrs (Text.byteSize text) := by
  fun_induction pseudoAttributes stop cursor generalizing attrs with
  | case1 => cases h
  | case2 => cases h
  | case3 cursor _ hlt lexeme next hattr _ later hlater =>
    rename_i ih
    cases h
    have hmoves := moves_skipBlanks cursor
    have hblanks := hmoves.isIn hin
    have hrest := ih hlater (solid_of_attr hattr hblanks).2
    exact (row_cons hattr hblanks hrest).of_le hmoves.le
  | case4 cursor =>
    cases h
    obtain ⟨before, htext, hoffset⟩ := hin
    exact Text.Divides.le ⟨before, cursor.rest, htext, hoffset⟩

end Cursor

/-! ## The order of names and values -/

namespace AttributeLexeme

/-- Where names and values stand, in the order in which they are written. -/
def spansOf (attrs : List AttributeLexeme) : List Span :=
  attrs.flatMap fun attr ↦ [attr.name.span, attr.value.span]

theorem forall_mem_spansOf_iff {p : Span → Prop} {attrs : List AttributeLexeme} :
    (∀ span ∈ spansOf attrs, p span) ↔ ∀ attr ∈ attrs, p attr.name.span ∧ p attr.value.span := by
  rw [spansOf, List.forall_mem_flatMap]
  simp

theorem solid_of_mem_spansOf {text : List Char} {attrs : List AttributeLexeme}
    (h : ∀ attr ∈ attrs, attr.Scanned text) : ∀ span ∈ spansOf attrs, span.Solid text := by
  rw [forall_mem_spansOf_iff]
  intro attr hattr
  have hsolid := (h attr hattr).solid
  exact ⟨hsolid.name.solid, hsolid.value.solid⟩

theorem Row.pairwise {text : List Char} {start stop : Nat} {attrs : List AttributeLexeme}
    (h : Row text start attrs stop) :
    (∀ span ∈ spansOf attrs, start ≤ span.start) ∧
      (spansOf attrs).Pairwise fun a b ↦ a.stop ≤ b.start := by
  induction attrs generalizing start with
  | nil => simp [spansOf]
  | cons attr attrs ih =>
    obtain ⟨hstart, -, hgap, -, hrest⟩ := h
    obtain ⟨hafter, hpairwise⟩ := ih hrest
    have hname : attr.name.start ≤ attr.name.stop := Nat.le_add_right _ _
    have hvalue : attr.value.start ≤ attr.value.stop := Nat.le_add_right _ _
    have hspans : spansOf (attr :: attrs) = attr.name.span :: attr.value.span :: spansOf attrs :=
      rfl
    have hlater : ∀ span ∈ attr.value.span :: spansOf attrs, attr.name.stop ≤ span.start := by
      intro span hspan
      rcases List.mem_cons.1 hspan with rfl | hspan
      · exact hgap
      · exact (hgap.trans hvalue).trans (hafter span hspan)
    rw [hspans]
    refine ⟨?_, .cons hlater (.cons hafter hpairwise)⟩
    intro span hspan
    rcases List.mem_cons.1 hspan with rfl | hspan
    · exact hstart
    · exact (hstart.trans hname).trans (hlater span hspan)

end AttributeLexeme

/-- What stands between the delimiters of the declaration that a text starts with. -/
theorem Token.Opens.exists_content {text : List Char} {prolog : PrologSpans}
    (h : Opens text prolog) :
    ∃ content rest, Cursor.IsIn ⟨5, content ++ '?' :: rest⟩ text ∧ prolog.opening.stop = 5 ∧
      prolog.closing.start = 5 + Text.byteSize content ∧
      Cursor.pseudoAttributes (5 + Text.byteSize content) ⟨5, content ++ '?' :: rest⟩ =
        .ok prolog.attributes := by
  obtain ⟨token, htoken, hstart, hprolog⟩ := h
  obtain ⟨attrs, hform, rfl⟩ := prolog?_eq_some_iff.1 hprolog
  obtain ⟨after, next, ⟨before, htext, hbefore⟩, hmarkup, hraw⟩ :=
    htoken.exists_markup (by simp [hform])
  rw [hform] at hmarkup
  obtain ⟨more, rfl, hinstruction⟩ := Cursor.reads_of_markup hmarkup
  obtain ⟨more, content, rfl, rfl, hattrs⟩ := Cursor.exists_of_declaration hinstruction
  rw [hstart] at hbefore hattrs
  obtain rfl : before = [] := Text.byteSize_eq_zero_iff.1 hbefore.symm
  have hraw : token.raw = "<?xml".toList ++ content ++ "?>".toList := by
    refine List.append_cancel_right (hraw.symm.trans ?_)
    simp
  refine ⟨content, '>' :: next.rest, ⟨"<?xml".toList, ?_, rfl⟩, ?_, ?_, ?_⟩
  · rw [htext]
    simp
  · have hsize : token.openingSize = 5 := by rw [Token.openingSize, hform]
    show token.start + token.openingSize = 5
    rw [hstart, hsize]
  · have hopen : Text.byteSize "<?xml".toList = 5 := rfl
    have hclose : Text.byteSize "?>".toList = 2 := rfl
    rw [Token.closing, Token.closingSize, hform, Token.stop, hstart, hraw, Text.byteSize_append,
      Text.byteSize_append, hopen, hclose]
    dsimp only
    omega
  · rw [List.append_assoc] at hattrs
    exact hattrs

namespace Token.Opens

variable {text : List Char} {prolog : PrologSpans}

theorem scanned (h : Opens text prolog) : ∀ attr ∈ prolog.attributes, attr.Scanned text := by
  obtain ⟨content, rest, hin, -, -, hattrs⟩ := h.exists_content
  exact Cursor.scanned_of_pseudoAttributes hattrs hin

private theorem solid (h : Opens text prolog) :
    ∀ span ∈ AttributeLexeme.spansOf prolog.attributes, span.Solid text :=
  AttributeLexeme.solid_of_mem_spansOf h.scanned

private theorem pairwise (h : Opens text prolog) :
    (∀ span ∈ AttributeLexeme.spansOf prolog.attributes, prolog.opening.stop ≤ span.start) ∧
      (AttributeLexeme.spansOf prolog.attributes).Pairwise fun a b ↦ a.stop ≤ b.start := by
  obtain ⟨content, rest, hin, hopening, -, hattrs⟩ := h.exists_content
  rw [hopening]
  exact (Cursor.row_of_pseudoAttributes hattrs hin).pairwise

theorem inside (h : Opens text prolog) :
    (∀ span ∈ AttributeLexeme.spansOf prolog.attributes, span.start < prolog.closing.start) ∧
      ∃ content, Text.Stands text prolog.opening.stop prolog.closing.start content ∧
        ((∀ span ∈ AttributeLexeme.spansOf prolog.attributes,
          span.stop ≤ prolog.closing.start) ↔ Text.Assignments 0 content) := by
  have hsolid := fun attr hattr ↦ (h.scanned attr hattr).solid
  obtain ⟨content, rest, ⟨before, htext, hbefore⟩, hopening, hclosing, hattrs⟩ := h.exists_content
  obtain ⟨hvalues, hinside⟩ := Cursor.pseudoAttributes_inside hattrs rfl rfl
  rw [hopening, hclosing]
  simp only [AttributeLexeme.forall_mem_spansOf_iff]
  constructor
  · intro attr hattr
    have hvalue := hvalues attr hattr
    have hname : attr.name.start ≤ attr.name.stop := Nat.le_add_right _ _
    exact ⟨(hname.trans (hsolid attr hattr).stop_le_start).trans_lt hvalue, hvalue⟩
  · refine ⟨content, ⟨before, '?' :: rest, by rw [htext, List.append_assoc], hbefore, rfl⟩, ?_⟩
    rw [← hinside]
    constructor
    · exact fun hstops attr hattr ↦ (hstops attr hattr).2
    · intro hstops attr hattr
      have hvalue := Nat.le_of_lt (hvalues attr hattr)
      exact ⟨(hsolid attr hattr).stop_le_start.trans hvalue, hstops attr hattr⟩

end Token.Opens

/-! ## Documents -/

/-- The ranges of names and values, in the order in which they are written. -/
def Prolog.ranges (prolog : Prolog) : List TextRange :=
  prolog.attributes.flatMap fun attr ↦ [attr.nameRange, attr.valueRange]

private theorem Source.Locates.ranges {source : Source} {spans : PrologSpans} {prolog : Prolog}
    (h : source.Locates spans prolog) :
    List.Forall₂ source.Covers (AttributeLexeme.spansOf spans.attributes) prolog.ranges :=
  List.rel_flatMap h.attributes fun _ _ hattr ↦ .cons hattr.nameRange (.cons hattr.valueRange .nil)

namespace Document

variable {uri : String} {charset : Charset} {text : List Char} {mode : NamespaceMode}
  {doc : Document} {prolog : Prolog}

/-- The names and values of a declaration come one after the other and start between its delimiters.
They also stop there, unless what stands between the delimiters is not made of whole assignments. A
value is what is written without its quotes. -/
theorem ranges_of_prolog (h : parse (.ofChars uri charset text) mode = .ok doc)
    (hprolog : doc.prolog = some prolog) :
    prolog.ranges.Pairwise (fun a b ↦ a.stop ≤ b.start) ∧
    (∀ range ∈ prolog.ranges,
      prolog.opening.stop ≤ range.start ∧ range.start < prolog.closing.start) ∧
    ((∀ range ∈ prolog.ranges, range.stop ≤ prolog.closing.start) ↔
      Text.Assignments 0 (Text.between text prolog.opening.stop prolog.closing.start)) ∧
    ∀ attr ∈ prolog.attributes,
      Text.IsQuoted (attr.valueRange.slice text) attr.value.toList := by
  obtain ⟨spans, hopens, hlocates⟩ := exists_locates_of_parse h hprolog
  obtain ⟨hafter, hpairwise⟩ := hopens.pairwise
  obtain ⟨hbefore, content, hcontent, hinside⟩ := hopens.inside
  obtain ⟨hfirst, hlast⟩ := hcontent.divides
  have hranges := (List.forall₂_and_left _ _).2 ⟨hopens.solid, hlocates.ranges⟩
  rw [hlocates.opening.stop_eq, hlocates.closing.start_eq, Source.between_positionAt hcontent]
  refine ⟨?_, ?_, ?_, ?_⟩
  · refine pairwise_of_forall₂ hranges hpairwise ?_
    rintro a b range range' ⟨ha, hrange⟩ ⟨hb, hrange'⟩ hle
    rw [hrange.stop_eq, hrange'.start_eq]
    exact (Source.positionAt_le_iff ha.stop hb.start).2 hle
  · intro range hrange
    obtain ⟨span, hspan, hsolid, hcovers⟩ := exists_of_forall₂_of_mem_right hranges hrange
    rw [hcovers.start_eq]
    exact ⟨(Source.positionAt_le_iff hfirst hsolid.start).2 (hafter span hspan),
      Source.positionAt_lt hsolid.start hlast (hbefore span hspan)⟩
  · rw [← hinside]
    refine (forall_mem_iff_of_forall₂ hranges ?_).symm
    rintro span range ⟨hsolid, hcovers⟩
    rw [hcovers.stop_eq]
    exact (Source.positionAt_le_iff hsolid.stop hlast).symm
  · intro attr hattr
    obtain ⟨lexeme, hlexeme, hlocated⟩ := exists_of_forall₂_of_mem_right hlocates.attributes hattr
    have hscanned := hopens.scanned lexeme hlexeme
    obtain ⟨chars, hquoted⟩ := hscanned.exists_isQuoted
    rw [hlocated.valueRange.slice hscanned.solid.value.stands, hlocated.value,
      String.toList_ofList, hquoted.content_eq]
    exact hquoted

/-- Two values in different quotes, one of which holds the other kind of quote. -/
theorem ranges_of_prolog_whole :
    let text := "é<?xml version=\"1.0\" encoding = 'x\"'?>\n<a b='c'/>".toList
    ∃ doc prolog, parse (.ofChars "" .utf8 text) .aware = .ok doc ∧ doc.prolog = some prolog ∧
      prolog.ranges.length = 4 ∧ prolog.ranges.Pairwise (fun a b ↦ a.stop ≤ b.start) ∧
      (∀ range ∈ prolog.ranges,
        prolog.opening.stop ≤ range.start ∧ range.start < prolog.closing.start) ∧
      Text.Assignments 0 (Text.between text prolog.opening.stop prolog.closing.start) := by
  intro text
  have hrun : (parse (.ofChars "" .utf8 text) .aware).toOption.any (fun doc ↦
      doc.prolog.any fun prolog ↦ prolog.ranges.length = 4 ∧
        ∀ range ∈ prolog.ranges, range.stop ≤ prolog.closing.start) = true := by
    decide +kernel
  obtain ⟨doc, hparse, hdoc⟩ := exists_of_any hrun
  obtain ⟨prolog, hprolog, hrun⟩ := (Option.any_eq_true _ _).1 hdoc
  obtain ⟨hlength, hstops⟩ := of_decide_eq_true hrun
  obtain ⟨hpairwise, hstarts, hinside, -⟩ := ranges_of_prolog hparse hprolog
  exact ⟨doc, prolog, hparse, hprolog, hlength, hpairwise, hstarts, hinside.1 hstops⟩

/-- The quote of a value that is not closed in the declaration is closed by one in the tag that
follows, which starts a value there. -/
theorem not_ranges_of_prolog_unclosed :
    let text := "<?xml version='1.0?><a b='x'/>".toList
    ∃ doc prolog, parse (.ofChars "" .utf8 text) .aware = .ok doc ∧ doc.prolog = some prolog ∧
      ∃ range ∈ prolog.ranges, prolog.closing.stop < range.stop := by
  intro text
  have hrun : (parse (.ofChars "" .utf8 text) .aware).toOption.any (fun doc ↦
      doc.prolog.any fun prolog ↦
        ∃ range ∈ prolog.ranges, prolog.closing.stop < range.stop) = true := by
    decide +kernel
  obtain ⟨doc, hparse, hdoc⟩ := exists_of_any hrun
  obtain ⟨prolog, hprolog, hrun⟩ := (Option.any_eq_true _ _).1 hdoc
  exact ⟨doc, prolog, hparse, hprolog, of_decide_eq_true hrun⟩

end Document

end XmlInspect
