import XmlInspect.Analysis.Analyzer
import XmlInspect.Proofs.Coordinates

/-!
# The line of a fault

Markup that cannot be read is reported with a line of the file, and the issue that is raised about
it marks all of that line. The two come from different counts. The line is counted in the body, with
the table of its line starts, and moved down by the preamble. What the line holds is looked up in
the whole content, which was split at its terminators. The offset of a fault can be anything, also
beyond the end or inside a character, but its line is one of the body and so one of the content.
-/

namespace XmlInspect

/-! ## Counting lines -/

namespace Text

variable {text a b chars : List Char}

private theorem length_consLine (c : Char) {lines : List (List Char)} (h : lines ≠ []) :
    (consLine c lines).length = lines.length := by
  cases lines with
  | nil => exact absurd rfl h
  | cons line lines => rfl

theorem length_splitLines (text : List Char) :
    (splitLines text).length = terminators text + 1 := by
  fun_induction splitLines text with
  | case1 => rfl
  | case2 rest ih =>
    rw [List.length_cons, ih, terminators_cons, terminators_cons]
    simp [endsLine, isLineEnd]
  | case3 c rest hpair hend ih =>
    rw [List.length_cons, ih, terminators_cons, endsLine.eq_3 c rest hpair, if_pos hend]
  | case4 c rest hpair hend ih =>
    rw [length_consLine c (splitLines_ne_nil rest), ih, terminators_cons,
      endsLine.eq_3 c rest hpair, if_neg hend]

theorem length_laterLines (offset : Nat) (text : List Char) :
    (laterLines offset text).length = terminators text := by
  fun_induction laterLines offset text with
  | case1 => rfl
  | case2 offset rest ih =>
    rw [List.length_cons, ih, terminators_cons, terminators_cons]
    simp [endsLine, isLineEnd]
  | case3 offset c rest hpair hend ih =>
    rw [List.length_cons, ih, terminators_cons, endsLine.eq_3 c rest hpair, if_pos hend]
  | case4 offset c rest hpair hend ih =>
    rw [ih, terminators_cons, endsLine.eq_3 c rest hpair, if_neg hend, Nat.add_zero]

/-- Two texts in a row have the terminators of both, unless a pair is divided between them. -/
theorem terminators_append (a : List Char) (h : b.head? ≠ some '\n') :
    terminators (a ++ b) = terminators a + terminators b := by
  induction a with
  | nil => simp [terminators, endsLine]
  | cons c a ih =>
    have hends : endsLine (c :: (a ++ b)) = endsLine (c :: a) := by
      rw [Bool.eq_iff_iff, endsLine_cons_iff, endsLine_cons_iff]
      cases a with
      | nil => simp [h]
      | cons d a => rfl
    rw [List.cons_append, terminators_cons, ih, hends, terminators_cons]
    omega

/-! ## Where lines stand -/

theorem after_of_not_any (p : Position) (rest : List Char) (h : chars.any isLineEnd = false) :
    p.after chars rest = ⟨p.line, p.column + chars.length⟩ := by
  induction chars generalizing p with
  | nil => rfl
  | cons c chars ih =>
    rw [List.any_cons, Bool.or_eq_false_iff] at h
    rw [Position.after_cons, p.past_of_not_isLineEnd h.1, ih _ h.2, List.length_cons]
    simp [Nat.add_comm, Nat.add_left_comm]

/-- Where the line of this number starts, in a text that starts at a position. -/
def lineStart (p : Position) : Nat → Position
  | 0 => p
  | i + 1 => ⟨p.line + (i + 1), 0⟩

theorem lineStart_succ (p : Position) (i : Nat) :
    lineStart p (i + 1) = lineStart ⟨p.line + 1, 0⟩ i := by
  cases i with
  | zero => rfl
  | succ i =>
    rw [lineStart, lineStart]
    simp [Nat.add_comm, Nat.add_left_comm]

/-- These are the characters of a line of a text that starts at a position. -/
def IsLine (p : Position) (text : List Char) (i : Nat) (chars : List Char) : Prop :=
  ∃ front after, text = front ++ chars ++ after ∧ (i = 0 → front = []) ∧
    chars.any isLineEnd = false ∧ p.after front (chars ++ after) = lineStart p i

namespace IsLine

variable {p : Position} {rest line : List Char} {i : Nat}

theorem zero_nil (p : Position) (text : List Char) : IsLine p text 0 [] :=
  ⟨[], text, rfl, fun _ ↦ rfl, rfl, rfl⟩

theorem lineEnd {front : List Char} (hstep : p.after front rest = ⟨p.line + 1, 0⟩)
    (h : IsLine ⟨p.line + 1, 0⟩ rest i chars) : IsLine p (front ++ rest) (i + 1) chars := by
  obtain ⟨before, after, rfl, -, hchars, hafter⟩ := h
  refine ⟨front ++ before, after, by simp, by simp, hchars, ?_⟩
  rw [Position.after_append, ← List.append_assoc, hstep, hafter, lineStart_succ]

theorem cons_zero {c : Char} {q : Position} (hc : isLineEnd c = false) (h : IsLine q rest 0 line) :
    IsLine p (c :: rest) 0 (c :: line) := by
  obtain ⟨before, after, rfl, hfirst, hline, -⟩ := h
  obtain rfl := hfirst rfl
  exact ⟨[], after, rfl, fun _ ↦ rfl, by rw [List.any_cons, hc, hline, Bool.false_or], rfl⟩

theorem cons_succ {c : Char} (hc : isLineEnd c = false)
    (h : IsLine ⟨p.line, p.column + 1⟩ rest (i + 1) chars) :
    IsLine p (c :: rest) (i + 1) chars := by
  obtain ⟨before, after, rfl, -, hchars, hafter⟩ := h
  refine ⟨c :: before, after, rfl, by simp, hchars, ?_⟩
  rw [Position.after_cons, p.past_of_not_isLineEnd hc, hafter]
  rfl

end IsLine

/-- The lines into which a text is split stand in it in their order. -/
theorem isLine_of_getElem?_splitLines (p : Position) {i : Nat}
    (h : (splitLines text)[i]? = some chars) : IsLine p text i chars := by
  fun_induction splitLines text generalizing p i chars with
  | case1 =>
    cases i with
    | zero =>
      cases h
      exact IsLine.zero_nil p []
    | succ i => cases h
  | case2 rest =>
    rename_i ih
    have hstep : p.after ['\r', '\n'] rest = ⟨p.line + 1, 0⟩ := by
      rw [Position.after_cons, List.singleton_append, Position.past_carriageReturn]
      exact Position.past_lineFeed ⟨p.line, p.column + 1⟩ rest
    cases i with
    | zero =>
      cases h
      exact IsLine.zero_nil p _
    | succ i => exact (ih _ h).lineEnd hstep
  | case3 c rest hpair hend =>
    rename_i ih
    have hstep : p.after [c] rest = ⟨p.line + 1, 0⟩ :=
      p.past_of_lineEnd (endsLine_cons_iff.1 ((endsLine.eq_3 c rest hpair).trans hend))
    cases i with
    | zero =>
      cases h
      exact IsLine.zero_nil p _
    | succ i => exact (ih _ h).lineEnd hstep
  | case4 c rest hpair hend =>
    rename_i ih
    have hc : isLineEnd c = false := Bool.not_eq_true _ ▸ hend
    cases hlines : splitLines rest with
    | nil => exact absurd hlines (splitLines_ne_nil rest)
    | cons line lines =>
      rw [hlines] at h ih
      cases i with
      | zero =>
        cases h
        exact (ih p rfl).cons_zero hc
      | succ i => exact (ih _ h).cons_succ hc

private theorem exists_append_of_getElem?_splitLines (p : Position) {i j : Nat} {c : Char}
    (h : (splitLines text)[i]? = some chars) (hj : chars[j]? = some c) :
    ∃ front rest, text = front ++ c :: rest ∧
      p.after front (c :: rest) = ⟨(lineStart p i).line, (lineStart p i).column + j⟩ := by
  obtain ⟨front, after, htext, -, hchars, hstart⟩ := isLine_of_getElem?_splitLines p h
  obtain ⟨before, rest, rfl, rfl⟩ := exists_append_of_getElem? hj
  rw [List.append_assoc, List.cons_append] at hstart
  rw [List.any_append, Bool.or_eq_false_iff] at hchars
  refine ⟨front ++ before, rest ++ after, by simp [htext], ?_⟩
  rw [Position.after_append, hstart, after_of_not_any _ _ hchars.1]

theorem exists_line_of_append (p : Position) {front rest : List Char} {c : Char}
    (hc : isLineEnd c = false) :
    ∃ i j chars, (splitLines (front ++ c :: rest))[i]? = some chars ∧ chars[j]? = some c ∧
      p.after front (c :: rest) = ⟨(lineStart p i).line, (lineStart p i).column + j⟩ := by
  generalize htext : front ++ c :: rest = text
  fun_induction splitLines text generalizing p front with
  | case1 => simp at htext
  | case2 tail ih =>
    -- Neither character of the pair is the one that is looked for.
    obtain ⟨-, heq⟩ | ⟨front, rfl, hfront⟩ := List.append_eq_cons_iff.1 htext
    · cases heq
      cases hc
    obtain ⟨-, heq⟩ | ⟨front, rfl, rfl⟩ := List.append_eq_cons_iff.1 hfront.symm
    · cases heq
      cases hc
    obtain ⟨i, j, chars, hchars, hj, hafter⟩ := ih ⟨p.line + 1, 0⟩ rfl
    refine ⟨i + 1, j, chars, hchars, hj, ?_⟩
    rw [lineStart_succ, ← hafter]
    rfl
  | case3 d tail hpair hend ih =>
    obtain ⟨-, heq⟩ | ⟨front, rfl, rfl⟩ := List.append_eq_cons_iff.1 htext
    · cases heq
      exact absurd hend (by simp [hc])
    obtain ⟨i, j, chars, hchars, hj, hafter⟩ := ih ⟨p.line + 1, 0⟩ rfl
    refine ⟨i + 1, j, chars, hchars, hj, ?_⟩
    rw [lineStart_succ, ← hafter, Position.after_cons,
      p.past_of_lineEnd (endsLine_cons_iff.1 ((endsLine.eq_3 d _ hpair).trans hend))]
  | case4 d tail hpair hend ih =>
    obtain ⟨line, lines, hlines⟩ := List.exists_cons_of_ne_nil (splitLines_ne_nil tail)
    rw [hlines] at ih ⊢
    obtain ⟨rfl, heq⟩ | ⟨front, rfl, rfl⟩ := List.append_eq_cons_iff.1 htext
    · cases heq
      exact ⟨0, 0, c :: line, rfl, rfl, rfl⟩
    obtain ⟨i, j, chars, hchars, hj, hafter⟩ := ih ⟨p.line, p.column + 1⟩ rfl
    rw [Position.after_cons, p.past_of_not_isLineEnd (Bool.eq_false_iff.2 hend), hafter]
    cases i with
    | zero =>
      cases hchars
      refine ⟨0, j + 1, d :: line, rfl, hj, ?_⟩
      rw [lineStart, lineStart, Nat.add_assoc, Nat.add_comm 1]
    | succ i => exact ⟨i + 1, j, chars, hchars, hj, rfl⟩

end Text

/-! ## Sources -/

private theorem Locator.line_position_le (text : List Char) (offset : Nat) :
    ((Locator.of text).position offset).1.line ≤ Text.terminators text + 1 := by
  have hle := List.countP_le_length (p := (·.start ≤ min offset (Text.byteSize text)))
    (l := Text.linesOf text)
  rw [Text.linesOf, List.length_cons, Text.length_laterLines] at hle
  exact hle

namespace Source

private theorem length_lines (uri : String) (charset : Charset) (text : List Char) :
    (ofChars uri charset text).lines.length =
      Text.terminators (ofChars uri charset text).preamble +
        Text.terminators (ofChars uri charset text).body + 1 := by
  rw [lines, Text.length_splitLines, content]
  by_cases hpreamble : (ofChars uri charset text).preamble = []
  · rw [hpreamble]
    simp [Text.terminators, Text.endsLine]
  · have hbody : (ofChars uri charset text).body.head? = some '<' :=
      head?_body_of_splitPreamble hpreamble
    rw [Text.terminators_append _ (by rw [hbody]; decide)]

/-- Any offset is given a line that there is. -/
theorem line_placeOf_le (uri : String) (charset : Charset) (text : List Char) (offset : Nat) :
    let source := ofChars uri charset text
    1 ≤ (source.placeOf (Locator.of source.body) offset).line ∧
      (source.placeOf (Locator.of source.body) offset).line ≤ source.lines.length := by
  intro source
  have hpos := Locator.line_position_pos source.body offset
  have hle := Locator.line_position_le source.body offset
  have hline : (source.placeOf (Locator.of source.body) offset).line =
      ((Locator.of source.body).position offset).1.line + Text.terminators source.preamble := by
    rw [placeOf, toFile, shift, Shift.of_eq]
    dsimp only
    split
    · rfl
    · rfl
  have hlength : source.lines.length =
      Text.terminators source.preamble + Text.terminators source.body + 1 :=
    length_lines uri charset text
  omega

theorem lineStart_firstColumn (source : Source) {line : Nat} (h : 1 ≤ line) :
    Text.lineStart ⟨1, source.firstColumn 1⟩ (line - 1) = ⟨line, source.firstColumn line⟩ := by
  obtain ⟨i, rfl⟩ := Nat.exists_eq_add_of_le' h
  cases i with
  | zero => rfl
  | succ i =>
    have hfirst : source.firstColumn (i + 1 + 1) = 0 := by simp [firstColumn]
    rw [hfirst, Nat.add_sub_cancel, Text.lineStart, Nat.add_comm]

/-- The mark at the head of a file, if there is one. -/
def mark (source : Source) : List Char := if source.marked then [Text.byteOrderMark] else []

theorem mark_append_content (uri : String) (charset : Charset) (text : List Char) :
    (ofChars uri charset text).mark ++ (ofChars uri charset text).content = text := by
  rw [content, ← List.append_assoc]
  exact lead_append_body uri charset text

theorem after_mark (source : Source) (rest : List Char) :
    Position.first.after source.mark rest = ⟨1, source.firstColumn 1⟩ := by
  have hmark : Position.first.past Text.byteOrderMark rest = ⟨1, 1⟩ :=
    Position.past_of_not_lineEnd _ (by simp [Text.byteOrderMark])
  by_cases hmarked : source.marked
  · rw [mark, if_pos hmarked, Position.after_cons, List.nil_append, hmark]
    simp [firstColumn, hmarked]
  · rw [mark, if_neg hmarked, Position.after_nil]
    simp [firstColumn, hmarked, Position.first]

/-- A line of the content stands in the file at its number, after the mark if it is the first. -/
theorem between_line (uri : String) (charset : Charset) (text : List Char) {line : Nat}
    {chars : List Char} (hline : 1 ≤ line)
    (h : (ofChars uri charset text).lines[line - 1]? = some chars) :
    let first := (ofChars uri charset text).firstColumn line
    Text.between text ⟨line, first⟩ ⟨line, first + chars.length⟩ = chars := by
  intro first
  have htext := mark_append_content uri charset text
  set source := ofChars uri charset text
  obtain ⟨front, after, hcontent, -, hchars, hfront⟩ :=
    Text.isLine_of_getElem?_splitLines ⟨1, source.firstColumn 1⟩ h
  have hstart : Position.first.after (source.mark ++ front) (chars ++ after) = ⟨line, first⟩ := by
    rw [Position.after_append, ← List.append_assoc, ← hcontent, after_mark, hfront,
      lineStart_firstColumn source hline]
  have hstop : Position.first.after (source.mark ++ front ++ chars) after =
      ⟨line, first + chars.length⟩ := by
    rw [Position.after_append, hstart, Text.after_of_not_any _ _ hchars]
  have hslice := Text.between_after (source.mark ++ front) chars after
  rw [hstart, hstop] at hslice
  rw [← htext, hcontent]
  simpa using hslice

section

variable {source : Source} {chars : List Char} {c : Char}

theorem coordinates_mark_append {front rest : List Char} (h : source.content = front ++ rest) :
    Text.coordinates (source.mark ++ source.content) (source.mark ++ front).length =
      Position.after ⟨1, source.firstColumn 1⟩ front rest := by
  rw [h, ← List.append_assoc, ← Text.after_eq_coordinates, Position.after_append, after_mark]

theorem exists_getElem?_of_line {i j : Nat} (h : source.lines[i]? = some chars)
    (hj : chars[j]? = some c) :
    ∃ k, (source.mark ++ source.content)[k]? = some c ∧
      Text.coordinates (source.mark ++ source.content) k =
        ⟨i + 1, source.firstColumn (i + 1) + j⟩ := by
  obtain ⟨front, rest, hcontent, hafter⟩ :=
    Text.exists_append_of_getElem?_splitLines ⟨1, source.firstColumn 1⟩ h hj
  rw [← coordinates_mark_append hcontent, ← Nat.add_sub_cancel i 1,
    lineStart_firstColumn _ (Nat.le_add_left 1 i)] at hafter
  refine ⟨_, ?_, hafter⟩
  simp [hcontent]

/-- A character of a file that is neither its mark nor part of a terminator stands in a line. -/
theorem exists_line_of_getElem? {k : Nat} (h : (source.mark ++ source.content)[k]? = some c)
    (hend : Text.isLineEnd c = false) (hmark : c ≠ Text.byteOrderMark) :
    ∃ i j chars, source.lines[i]? = some chars ∧ chars[j]? = some c ∧
      Text.coordinates (source.mark ++ source.content) k =
        ⟨i + 1, source.firstColumn (i + 1) + j⟩ := by
  have hbehind : source.mark.length ≤ k := by
    refine Nat.le_of_not_lt fun hlt ↦ hmark ?_
    rw [List.getElem?_append_left hlt, mark] at h
    simpa using And.right (List.mem_ite_nil_right.1 (List.mem_of_getElem? h))
  rw [List.getElem?_append_right hbehind] at h
  obtain ⟨front, rest, hcontent, hfront⟩ := exists_append_of_getElem? h
  obtain ⟨i, j, chars, hchars, hj, hafter⟩ :=
    Text.exists_line_of_append ⟨1, source.firstColumn 1⟩ hend
  rw [← hcontent] at hchars
  rw [← coordinates_mark_append hcontent, List.length_append, hfront,
    Nat.add_sub_cancel' hbehind, ← Nat.add_sub_cancel i 1,
    lineStart_firstColumn _ (Nat.le_add_left 1 i)] at hafter
  exact ⟨i, j, chars, hchars, hj, hafter⟩

end

private theorem firstColumn_ofChars (uri : String) (charset : Charset) (text : List Char)
    (line : Nat) : (ofChars uri charset text).firstColumn line =
      if text.head? = some Text.byteOrderMark ∧ line = 1 then 1 else 0 := by
  simp [firstColumn, ofChars]

theorem exists_lineRange_eq (source : Source) {line start stop : Nat} (hline : 1 ≤ line)
    (h : start < stop) : ∃ range, source.lineRange line start stop = .ok range ∧
      range.start = ⟨line, source.firstColumn line + start⟩ ∧
      range.stop = ⟨line, source.firstColumn line + stop⟩ := by
  rw [lineRange, TextRange.between, Nat.add_comm start, Nat.add_comm stop]
  exact ⟨_, dif_pos ⟨hline, Or.inr ⟨rfl, Nat.add_lt_add_left h _⟩⟩, rfl, rfl⟩

/-- A stretch of a line that starts at its first column is a range exactly if it is not empty. -/
theorem lineRange_zero (source : Source) {line : Nat} (length : Nat) (hline : 1 ≤ line) :
    (length = 0 → ∃ cause, source.lineRange line 0 length = .error cause) ∧
      (length ≠ 0 → ∃ range, source.lineRange line 0 length = .ok range ∧
        range.start = ⟨line, source.firstColumn line⟩ ∧
        range.stop = ⟨line, source.firstColumn line + length⟩) := by
  constructor
  · rintro rfl
    exact ⟨_, dif_neg fun h ↦ Position.lt_irrefl _ h.2⟩
  · intro hlength
    exact source.exists_lineRange_eq hline (Nat.pos_of_ne_zero hlength)

end Source

/-! ## Faults -/

private theorem Analyzer.parseErrorIssue_malformed {source : Source} {line : Nat}
    {chars : List Char}
    (fault : Markup.Fault) (hline : 1 ≤ line) (h : source.lines[line - 1]? = some chars) :
    let issue := parseErrorIssue source (.malformed line fault)
    let message := "Parse error: " ++ (Error.malformed line fault).message
    (chars = [] → issue = Issue.aboutFile Rule.parsingError.key message) ∧
      (chars ≠ [] → ∃ range, issue = Issue.located Rule.parsingError.key range message ∧
        range.start = ⟨line, source.firstColumn line⟩ ∧
        range.stop = ⟨line, source.firstColumn line + chars.length⟩) := by
  have hlength : (source.lines[line - 1]?.map List.length).getD 0 = chars.length := by rw [h]; rfl
  have hrange := source.lineRange_zero chars.length hline
  dsimp only [parseErrorIssue]
  rw [hlength]
  constructor
  · intro hempty
    obtain ⟨cause, hfault⟩ := hrange.1 (List.length_eq_zero_iff.2 hempty)
    rw [hfault]
  · intro hne
    obtain ⟨range, hok, hplace⟩ := hrange.2 (mt List.length_eq_zero_iff.1 hne)
    rw [hok]
    exact ⟨range, rfl, hplace⟩

namespace Document

variable {uri : String} {charset : Charset} {text : List Char} {mode : NamespaceMode} {line : Nat}
  {fault : Markup.Fault}

/-- The line on which parsing gave up. -/
def faultLine? : Except Error Document → Option Nat
  | .error (.malformed line _) => some line
  | _ => none

private theorem exists_of_faultLine? {result : Except Error Document}
    (h : faultLine? result = some line) : ∃ fault, result = .error (.malformed line fault) := by
  cases result with
  | ok doc => cases h
  | error error =>
    cases error <;> cases h
    exact ⟨_, rfl⟩

/-- A fault is reported on a line that there is, and the issue about it is at all that the line
holds. If the line holds nothing, it is about the file as a whole. -/
theorem parseErrorIssue_of_parse
    (h : parse (.ofChars uri charset text) mode = .error (.malformed line fault)) :
    let source := Source.ofChars uri charset text
    let issue := Analyzer.parseErrorIssue source (.malformed line fault)
    let message := "Parse error: " ++ (Error.malformed line fault).message
    1 ≤ line ∧ line ≤ source.lines.length ∧ ∃ chars, source.lines[line - 1]? = some chars ∧
      (chars = [] → issue = Issue.aboutFile Rule.parsingError.key message) ∧
      (chars ≠ [] → ∃ range, issue = Issue.located Rule.parsingError.key range message ∧
        range.start = ⟨line, if text.head? = some Text.byteOrderMark ∧ line = 1 then 1 else 0⟩ ∧
        range.stop = ⟨line, range.start.column + chars.length⟩ ∧ range.slice text = chars) := by
  intro source issue message
  obtain ⟨hline, hle⟩ : 1 ≤ line ∧ line ≤ source.lines.length := by
    rcases parse_eq_error h with ⟨located, -, hfault⟩ | ⟨_, -, ⟨_, -, hfault⟩ |
      ⟨_, -, _, -, hfault⟩⟩
    · cases hfault
      exact Source.line_placeOf_le uri charset text located.offset
    · cases hfault
    · cases hfault
  have hchars := List.getElem?_eq_getElem (l := source.lines) (i := line - 1) (by omega)
  obtain ⟨hempty, hrange⟩ := Analyzer.parseErrorIssue_malformed fault hline hchars
  refine ⟨hline, hle, _, hchars, hempty, fun hne ↦ ?_⟩
  obtain ⟨range, hissue, hstart, hstop⟩ := hrange hne
  have hslice := Source.between_line uri charset text hline hchars
  refine ⟨range, hissue, ?_, ?_, ?_⟩
  · rw [hstart, Source.firstColumn_ofChars]
  · rw [hstart, hstop]
  · rw [TextRange.slice, hstart, hstop]
    exact hslice

/-- A tag that is not closed on the first line, after a mark, and an element that is not closed at
the end of a file whose last line is empty. -/
theorem parseErrorIssue_of_parse_unclosed :
    (let text := "\uFEFF<é b".toList
      let source := Source.ofChars "" .utf8 text
      ∃ fault range, parse source .aware = .error (.malformed 1 fault) ∧
        (Analyzer.parseErrorIssue source (.malformed 1 fault)).range = some range ∧
        range.start = ⟨1, 1⟩ ∧ range.stop = ⟨1, 5⟩ ∧ range.slice text = "<é b".toList) ∧
    (let source := Source.ofChars "" .utf8 "x\r\n<?xml version='1.0'?><a>\n".toList
      ∃ fault, parse source .oblivious = .error (.malformed 3 fault) ∧
        (Analyzer.parseErrorIssue source (.malformed 3 fault)).range = none) := by
  constructor
  · intro text source
    obtain ⟨fault, hparse⟩ : ∃ fault, parse source .aware = .error (.malformed 1 fault) :=
      exists_of_faultLine? (by decide +kernel)
    have hlines : source.lines[0]? = some "<é b".toList := by decide +kernel
    obtain ⟨-, -, chars, hchars, -, hrange⟩ := parseErrorIssue_of_parse hparse
    cases hlines.symm.trans hchars
    obtain ⟨range, hissue, hstart, hstop, hslice⟩ := hrange (by decide)
    refine ⟨fault, range, hparse, congrArg Issue.range hissue, hstart, ?_, hslice⟩
    rw [hstop, hstart]
    rfl
  · intro source
    obtain ⟨fault, hparse⟩ : ∃ fault, parse source .oblivious = .error (.malformed 3 fault) :=
      exists_of_faultLine? (by decide +kernel)
    have hlines : source.lines[2]? = some [] := by decide +kernel
    obtain ⟨-, -, chars, hchars, hempty, -⟩ := parseErrorIssue_of_parse hparse
    cases hlines.symm.trans hchars
    exact ⟨fault, hparse, congrArg Issue.range (hempty rfl)⟩

end Document

end XmlInspect
