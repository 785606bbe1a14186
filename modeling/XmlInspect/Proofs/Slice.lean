import Mathlib.Tactic.Common
import XmlInspect.Document

/-!
# The text of a range

A range is two positions, and what it is about is the text between them. Here that text is defined
from the file alone: every character is given its position, one after the other, and a slice takes
those that stand from one position up to another. Nothing in this reading knows of offsets, of a
preamble or of a locator.

The theory then leads back to how ranges are made. A stretch of the body is found in bytes, its ends
are looked up by a locator of the body, and the answers are moved into the file. Whenever the ends
fall between characters the slice of the resulting range is the stretch itself.
-/

namespace XmlInspect

/-! ## Positions along a text -/

namespace Position

theorem le_refl (a : Position) : a ≤ a := Or.inr ⟨rfl, Nat.le_refl _⟩

theorem le_of_lt {a b : Position} (h : a < b) : a ≤ b := by
  rw [lt_def] at h
  rw [le_def]
  omega

theorem le_trans {a b c : Position} (hab : a ≤ b) (hbc : b ≤ c) : a ≤ c := by
  rw [le_def] at *
  omega

theorem lt_of_lt_of_le {a b c : Position} (hab : a < b) (hbc : b ≤ c) : a < c := by
  rw [lt_def] at *
  rw [le_def] at hbc
  omega

theorem lt_of_le_of_lt {a b c : Position} (hab : a ≤ b) (hbc : b < c) : a < c := by
  rw [lt_def] at *
  rw [le_def] at hab
  omega

theorem not_le_of_lt {a b : Position} (h : a < b) : ¬ b ≤ a := by
  rw [lt_def] at h
  rw [le_def]
  omega

/-- Where every text starts. -/
def first : Position := ⟨1, 0⟩

/-- The position after a character, given what follows it. A carriage return before a line feed
does not end the line yet. -/
def past (p : Position) (c : Char) (rest : List Char) : Position :=
  if c = '\n' ∨ c = '\r' ∧ rest.head? ≠ some '\n' then ⟨p.line + 1, 0⟩ else ⟨p.line, p.column + 1⟩

/-- The position after some text, given what follows it. -/
def after (p : Position) : List Char → List Char → Position
  | [], _ => p
  | c :: text, rest => (p.past c (text ++ rest)).after text rest

@[simp] theorem after_nil (p : Position) (rest : List Char) : p.after [] rest = p := rfl

@[simp] theorem after_cons (p : Position) (c : Char) (text rest : List Char) :
    p.after (c :: text) rest = (p.past c (text ++ rest)).after text rest := rfl

theorem after_append (p : Position) (a b rest : List Char) :
    p.after (a ++ b) rest = (p.after a (b ++ rest)).after b rest := by
  induction a generalizing p with
  | nil => rfl
  | cons c a ih => rw [List.cons_append, after_cons, after_cons, ih, List.append_assoc]

theorem past_of_lineEnd (p : Position) {c : Char} {rest : List Char}
    (h : c = '\n' ∨ c = '\r' ∧ rest.head? ≠ some '\n') : p.past c rest = ⟨p.line + 1, 0⟩ :=
  if_pos h

theorem past_of_not_lineEnd (p : Position) {c : Char} {rest : List Char}
    (h : ¬ (c = '\n' ∨ c = '\r' ∧ rest.head? ≠ some '\n')) :
    p.past c rest = ⟨p.line, p.column + 1⟩ :=
  if_neg h

theorem past_of_not_isLineEnd (p : Position) {c : Char} {rest : List Char}
    (h : Text.isLineEnd c = false) : p.past c rest = ⟨p.line, p.column + 1⟩ := by
  have hc : ¬ (c = '\n' ∨ c = '\r') := by simpa [Text.isLineEnd] using h
  exact p.past_of_not_lineEnd fun hend ↦ hc (hend.imp id And.left)

theorem past_lineFeed (p : Position) (rest : List Char) : p.past '\n' rest = ⟨p.line + 1, 0⟩ :=
  p.past_of_lineEnd (Or.inl rfl)

theorem past_carriageReturn (p : Position) (rest : List Char) :
    p.past '\r' ('\n' :: rest) = ⟨p.line, p.column + 1⟩ :=
  p.past_of_not_lineEnd (by simp)

theorem lt_past (p : Position) (c : Char) (rest : List Char) : p < p.past c rest := by
  unfold past
  split
  · exact Or.inl (Nat.lt_succ_self _)
  · exact Or.inr ⟨rfl, Nat.lt_succ_self _⟩

theorem le_after (p : Position) (text rest : List Char) : p ≤ p.after text rest := by
  induction text generalizing p with
  | nil => exact p.le_refl
  | cons c text ih => exact le_trans (le_of_lt (p.lt_past c _)) (ih _)

theorem lt_after (p : Position) {text : List Char} (rest : List Char) (h : text ≠ []) :
    p < p.after text rest := by
  cases text with
  | nil => exact absurd rfl h
  | cons c text => exact lt_of_lt_of_le (p.lt_past c _) (le_after _ _ _)

end Position

/-! ## Slices -/

namespace Text

/-- The characters of a text with their positions, from a position on. -/
def placed (p : Position) : List Char → List (Position × Char)
  | [] => []
  | c :: rest => (p, c) :: placed (p.past c rest) rest

/-- The part of a text from one position up to another. -/
def between (text : List Char) (start stop : Position) : List Char :=
  ((placed .first text).filter fun x ↦ start ≤ x.1 ∧ x.1 < stop).map Prod.snd

private theorem le_of_mem_placed {p : Position} {text : List Char} {x : Position × Char}
    (h : x ∈ placed p text) : p ≤ x.1 := by
  induction text generalizing p with
  | nil => cases h
  | cons c text ih =>
    rcases List.mem_cons.1 h with rfl | h
    · exact p.le_refl
    · exact Position.le_trans (Position.le_of_lt (p.lt_past c text)) (ih h)

/-- Giving positions to two texts in a row: those of the first come before where the second
starts. -/
theorem placed_append (p : Position) (a b : List Char) :
    ∃ front, placed p (a ++ b) = front ++ placed (p.after a b) b ∧ front.map Prod.snd = a ∧
      ∀ x ∈ front, p ≤ x.1 ∧ x.1 < p.after a b := by
  induction a generalizing p with
  | nil => exact ⟨[], rfl, rfl, by simp⟩
  | cons c a ih =>
    obtain ⟨front, hplaced, hchars, hbound⟩ := ih (p.past c (a ++ b))
    refine ⟨(p, c) :: front, ?_, ?_, ?_⟩
    · rw [List.cons_append, placed, hplaced, Position.after_cons, List.cons_append]
    · rw [List.map_cons, hchars]
    · intro x hx
      have hstep := p.lt_past c (a ++ b)
      rcases List.mem_cons.1 hx with rfl | hx
      · exact ⟨p.le_refl, p.lt_after b (List.cons_ne_nil c a)⟩
      · exact ⟨Position.le_trans (Position.le_of_lt hstep) (hbound x hx).1, (hbound x hx).2⟩

/-- The slice between the two ends of a part of a text is that part. -/
theorem between_after (a m b : List Char) :
    between (a ++ m ++ b) (Position.first.after a (m ++ b)) (Position.first.after (a ++ m) b) =
      m := by
  obtain ⟨front, hfront, -, hfrontBound⟩ := placed_append .first a (m ++ b)
  obtain ⟨middle, hmiddle, hchars, hmiddleBound⟩ :=
    placed_append (Position.first.after a (m ++ b)) m b
  rw [← Position.after_append] at hmiddle hmiddleBound
  set start := Position.first.after a (m ++ b)
  set stop := Position.first.after (a ++ m) b
  -- The positions divide the text in three, and only the middle part is taken.
  have hbefore : front.filter (fun x ↦ start ≤ x.1 ∧ x.1 < stop) = [] := by
    refine List.filter_eq_nil_iff.2 fun x hx ↦ ?_
    have := Position.not_le_of_lt (hfrontBound x hx).2
    simp [this]
  have hinside : middle.filter (fun x ↦ start ≤ x.1 ∧ x.1 < stop) = middle := by
    refine List.filter_eq_self.2 fun x hx ↦ ?_
    exact decide_eq_true (hmiddleBound x hx)
  have hbehind : (placed stop b).filter (fun x ↦ start ≤ x.1 ∧ x.1 < stop) = [] := by
    refine List.filter_eq_nil_iff.2 fun x hx ↦ ?_
    have hle := le_of_mem_placed hx
    intro h
    exact Position.not_le_of_lt (of_decide_eq_true h).2 hle
  rw [between, List.append_assoc, hfront, hmiddle, List.filter_append, List.filter_append, hbefore,
    hinside, hbehind, List.nil_append, List.append_nil, hchars]

end Text

/-- The text of a range of a file. -/
def TextRange.slice (range : TextRange) (text : List Char) : List Char :=
  Text.between text range.start range.stop

/-! ## Lines

The line of a place is found among all lines by where they start. Reading up to the place meets the
same starts one by one, so the lines divide into those that start early enough and the others, and
the last of the early ones is the line the place is on. -/

namespace Text

theorem lt_start_of_mem_laterLines {offset : Nat} {text : List Char} {line : Line}
    (h : line ∈ laterLines offset text) : offset < line.start := by
  fun_induction laterLines offset text with
  | case1 => cases h
  | case2 offset rest ih =>
    rcases List.mem_cons.1 h with rfl | h
    · exact Nat.lt_add_of_pos_right Nat.two_pos
    · exact Nat.lt_of_le_of_lt (Nat.le_add_right _ _) (ih h)
  | case3 offset c rest _ _ ih =>
    rcases List.mem_cons.1 h with rfl | h
    · exact Nat.lt_succ_self _
    · exact Nat.lt_of_succ_lt (ih h)
  | case4 offset c rest _ _ ih =>
    exact Nat.lt_of_le_of_lt (Nat.le_add_right _ _) (ih h)

theorem charsWithin?_byteSize_append (a b : List Char) :
    charsWithin? (byteSize a) (a ++ b) = some a.length := by
  induction a with
  | nil => simp [charsWithin?]
  | cons c a ih =>
    have hc := c.utf8Size_pos
    obtain ⟨n, hn⟩ : ∃ n, c.utf8Size + byteSize a = n + 1 := ⟨c.utf8Size + byteSize a - 1, by omega⟩
    simp only [byteSize_cons, List.cons_append, hn, charsWithin?]
    rw [if_pos (by omega), ← hn, Nat.add_sub_cancel_left, ih]
    rfl

/-- Of two ways to divide a text, the one that comes later adds to the other. -/
theorem exists_eq_append_of_byteSize_le {a b a' b' : List Char} (h : a ++ b = a' ++ b')
    (hle : byteSize a ≤ byteSize a') : ∃ middle, a' = a ++ middle ∧ b = middle ++ b' := by
  rcases List.append_eq_append_iff.1 h with ⟨middle, ha, hb⟩ | ⟨middle, ha, hb⟩
  · exact ⟨middle, ha, hb⟩
  · rw [ha, byteSize_append] at hle
    obtain rfl : middle = [] := byteSize_eq_zero_iff.1 (by omega)
    exact ⟨[], by simpa using ha.symm, by simpa using hb.symm⟩

/-- The lines after the first that start within `a`, read from a position on, and what they tell
about the position after `a`. -/
structure StartedLines (p : Position) (offset : Nat) (a b : List Char) (early late : List Line) :
    Prop where
  lines : laterLines offset (a ++ b) = early ++ late
  early_le : ∀ line ∈ early, line.start ≤ offset + byteSize a
  lt_late : ∀ line ∈ late, offset + byteSize a < line.start
  line_eq : (p.after a b).line = p.line + early.length
  column_of_nil : early = [] → (p.after a b).column = p.column + a.length
  column_of_getLast : ∀ line, early.getLast? = some line → ∃ front back,
    a = front ++ back ∧ line = ⟨offset + byteSize front, back ++ b⟩ ∧
      (p.after a b).column = back.length

namespace StartedLines

variable {p : Position} {offset : Nat} {a b : List Char} {early late : List Line}

theorem nil (p : Position) (offset : Nat) (b : List Char) :
    StartedLines p offset [] b [] (laterLines offset b) where
  lines := rfl
  early_le := by simp
  lt_late _ h := lt_start_of_mem_laterLines h
  line_eq := rfl
  column_of_nil _ := rfl
  column_of_getLast := by simp

theorem lineEnd (front : List Char) (hp : p.after front (a ++ b) = ⟨p.line + 1, 0⟩)
    (hlines : laterLines offset (front ++ (a ++ b)) =
      ⟨offset + byteSize front, a ++ b⟩ :: laterLines (offset + byteSize front) (a ++ b))
    (h : StartedLines ⟨p.line + 1, 0⟩ (offset + byteSize front) a b early late) :
    StartedLines p offset (front ++ a) b (⟨offset + byteSize front, a ++ b⟩ :: early) late where
  lines := by rw [List.append_assoc, hlines, h.lines, List.cons_append]
  early_le line hline := by
    rw [byteSize_append]
    rcases List.mem_cons.1 hline with rfl | hline
    · exact Nat.add_le_add_left (Nat.le_add_right _ _) _
    · have := h.early_le line hline
      omega
  lt_late line hline := by
    rw [byteSize_append]
    have := h.lt_late line hline
    omega
  line_eq := by
    rw [Position.after_append, hp, h.line_eq, List.length_cons, Nat.add_assoc,
      Nat.add_comm 1]
  column_of_nil h := absurd h (List.cons_ne_nil _ _)
  column_of_getLast line hline := by
    rw [Position.after_append, hp]
    rcases List.eq_nil_or_concat early with rfl | ⟨init, last, rfl⟩
    · refine ⟨front, a, rfl, ?_, ?_⟩
      · exact (Option.some.inj hline).symm
      · rw [h.column_of_nil rfl, Nat.zero_add]
    · rw [List.concat_eq_append] at h hline
      rw [← List.cons_append, List.getLast?_concat] at hline
      have hlast : (init ++ [last]).getLast? = some line := by rw [List.getLast?_concat, hline]
      obtain ⟨mid, back, rfl, rfl, hcolumn⟩ := h.column_of_getLast line hlast
      refine ⟨front ++ mid, back, (List.append_assoc _ _ _).symm, ?_, hcolumn⟩
      rw [byteSize_append, Nat.add_assoc]

theorem char {c : Char} (hp : p.past c (a ++ b) = ⟨p.line, p.column + 1⟩)
    (hlines : laterLines offset (c :: (a ++ b)) = laterLines (offset + c.utf8Size) (a ++ b))
    (h : StartedLines ⟨p.line, p.column + 1⟩ (offset + c.utf8Size) a b early late) :
    StartedLines p offset (c :: a) b early late where
  lines := by rw [List.cons_append, hlines, h.lines]
  early_le line hline := by
    have := h.early_le line hline
    rw [byteSize_cons]
    omega
  lt_late line hline := by
    have := h.lt_late line hline
    rw [byteSize_cons]
    omega
  line_eq := by rw [Position.after_cons, hp, h.line_eq]
  column_of_nil he := by
    rw [Position.after_cons, hp, h.column_of_nil he, List.length_cons, Nat.add_assoc,
      Nat.add_comm 1]
  column_of_getLast line hline := by
    obtain ⟨front, back, rfl, rfl, hcolumn⟩ := h.column_of_getLast line hline
    refine ⟨c :: front, back, rfl, ?_, ?_⟩
    · rw [byteSize_cons, Nat.add_assoc]
    · rw [Position.after_cons, hp, hcolumn]

end StartedLines

/-- Between the two characters of a terminator the line has not ended. -/
theorem startedLines_inside_lineEnd (p : Position) (offset : Nat) (rest : List Char) :
    StartedLines p offset ['\r'] ('\n' :: rest) [] (laterLines offset ('\r' :: '\n' :: rest)) := by
  have hp : p.after ['\r'] ('\n' :: rest) = ⟨p.line, p.column + 1⟩ := by
    rw [Position.after_cons, Position.after_nil, p.past_of_not_lineEnd (by simp)]
  refine ⟨rfl, by simp, fun line hline ↦ ?_, by rw [hp]; rfl, fun _ ↦ by rw [hp]; rfl, by simp⟩
  have hsize : byteSize ['\r'] = 1 := rfl
  rw [hsize]
  rw [laterLines] at hline
  rcases List.mem_cons.1 hline with rfl | hline
  · exact Nat.lt_succ_self _
  · exact Nat.lt_of_succ_lt (lt_start_of_mem_laterLines hline)

/-- Every place in a text has its lines. The recursion of `laterLines` takes a pair of terminators
in one step, so the place may also fall between the two. -/
theorem exists_startedLines (p : Position) (offset : Nat) (a b : List Char) :
    ∃ early late, StartedLines p offset a b early late := by
  generalize htext : a ++ b = text
  fun_induction laterLines offset text generalizing a p with
  | case1 offset =>
    obtain ⟨rfl, rfl⟩ := List.append_eq_nil_iff.1 htext
    exact ⟨_, _, .nil p offset []⟩
  | case2 offset rest ih =>
    rcases a with _ | ⟨c, _ | ⟨d, a⟩⟩
    · exact ⟨_, _, .nil p offset b⟩
    · obtain ⟨rfl, rfl⟩ := List.cons.inj htext
      exact ⟨_, _, startedLines_inside_lineEnd p offset rest⟩
    · obtain ⟨rfl, htail⟩ := List.cons.inj htext
      obtain ⟨rfl, rfl⟩ := List.cons.inj htail
      obtain ⟨early, late, h⟩ := ih ⟨p.line + 1, 0⟩ a rfl
      refine ⟨_, _, .lineEnd ['\r', '\n'] ?_ ?_ h⟩
      · rw [Position.after_cons, Position.after_cons, Position.after_nil, List.cons_append,
          Position.past_carriageReturn, Position.past_lineFeed]
      · exact laterLines.eq_2 offset _
  | case3 offset c rest hpair hend ih =>
    rcases a with _ | ⟨d, a⟩
    · exact ⟨_, _, .nil p offset b⟩
    · obtain ⟨rfl, rfl⟩ := List.cons.inj htext
      obtain ⟨early, late, h⟩ := ih ⟨p.line + 1, 0⟩ a rfl
      have hc : d = '\n' ∨ d = '\r' := by simpa [isLineEnd] using hend
      have hsize : byteSize [d] = 1 := by rcases hc with rfl | rfl <;> rfl
      replace h : StartedLines ⟨p.line + 1, 0⟩ (offset + byteSize [d]) a b early late := by
        rw [hsize]
        exact h
      refine ⟨_, _, .lineEnd [d] ?_ ?_ h⟩
      · -- A carriage return before a line feed is the case before this one.
        refine p.past_of_lineEnd (hc.imp id fun hr ↦ ⟨hr, ?_⟩)
        intro hhead
        obtain ⟨tail, htail⟩ : ∃ tail, a ++ b = '\n' :: tail := by
          cases hab : a ++ b with
          | nil => simp [hab] at hhead
          | cons e tail => exact ⟨tail, by simpa [hab] using hhead⟩
        exact hpair tail hr htail
      · rw [hsize]
        exact (laterLines.eq_3 offset d _ hpair).trans (if_pos hend)
  | case4 offset c rest hpair hend ih =>
    rcases a with _ | ⟨d, a⟩
    · exact ⟨_, _, .nil p offset b⟩
    · obtain ⟨rfl, rfl⟩ := List.cons.inj htext
      obtain ⟨early, late, h⟩ := ih ⟨p.line, p.column + 1⟩ a rfl
      have hc : ¬ (d = '\n' ∨ d = '\r') := by simpa [isLineEnd] using hend
      refine ⟨_, _, .char ?_ ?_ h⟩
      · exact p.past_of_not_lineEnd fun hd ↦ hc (hd.imp id And.left)
      · exact (laterLines.eq_3 offset d _ hpair).trans (if_neg hend)

end Text

/-! ## Locators -/

/-- Between two places of a line, the distance is the number of characters between them. -/
theorem Line.distance_between (start : Nat) (a middle b : List Char) :
    Line.distance ⟨start, a ++ (middle ++ b)⟩ (start + Text.byteSize a)
      (start + Text.byteSize (a ++ middle)) = middle.length := by
  have hcount : start + Text.byteSize (a ++ middle) - (start + Text.byteSize a) =
      Text.byteSize middle := by
    rw [Text.byteSize_append]
    omega
  rw [Line.distance, Nat.add_sub_cancel_left, Text.dropBytes?_byteSize_append, hcount]
  dsimp only
  rw [Text.charsWithin?_byteSize_append, Option.getD_some]

namespace Locator

variable {locator : Locator} {a b : List Char}

/-- As many lines start at or before a place as reading up to it has started. -/
theorem lineAt_byteSize (h : locator.lines = Text.linesOf (a ++ b)) :
    locator.lineAt (Text.byteSize a) = (Position.first.after a b).line := by
  obtain ⟨early, late, hstarted⟩ := Text.exists_startedLines .first 0 a b
  have hearly : early.countP (·.start ≤ Text.byteSize a) = early.length := by
    refine List.countP_eq_length.2 fun line hline ↦ ?_
    have := hstarted.early_le line hline
    rw [Nat.zero_add] at this
    exact decide_eq_true this
  have hlate : late.countP (·.start ≤ Text.byteSize a) = 0 := by
    refine List.countP_eq_zero.2 fun line hline ↦ ?_
    have := hstarted.lt_late line hline
    rw [Nat.zero_add] at this
    simpa using this
  rw [lineAt, h, Text.linesOf, hstarted.lines, List.countP_cons_of_pos (by simp),
    List.countP_append, hearly, hlate, hstarted.line_eq]
  exact Nat.add_comm _ _

theorem exists_line (a b : List Char) : ∃ front back, a = front ++ back ∧
    (Text.linesOf (a ++ b)).getD ((Position.first.after a b).line - 1) ⟨0, []⟩ =
      ⟨Text.byteSize front, back ++ b⟩ ∧
    (Position.first.after a b).column = back.length := by
  obtain ⟨early, late, h⟩ := Text.exists_startedLines .first 0 a b
  have hline : (Position.first.after a b).line - 1 = early.length := by
    rw [h.line_eq]
    exact Nat.add_sub_cancel_left ..
  rw [hline, Text.linesOf, h.lines]
  -- It is the last line that has started, unless that is the first.
  rcases List.eq_nil_or_concat early with rfl | ⟨init, last, rfl⟩
  · refine ⟨[], a, rfl, rfl, ?_⟩
    rw [h.column_of_nil rfl]
    exact Nat.zero_add _
  · rw [List.concat_eq_append] at h ⊢
    obtain ⟨front, back, rfl, hlast, hcolumn⟩ := h.column_of_getLast last (by simp)
    rw [Nat.zero_add] at hlast
    refine ⟨front, back, rfl, ?_, hcolumn⟩
    rw [← hlast]
    simp

/-- From a place that is on the same line and not past it, a place is reached by counting on. -/
theorem column_add_distance {before after : List Char} (htext : a ++ b = before ++ after)
    (hline : (Position.first.after before after).line = (Position.first.after a b).line)
    (hle : Text.byteSize before ≤ Text.byteSize a) :
    (Position.first.after before after).column +
      ((Text.linesOf (a ++ b)).getD ((Position.first.after a b).line - 1) ⟨0, []⟩).distance
        (Text.byteSize before) (Text.byteSize a) = (Position.first.after a b).column := by
  obtain ⟨middle, rfl, rfl⟩ := Text.exists_eq_append_of_byteSize_le htext.symm hle
  obtain ⟨front, back, -, hstart, hcolumn⟩ := exists_line (before ++ middle) b
  obtain ⟨front', back', rfl, hstart', hcolumn'⟩ := exists_line before (middle ++ b)
  -- Both are on the same line, so the same stands before it.
  rw [hline, ← List.append_assoc, hstart] at hstart'
  obtain ⟨hfront, hback⟩ := Line.mk.inj hstart'
  have hback : back = back' ++ middle := by
    rw [← List.append_assoc] at hback
    exact List.append_cancel_right hback
  have hdistance := Line.distance_between (Text.byteSize front') back' middle b
  rw [← Text.byteSize_append, ← Text.byteSize_append, ← List.append_assoc, ← List.append_assoc,
    ← hback, ← hfront] at hdistance
  rw [hcolumn, hcolumn', hstart, hdistance, hback, List.length_append]

/-- A locator of a text whose last answer was right. -/
structure IsOf (locator : Locator) (text : List Char) : Prop where
  size_eq : locator.size = Text.byteSize text
  lines_eq : locator.lines = Text.linesOf text
  last_eq : ∃ before after, text = before ++ after ∧
    locator.last = ⟨Text.byteSize before, Position.first.after before after⟩

theorem isOf_of (text : List Char) : (Locator.of text).IsOf text where
  size_eq := rfl
  lines_eq := rfl
  last_eq := ⟨[], text, rfl, rfl⟩

theorem IsOf.min_size (h : locator.IsOf (a ++ b)) :
    min (Text.byteSize a) locator.size = Text.byteSize a := by
  rw [h.size_eq, Text.byteSize_append]
  exact Nat.min_eq_left (Nat.le_add_right _ _)

/-- A locator answers an offset between characters with the position that reading up to there leads
to, wherever it counts from. -/
theorem IsOf.position_eq (h : locator.IsOf (a ++ b)) :
    (locator.position (Text.byteSize a)).1 = Position.first.after a b := by
  obtain ⟨before, after, htext, hlast⟩ := h.last_eq
  obtain ⟨front, back, ha, hstart, hcolumn⟩ := exists_line a b
  rw [position]
  dsimp only
  rw [h.min_size, lineAt_byteSize h.lines_eq, h.lines_eq, countFrom, hlast]
  ext
  · rfl
  · dsimp only
    split
    · rename_i hknown
      exact column_add_distance htext hknown.1 hknown.2
    · have hdistance := Line.distance_between (Text.byteSize front) [] back b
      rw [hstart, hcolumn, ha, Text.byteSize_append, Nat.zero_add]
      exact hdistance

theorem position_byteSize (a b : List Char) :
    ((Locator.of (a ++ b)).position (Text.byteSize a)).1 = Position.first.after a b :=
  (isOf_of (a ++ b)).position_eq

end Locator

/-! ## Sources -/

namespace Shift

/-- Where a text that covers this distance leads from a position. -/
def applyTo (shift : Shift) (p : Position) : Position :=
  ⟨p.line + shift.lines, (if shift.lines = 0 then p.column else 0) + shift.characters⟩

theorem applyTo_past (shift : Shift) (p : Position) (text : List Char) {rest : List Char}
    (hrest : rest.head? ≠ some '\n') :
    (shift.past text).applyTo p = (shift.applyTo p).after text rest := by
  fun_induction Shift.past shift text with
  | case1 shift => rfl
  | case2 shift tail ih =>
    rw [ih, Position.after_cons, Position.after_cons, List.cons_append,
      Position.past_carriageReturn, Position.past_lineFeed]
    simp [applyTo, Nat.add_assoc]
  | case3 shift c tail hpair hend ih =>
    have hc : c = '\n' ∨ c = '\r' := by simpa [Text.isLineEnd] using hend
    rw [ih, Position.after_cons, Position.past_of_lineEnd]
    · simp [applyTo, Nat.add_assoc]
    · refine hc.imp id fun hr ↦ ⟨hr, ?_⟩
      cases tail with
      | nil => exact hrest
      | cons d tail => exact fun hd ↦ hpair tail hr (by simpa using hd)
  | case4 shift c tail hpair hend ih =>
    rw [ih, Position.after_cons, Position.past_of_not_isLineEnd _ (Bool.not_eq_true _ ▸ hend)]
    simp [applyTo, Nat.add_assoc]

end Shift

namespace Source

/-- What stands before the body in the file. -/
def lead (source : Source) : List Char :=
  (if source.marked then [Text.byteOrderMark] else []) ++ source.preamble

theorem lead_append_body (uri : String) (charset : Charset) (text : List Char) :
    (ofChars uri charset text).lead ++ (ofChars uri charset text).body = text := by
  rw [lead, ofChars, List.append_assoc, splitPreamble_append]
  cases text with
  | nil => rfl
  | cons c text =>
    by_cases hc : c = Text.byteOrderMark
    · simp [hc]
    · simp [hc]

theorem startsDeclaration_iff {text : List Char} : startsDeclaration text = true ↔
    ∃ c rest, text = "<?xml".toList ++ c :: rest ∧ (Text.isAsciiBlank c = true ∨ c = '?') := by
  unfold startsDeclaration
  constructor
  · intro h
    split at h
    · rename_i c rest hstrip
      exact ⟨c, rest, Text.stripStart?_eq_some_iff.1 hstrip, by simpa using h⟩
    · cases h
  · rintro ⟨c, rest, htext, hc⟩
    rw [Text.stripStart?_eq_some_iff.2 htext]
    simpa using hc

theorem head?_of_startsDeclaration {text : List Char} (h : startsDeclaration text = true) :
    text.head? = some '<' := by
  obtain ⟨c, rest, rfl, -⟩ := startsDeclaration_iff.1 h
  rfl

/-- Only a declaration follows a preamble. -/
theorem head?_body_of_splitPreamble {content : List Char} (h : (splitPreamble content).1 ≠ []) :
    (splitPreamble content).2.head? = some '<' := by
  unfold splitPreamble at h ⊢
  dsimp only at h ⊢
  by_cases hstart : startsDeclaration (content.dropWhile (· != '<'))
  · rw [if_pos hstart]
    exact head?_of_startsDeclaration hstart
  · rw [if_neg hstart] at h
    exact absurd rfl h

/-- The distance of the preamble leads from where it starts to the body. -/
theorem applyTo_shift (uri : String) (charset : Charset) (text : List Char) (p : Position) :
    (ofChars uri charset text).shift.applyTo p =
      p.after (ofChars uri charset text).preamble (ofChars uri charset text).body := by
  have hzero : Shift.zero.applyTo p = p := rfl
  by_cases hpreamble : (ofChars uri charset text).preamble = []
  · rw [shift, hpreamble]
    exact hzero
  · have hbody := head?_body_of_splitPreamble hpreamble
    have hrest : (ofChars uri charset text).body.head? ≠ some '\n' := by
      rw [show (ofChars uri charset text).body.head? = some '<' from hbody]
      decide
    rw [shift, Shift.of, Shift.applyTo_past .zero p _ hrest, hzero]

/-- The body of a file starts where its lead ends. -/
theorem toFile_first (uri : String) (charset : Charset) (text : List Char) :
    (ofChars uri charset text).toFile .first =
      Position.first.after (ofChars uri charset text).lead (ofChars uri charset text).body := by
  have hshift := applyTo_shift uri charset text
  set source := ofChars uri charset text
  rw [lead, Position.after_append, ← hshift]
  by_cases hmarked : source.marked
  · have hmark : Position.first.past Text.byteOrderMark (source.preamble ++ source.body) =
        ⟨1, 1⟩ := Position.past_of_not_lineEnd _ (by simp [Text.byteOrderMark])
    rw [if_pos hmarked, Position.after_cons, List.nil_append, hmark, Position.after_nil]
    simp only [toFile, Shift.applyTo, firstColumn, hmarked, Position.first]
    by_cases hlines : source.shift.lines = 0
    · simp [hlines, Nat.add_comm]
    · simp [hlines]
  · rw [if_neg hmarked, Position.after_nil]
    simp [toFile, Shift.applyTo, firstColumn, hmarked, Position.first]

private theorem toFile_past (source : Source) {p : Position} (hp : 0 < p.line) (c : Char)
    (rest : List Char) : source.toFile (p.past c rest) = (source.toFile p).past c rest := by
  by_cases hend : c = '\n' ∨ c = '\r' ∧ rest.head? ≠ some '\n'
  · rw [Position.past_of_lineEnd _ hend, Position.past_of_lineEnd _ hend]
    have hline : ¬ p.line + 1 = 1 := by omega
    simp only [toFile, if_neg hline]
    split <;> simp only [Nat.add_right_comm]
  · rw [Position.past_of_not_lineEnd _ hend, Position.past_of_not_lineEnd _ hend]
    simp only [toFile]
    split <;> simp only [Nat.add_right_comm]

theorem toFile_after (source : Source) {p : Position} (hp : 0 < p.line) (text rest : List Char) :
    source.toFile (p.after text rest) = (source.toFile p).after text rest := by
  induction text generalizing p with
  | nil => rfl
  | cons c text ih =>
    have hline : 0 < (p.past c (text ++ rest)).line := by
      unfold Position.past
      split
      · exact Nat.succ_pos _
      · exact hp
    rw [Position.after_cons, Position.after_cons, ih hline, toFile_past source hp]

/-- An offset of the body that falls between characters is placed where reading the whole file up
to there leads. -/
theorem placeOf_byteSize {uri : String} {charset : Charset} {text a b : List Char}
    (hbody : (ofChars uri charset text).body = a ++ b) :
    (ofChars uri charset text).placeOf (Locator.of (ofChars uri charset text).body)
        (Text.byteSize a) =
      Position.first.after ((ofChars uri charset text).lead ++ a) b := by
  rw [placeOf, hbody, Locator.position_byteSize, toFile_after _ (p := .first) Nat.one_pos,
    toFile_first, hbody, Position.after_append]

end Source

/-! ## Stretches of a text -/

namespace Text

/-- Between two offsets of a text stand these characters. -/
def Stands (text : List Char) (start stop : Nat) (chars : List Char) : Prop :=
  ∃ before after, text = before ++ chars ++ after ∧ start = byteSize before ∧
    stop = start + byteSize chars

/-- An offset divides a text in only one way. -/
theorem append_inj_of_byteSize {a b a' b' : List Char} (h : a ++ b = a' ++ b')
    (hsize : byteSize a = byteSize a') : a = a' ∧ b = b' := by
  have hdrop : some b = some b' := by
    rw [← dropBytes?_byteSize_append a b, ← dropBytes?_byteSize_append a' b', h, hsize]
  cases hdrop
  exact ⟨List.append_cancel_right h, rfl⟩

namespace Stands

variable {text chars x y before after : List Char} {i j k : Nat}

theorem mk (before chars after : List Char) :
    Stands (before ++ chars ++ after) (byteSize before) (byteSize before + byteSize chars) chars :=
  ⟨before, after, rfl, rfl, rfl⟩

theorem stop_eq (h : Stands text i j chars) : j = i + byteSize chars := by
  obtain ⟨_, _, _, _, hstop⟩ := h
  exact hstop

theorem left (h : Stands text i j (x ++ y)) : Stands text i (i + byteSize x) x := by
  obtain ⟨before, after, htext, hstart, -⟩ := h
  exact ⟨before, y ++ after, by rw [htext]; simp, hstart, rfl⟩

theorem right (h : Stands text i j (x ++ y)) : Stands text (i + byteSize x) j y := by
  obtain ⟨before, after, htext, hstart, hstop⟩ := h
  refine ⟨before ++ x, after, by rw [htext]; simp, ?_, ?_⟩
  · rw [hstart, byteSize_append]
  · rw [hstop, byteSize_append, Nat.add_assoc]

theorem append (hx : Stands text i j x) (hy : Stands text j k y) : Stands text i k (x ++ y) := by
  obtain ⟨b, a, htext, hb, hstop⟩ := hx
  obtain ⟨b', a', htext', hb', hstop'⟩ := hy
  have hsize : byteSize (b ++ x) = byteSize b' := by
    rw [byteSize_append]
    omega
  rw [htext, List.append_assoc b'] at htext'
  obtain ⟨-, rfl⟩ := append_inj_of_byteSize htext' hsize
  refine ⟨b, a', by rw [htext]; simp, hb, ?_⟩
  rw [byteSize_append]
  omega

end Stands

/-- An offset falls between two characters of a text. -/
def Divides (text : List Char) (i : Nat) : Prop :=
  ∃ before after, text = before ++ after ∧ i = byteSize before

theorem Stands.divides {text chars : List Char} {i j : Nat} (h : Stands text i j chars) :
    Divides text i ∧ Divides text j := by
  obtain ⟨before, after, htext, hi, hj⟩ := h
  refine ⟨⟨before, chars ++ after, by rw [htext, List.append_assoc], hi⟩,
    before ++ chars, after, htext, ?_⟩
  rw [byteSize_append, hj, hi]

theorem Divides.le {text : List Char} {i : Nat} (h : Divides text i) : i ≤ byteSize text := by
  obtain ⟨before, after, rfl, rfl⟩ := h
  rw [byteSize_append]
  exact Nat.le_add_right _ _

/-- Something stands between any two such offsets. -/
theorem Divides.exists_stands {text : List Char} {i j : Nat} (hi : Divides text i)
    (hj : Divides text j) (hle : i ≤ j) : ∃ chars, Stands text i j chars := by
  obtain ⟨before, after, rfl, rfl⟩ := hi
  obtain ⟨before', after', htext, rfl⟩ := hj
  obtain ⟨chars, rfl, rfl⟩ := exists_eq_append_of_byteSize_le htext hle
  exact ⟨chars, before, after', by rw [List.append_assoc], rfl, byteSize_append _ _⟩

end Text

namespace Source

variable {uri : String} {charset : Charset} {text chars : List Char} {i j : Nat}

/-- The place in the file of an offset in the body of a source. -/
def positionAt (source : Source) (offset : Nat) : Position :=
  source.placeOf (Locator.of source.body) offset

theorem positionAt_zero (uri : String) (charset : Charset) (text : List Char) :
    (ofChars uri charset text).positionAt 0 =
      Position.first.after (ofChars uri charset text).lead (ofChars uri charset text).body := by
  have hplace := placeOf_byteSize (List.nil_append (ofChars uri charset text).body).symm
  rw [List.append_nil] at hplace
  exact hplace

theorem positionAt_byteSize_body (uri : String) (charset : Charset) (text : List Char) :
    (ofChars uri charset text).positionAt (Text.byteSize (ofChars uri charset text).body) =
      Position.first.after text [] := by
  have hplace := placeOf_byteSize (List.append_nil (ofChars uri charset text).body).symm
  rw [lead_append_body] at hplace
  exact hplace

/-- What stands between two offsets of the body stands between their places in the file. -/
theorem exists_positionAt_eq (h : Text.Stands (ofChars uri charset text).body i j chars) :
    ∃ front after, text = front ++ chars ++ after ∧
      (ofChars uri charset text).positionAt i = Position.first.after front (chars ++ after) ∧
      (ofChars uri charset text).positionAt j = Position.first.after (front ++ chars) after := by
  have htext := lead_append_body uri charset text
  obtain ⟨before, after, hbody, hi, hj⟩ := h
  have hstart := placeOf_byteSize (a := before) (b := chars ++ after) (by rw [hbody]; simp)
  have hstop := placeOf_byteSize (a := before ++ chars) (b := after) hbody
  refine ⟨(ofChars uri charset text).lead ++ before, after, ?_, ?_, ?_⟩
  · refine htext.symm.trans ?_
    rw [hbody]
    simp
  · rw [positionAt, hi, hstart]
  · rw [positionAt, hj, hi, ← Text.byteSize_append, hstop, List.append_assoc]

theorem between_positionAt (h : Text.Stands (ofChars uri charset text).body i j chars) :
    Text.between text ((ofChars uri charset text).positionAt i)
      ((ofChars uri charset text).positionAt j) = chars := by
  obtain ⟨front, after, htext, hi, hj⟩ := exists_positionAt_eq h
  rw [hi, hj, htext]
  exact Text.between_after front chars after

theorem positionAt_le (h : Text.Stands (ofChars uri charset text).body i j chars) :
    (ofChars uri charset text).positionAt i ≤ (ofChars uri charset text).positionAt j := by
  obtain ⟨front, after, -, hi, hj⟩ := exists_positionAt_eq h
  rw [hi, hj, Position.after_append]
  exact Position.le_after _ _ _

theorem positionAt_mono (hi : Text.Divides (ofChars uri charset text).body i)
    (hj : Text.Divides (ofChars uri charset text).body j) (hle : i ≤ j) :
    (ofChars uri charset text).positionAt i ≤ (ofChars uri charset text).positionAt j := by
  obtain ⟨chars, hchars⟩ := hi.exists_stands hj hle
  exact positionAt_le hchars

end Source

end XmlInspect
