import XmlInspect.Proofs.FaultLines

/-!
# Three readings by lines

The rule for line terminators is followed in three places. A text is split into lines, for checks
that look at lines. It is given a table of line starts, for checks that look at the tree. And the
distance that a preamble covers is counted, by which positions in the body are moved into the file.
Issues of all checks are put side by side in one report, so the three have to agree.

They are held against each other by what reading from left to right says of a place. Positions
reached by reading only grow, so a position belongs to one place of the text, and a character that
is found at the right position is the right character.
-/

namespace XmlInspect

/-! ## Positions and places -/

namespace Position

variable {a b a' b' front rest : List Char}

private theorem after_ne_after_append (p : Position) {middle : List Char} (h : middle ≠ []) :
    p.after a (middle ++ b) ≠ p.after (a ++ middle) b := by
  intro heq
  have hlt := (p.after a (middle ++ b)).lt_after b h
  rw [← after_append, ← heq] at hlt
  exact lt_irrefl _ hlt

theorem after_injective (p : Position) (htext : a ++ b = a' ++ b')
    (h : p.after a b = p.after a' b') : a = a' ∧ b = b' := by
  rcases List.append_eq_append_iff.1 htext with ⟨middle, rfl, rfl⟩ | ⟨middle, rfl, rfl⟩
  · by_cases hmiddle : middle = []
    · simp [hmiddle]
    · exact absurd h (p.after_ne_after_append hmiddle)
  · by_cases hmiddle : middle = []
    · simp [hmiddle]
    · exact absurd h.symm (p.after_ne_after_append hmiddle)

/-- What follows a character does not matter to the position after it, unless the two make one
terminator. -/
theorem past_eq_past_nil (p : Position) {c : Char} (h : c = '\r' → rest.head? ≠ some '\n') :
    p.past c rest = p.past c [] := by
  have hends : (c = '\n' ∨ c = '\r' ∧ rest.head? ≠ some '\n') ↔
      c = '\n' ∨ c = '\r' ∧ ([] : List Char).head? ≠ some '\n' :=
    or_congr_right ⟨fun hc ↦ ⟨hc.1, by simp⟩, fun hc ↦ ⟨hc.1, h hc.1⟩⟩
  simp only [past, hends]

private theorem after_eq_after_nil (p : Position)
    (h : ¬ (front.getLast? = some '\r' ∧ rest.head? = some '\n')) :
    p.after front rest = p.after front [] := by
  induction front generalizing p with
  | nil => rfl
  | cons c front ih =>
    cases front with
    | nil => exact p.past_eq_past_nil fun hc hrest ↦ h ⟨by rw [hc]; rfl, hrest⟩
    | cons d front =>
      rw [List.getLast?_cons_cons] at h
      exact ih (p.past c (d :: (front ++ rest))) h

end Position

namespace Shift

private theorem applyTo_first (shift : Shift) :
    shift.applyTo .first = ⟨shift.lines + 1, shift.characters⟩ := by
  simp [applyTo, Position.first, Nat.add_comm]

private theorem of_applyTo_first (text : List Char) :
    (Shift.of text).applyTo .first = Position.first.after text [] := by
  have hnil : ([] : List Char).head? ≠ some '\n' := by simp
  rw [of, applyTo_past zero .first text hnil]
  rfl

end Shift

namespace Text

variable {text front rest chars : List Char} {c : Char}

private theorem lineStart_first (i : Nat) : lineStart .first i = ⟨i + 1, 0⟩ := by
  cases i with
  | zero => rfl
  | succ i =>
    rw [lineStart, Position.first]
    simp [Nat.add_comm]

private theorem length_splitLines_eq_lineCount (text : List Char) :
    (splitLines text).length = (Locator.of text).lineCount := by
  rw [length_splitLines, Locator.lineCount, Locator.of, linesOf, List.length_cons,
    length_laterLines]

private theorem not_mem_of_mem_splitLines (h : chars ∈ splitLines text) :
    '\n' ∉ chars ∧ '\r' ∉ chars := by
  obtain ⟨i, hi⟩ := List.mem_iff_getElem?.1 h
  obtain ⟨-, -, -, -, hplain, -⟩ := isLine_of_getElem?_splitLines .first hi
  rw [List.any_eq_false] at hplain
  exact ⟨fun hmem ↦ hplain _ hmem rfl, fun hmem ↦ hplain _ hmem rfl⟩

/-- A character that is no part of a terminator stands where the lines say. -/
theorem exists_line_of_position (htext : text = front ++ c :: rest) (hc : isLineEnd c = false) :
    ∃ i lead back ahead after, front = lead ++ back ∧ rest = ahead ++ after ∧
      (splitLines text)[i]? = some (back ++ c :: ahead) ∧
      Position.first.after lead (back ++ c :: rest) = ⟨i + 1, 0⟩ ∧
      Position.first.after front (c :: rest) = ⟨i + 1, back.length⟩ := by
  subst htext
  obtain ⟨i, j, chars, hchars, hj, hafter⟩ := @exists_line_of_append .first front rest c hc
  obtain ⟨lead, after, htext, -, hplain, hstart⟩ := isLine_of_getElem?_splitLines .first hchars
  obtain ⟨back, ahead, rfl, rfl⟩ := exists_append_of_getElem? hj
  rw [lineStart_first, Nat.zero_add] at hafter
  rw [List.append_assoc, List.cons_append, lineStart_first] at hstart
  rw [List.any_append, Bool.or_eq_false_iff] at hplain
  have hplace : Position.first.after (lead ++ back) (c :: (ahead ++ after)) =
      ⟨i + 1, back.length⟩ := by
    rw [Position.after_append, hstart, after_of_not_any _ _ hplain.1, Nat.zero_add]
  have hsplit : front ++ c :: rest = lead ++ back ++ c :: (ahead ++ after) := by
    rw [htext]
    simp
  -- The character in the line is this one, since it has the same position.
  obtain ⟨rfl, hrest⟩ := Position.first.after_injective hsplit (hafter.trans hplace.symm)
  obtain ⟨-, rfl⟩ := List.cons.inj hrest
  exact ⟨i, lead, back, ahead, after, rfl, rfl, hchars, hstart, hafter⟩

/-- The three readings of a text by lines agree. -/
structure ReadAlike (text : List Char) : Prop where
  /-- There are as many lines as line starts. -/
  length_eq : (splitLines text).length = (Locator.of text).lineCount
  /-- Lines hold no terminators. -/
  not_mem : ∀ chars ∈ splitLines text, '\n' ∉ chars ∧ '\r' ∉ chars
  /-- Any other character is in the line of its position, which starts where its column is counted
  from, and has as many characters before it there as its column says. -/
  line : ∀ front c rest, text = front ++ c :: rest → c ≠ '\n' → c ≠ '\r' →
    ∃ i lead back ahead after, front = lead ++ back ∧ rest = ahead ++ after ∧
      (splitLines text)[i]? = some (back ++ c :: ahead) ∧
      ((Locator.of text).position (byteSize lead)).1 = ⟨i + 1, 0⟩ ∧
      ((Locator.of text).position (byteSize front)).1 = ⟨i + 1, back.length⟩
  /-- The distance that the front of the text covers leads to the position after it, if it does not
  end inside a terminator. -/
  shift : ∀ front rest, text = front ++ rest →
    ¬ (front.getLast? = some '\r' ∧ rest.head? = some '\n') →
    ((Locator.of text).position (byteSize front)).1 =
      ⟨(Shift.of front).lines + 1, (Shift.of front).characters⟩

/-- However a text mixes its terminators, its lines, its line starts and the distances that its
fronts cover tell the same about it. -/
theorem readAlike (text : List Char) : ReadAlike text where
  length_eq := length_splitLines_eq_lineCount text
  not_mem _ := not_mem_of_mem_splitLines
  line front c rest htext hfeed hreturn := by
    obtain ⟨i, lead, back, ahead, after, hfront, hrest, hline, hstart, hplace⟩ :=
      exists_line_of_position htext (by simp [isLineEnd, hfeed, hreturn])
    refine ⟨i, lead, back, ahead, after, hfront, hrest, hline, ?_, ?_⟩
    · have hlead : text = lead ++ (back ++ c :: rest) := by rw [htext, hfront, List.append_assoc]
      rw [hlead, Locator.position_byteSize, hstart]
    · rw [htext, Locator.position_byteSize, hplace]
  shift front rest htext hwhole := by
    rw [htext, Locator.position_byteSize, Position.first.after_eq_after_nil hwhole,
      ← Shift.of_applyTo_first, Shift.applyTo_first]

/-- Inside a terminator, a distance is counted as if the line had ended there. -/
example : ((Locator.of "a\r\nb".toList).position 2).1 = ⟨1, 2⟩ ∧
    Shift.of "a\r".toList = ⟨1, 0⟩ := by decide

end Text

end XmlInspect
