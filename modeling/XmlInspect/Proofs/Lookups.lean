import XmlInspect.Proofs.Coordinates

/-!
# Lookups in a row

A locator remembers its last answer and counts on from there when the next offset is on the same
line and not before it. Whoever asks should not notice. Here the position of an offset is defined by
counting in the text as a whole: the line terminators that end at or before the offset, and the
characters since the last of them. However many offsets have been asked for, and in whatever order,
each is answered by this count, as long as they fall between characters or beyond the end.

What carries over from one lookup to the next is that the remembered answer is right. If it is on
the line of the next offset, then both have the same last terminator before them, and what stands
between them is the difference of their columns.
-/

namespace XmlInspect

/-! ## Counting up to an offset -/

namespace Text

variable {text front rest : List Char} {c : Char} {k n : Nat}

/-- The offset at which the character of this number starts. -/
def offsetOf (text : List Char) (k : Nat) : Nat := byteSize (text.take k)

/-- The offsets at which the line terminators of a text end, in ascending order. -/
def lineEnds (text : List Char) : List Nat :=
  ((List.range text.length).filter (endsLineAt text)).map fun k ↦ offsetOf text (k + 1)

/-- The line terminators that end at or before an offset. -/
def lineEndsUpTo (text : List Char) (offset : Nat) : List Nat :=
  (lineEnds text).filter (· ≤ offset)

/-- Where the line of an offset starts: where the last terminator ends, if there is one. -/
def startOfLine (text : List Char) (offset : Nat) : Nat :=
  (lineEndsUpTo text offset).getLast?.getD 0

/-- The position of an offset. Its line is one more than the number of terminators that end at or
before it. Its column is the number of characters that start before it, but not before its line. -/
def counted (text : List Char) (offset : Nat) : Position where
  line := (lineEndsUpTo text offset).length + 1
  column := (List.range text.length).countP fun k ↦
    offsetOf text k < offset && startOfLine text offset ≤ offsetOf text k

private theorem offsetOf_append (front rest : List Char) :
    offsetOf (front ++ rest) front.length = byteSize front := by
  rw [offsetOf, List.take_left]

theorem offsetOf_lt_offsetOf {m : Nat} (hk : k < m) (hm : m ≤ text.length) :
    offsetOf text k < offsetOf text m := by
  have htake : text.take m = text.take k ++ (text.drop k).take (m - k) := by
    rw [← List.take_add, Nat.add_sub_cancel' hk.le]
  have hne : (text.drop k).take (m - k) ≠ [] := by
    rw [← List.length_pos_iff, List.length_take, List.length_drop]
    omega
  have hsize : byteSize ((text.drop k).take (m - k)) ≠ 0 := mt byteSize_eq_zero_iff.1 hne
  rw [offsetOf, offsetOf, htake, byteSize_append]
  omega

theorem offsetOf_lt_iff {m : Nat} (hk : k ≤ text.length) (hm : m ≤ text.length) :
    offsetOf text k < offsetOf text m ↔ k < m := by
  constructor
  · intro hlt
    by_contra hle
    rcases Nat.eq_or_lt_of_le (Nat.le_of_not_lt hle) with rfl | hgt
    · exact Nat.lt_irrefl _ hlt
    · exact Nat.lt_asymm hlt (offsetOf_lt_offsetOf hgt hk)
  · exact fun hlt ↦ offsetOf_lt_offsetOf hlt hm

private theorem startOfLine_le (text : List Char) (offset : Nat) :
    startOfLine text offset ≤ offset := by
  rw [startOfLine]
  cases hlast : (lineEndsUpTo text offset).getLast? with
  | none => exact Nat.zero_le offset
  | some stop => exact of_decide_eq_true (List.mem_filter.1 (List.mem_of_getLast? hlast)).2

theorem filter_range_lt {p : Nat → Bool} (hk : k ≤ n) :
    ((List.range n).filter fun i ↦ i < k && p i) = (List.range k).filter p := by
  obtain ⟨m, rfl⟩ := Nat.exists_eq_add_of_le hk
  rw [List.range_add, List.filter_append, List.filter_map]
  have hlater : ((fun i ↦ decide (i < k) && p i) ∘ fun i ↦ k + i) = fun _ ↦ false := by
    funext i
    simp [Nat.not_lt.2 (Nat.le_add_right k i)]
  have hearlier : ∀ i ∈ List.range k, (decide (i < k) && p i) = p i := by
    intro i hi
    simp [List.mem_range.1 hi]
  rw [hlater, List.filter_congr hearlier]
  simp

theorem lineEndsUpTo_offsetOf (hk : k ≤ text.length) :
    lineEndsUpTo text (offsetOf text k) =
      ((List.range k).filter (endsLineAt text)).map fun i ↦ offsetOf text (i + 1) := by
  rw [lineEndsUpTo, lineEnds, List.filter_map, List.filter_filter, ← filter_range_lt hk]
  congr 1
  refine List.filter_congr fun i hi ↦ ?_
  have hi : i + 1 ≤ text.length := List.mem_range.1 hi
  have hle : offsetOf text (i + 1) ≤ offsetOf text k ↔ i < k := by
    rw [← Nat.not_lt, offsetOf_lt_iff hk hi]
    omega
  simp only [Function.comp_apply, hle]

theorem column_counted_offsetOf (hk : k ≤ text.length) :
    (counted text (offsetOf text k)).column = (List.range k).countP fun i ↦
      startOfLine text (offsetOf text k) ≤ offsetOf text i := by
  rw [counted, List.countP_eq_length_filter, List.countP_eq_length_filter, ← filter_range_lt hk]
  dsimp only
  congr 1
  refine List.filter_congr fun i hi ↦ ?_
  simp only [offsetOf_lt_iff (List.mem_range.1 hi).le hk]

private theorem counted_offsetOf_succ (h : text.drop k = c :: rest) :
    counted text (offsetOf text (k + 1)) = (counted text (offsetOf text k)).past c rest := by
  have hk : k < text.length := by
    rw [← Nat.not_le, ← List.drop_eq_nil_iff, h]
    exact List.cons_ne_nil c rest
  have hlast : endsLineAt text k = endsLine (c :: rest) := by rw [endsLineAt, h]
  have hends := lineEndsUpTo_offsetOf hk
  rw [List.range_succ, List.filter_append, List.map_append, ← lineEndsUpTo_offsetOf hk.le] at hends
  by_cases hend : endsLine (c :: rest) = true
  · -- Every character up to here starts before the terminator ends.
    have hsingle : [k].filter (endsLineAt text) = [k] := by simp [hlast, hend]
    rw [hsingle] at hends
    have hstart : startOfLine text (offsetOf text (k + 1)) = offsetOf text (k + 1) := by
      rw [startOfLine, hends, List.map_singleton, List.getLast?_concat, Option.getD_some]
    rw [Position.past_of_lineEnd _ (endsLine_cons_iff.1 hend)]
    ext
    · simp [counted, hends]
    · rw [column_counted_offsetOf hk, hstart]
      refine List.countP_eq_zero.2 fun i hi ↦ ?_
      have hi : i < k + 1 := List.mem_range.1 hi
      simpa using offsetOf_lt_offsetOf hi hk
  · have hnone : [k].filter (endsLineAt text) = [] := by simp [hlast, hend]
    rw [hnone, List.map_nil, List.append_nil] at hends
    have hstart :
        startOfLine text (offsetOf text (k + 1)) = startOfLine text (offsetOf text k) := by
      rw [startOfLine, hends, startOfLine]
    rw [Position.past_of_not_lineEnd _ (mt endsLine_cons_iff.2 hend)]
    ext
    · simp [counted, hends]
    · rw [column_counted_offsetOf hk, hstart, column_counted_offsetOf hk.le, List.range_succ,
        List.countP_append, List.countP_singleton, if_pos (by simpa using startOfLine_le _ _)]

/-- Reading up to an offset leads to the position that counting gives it. -/
theorem after_eq_counted (front rest : List Char) :
    Position.first.after front rest = counted (front ++ rest) (byteSize front) := by
  induction front using List.reverseRecOn generalizing rest with
  | nil =>
    have hends : lineEndsUpTo rest (offsetOf rest 0) = [] := lineEndsUpTo_offsetOf (Nat.zero_le _)
    ext
    · exact congrArg (·.length + 1) hends.symm
    · exact (column_counted_offsetOf (Nat.zero_le _)).symm
  | append_singleton front c ih =>
    have hdrop : (front ++ c :: rest).drop front.length = c :: rest := List.drop_left
    have hsucc : offsetOf (front ++ c :: rest) (front.length + 1) = byteSize (front ++ [c]) := by
      rw [← offsetOf_append (front ++ [c]) rest, List.append_assoc, List.length_append]
      rfl
    have hstep := counted_offsetOf_succ hdrop
    rw [hsucc, offsetOf_append, ← ih] at hstep
    rw [Position.after_append, List.append_assoc]
    exact hstep.symm

private theorem isSome_dropBytes?_iff {text : List Char} {offset : Nat} :
    (dropBytes? offset text).isSome ↔ Divides text offset := by
  constructor
  · intro h
    fun_induction dropBytes? offset text with
    | case1 text => exact ⟨[], text, rfl, rfl⟩
    | case2 => cases h
    | case3 n c rest hle ih =>
      obtain ⟨before, after, rfl, hsize⟩ := ih h
      refine ⟨c :: before, after, rfl, ?_⟩
      rw [byteSize_cons, ← hsize]
      omega
    | case4 => cases h
  · rintro ⟨before, after, rfl, rfl⟩
    rw [dropBytes?_byteSize_append]
    rfl

instance (text : List Char) (offset : Nat) : Decidable (Divides text offset) :=
  decidable_of_iff _ isSome_dropBytes?_iff

end Text

/-! ## One lookup after the other -/

namespace Locator

variable {locator : Locator} {text a b : List Char}

/-- After a lookup the locator remembers an answer that is right. -/
theorem IsOf.of_position (h : locator.IsOf (a ++ b)) :
    (locator.position (Text.byteSize a)).2.IsOf (a ++ b) where
  size_eq := h.size_eq
  lines_eq := h.lines_eq
  last_eq := by
    refine ⟨a, b, rfl, ?_⟩
    rw [← h.position_eq]
    simp only [position, h.min_size]

/-- An offset beyond the end is taken for the end. -/
theorem position_min (locator : Locator) (offset : Nat) :
    locator.position (min offset locator.size) = locator.position offset := by
  rw [position, position, Nat.min_assoc, Nat.min_self]

theorem IsOf.lookup (h : locator.IsOf text) {offset : Nat}
    (hoffset : Text.Divides text offset ∨ Text.byteSize text < offset) :
    (locator.position offset).1 = Text.counted text (min offset (Text.byteSize text)) ∧
      (locator.position offset).2.IsOf text := by
  obtain ⟨before, after, rfl, hsize⟩ : Text.Divides text (min offset (Text.byteSize text)) := by
    rcases hoffset with hdivides | hbeyond
    · rw [Nat.min_eq_left hdivides.le]
      exact hdivides
    · rw [Nat.min_eq_right hbeyond.le]
      exact ⟨text, [], (List.append_nil text).symm, rfl⟩
  rw [← position_min, h.size_eq, hsize, ← Text.after_eq_counted]
  exact ⟨h.position_eq, h.of_position⟩

theorem IsOf.positions_eq (h : locator.IsOf text) {offsets : List Nat}
    (hoffsets : ∀ offset ∈ offsets, Text.Divides text offset ∨ Text.byteSize text < offset) :
    locator.positions offsets =
      offsets.map fun offset ↦ Text.counted text (min offset (Text.byteSize text)) := by
  induction offsets generalizing locator with
  | nil => rfl
  | cons offset offsets ih =>
    obtain ⟨hoffset, hoffsets⟩ := List.forall_mem_cons.1 hoffsets
    obtain ⟨hposition, hnext⟩ := h.lookup hoffset
    rw [positions, List.map_cons, ← hposition, ← ih hnext hoffsets]

/-- Offsets that fall between characters or beyond the end are each given the position that counting
gives them, with the end for what is beyond it. So each is answered as a locator answers it that has
been asked nothing before. -/
theorem positions_eq_map (text : List Char) {offsets : List Nat}
    (h : ∀ offset ∈ offsets, Text.Divides text offset ∨ Text.byteSize text < offset) :
    (Locator.of text).positions offsets =
        offsets.map (fun offset ↦ Text.counted text (min offset (Text.byteSize text))) ∧
      (Locator.of text).positions offsets =
        offsets.map fun offset ↦ ((Locator.of text).position offset).1 := by
  have hcounted := (isOf_of text).positions_eq h
  refine ⟨hcounted, hcounted.trans (List.map_congr_left fun offset hoffset ↦ ?_)⟩
  exact ((isOf_of text).lookup (h offset hoffset)).1.symm

/-- Forward on a line, backward on it, between the two characters of a terminator, across lines, and
beyond the end. -/
theorem positions_eq_map_jumping :
    let text := "ab\r\ncéd\re".toList
    let offsets := [7, 8, 5, 3, 4, 99, 2, 0]
    (∀ offset ∈ offsets, Text.Divides text offset ∨ Text.byteSize text < offset) ∧
      (Locator.of text).positions offsets =
        [⟨2, 2⟩, ⟨2, 3⟩, ⟨2, 1⟩, ⟨1, 3⟩, ⟨2, 0⟩, ⟨3, 1⟩, ⟨1, 2⟩, ⟨1, 0⟩] := by
  intro text offsets
  have hoffsets : ∀ offset ∈ offsets,
      Text.Divides text offset ∨ Text.byteSize text < offset := by decide +kernel
  refine ⟨hoffsets, (positions_eq_map text hoffsets).1.trans ?_⟩
  decide +kernel

end Locator

end XmlInspect
