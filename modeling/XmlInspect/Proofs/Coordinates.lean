import XmlInspect.Proofs.Preamble

/-!
# Coordinates in the file

Whoever opens a file in an editor counts lines and columns from its very first character, the
byte-order mark included. Here these coordinates are defined by counting alone. The line of a
character is one more than the number of line terminators that end before it, and its column is the
number of characters since the last of them. Nothing is read from left to right, and nothing is
known of bodies, preambles or marks.

The coordinates that a source gives are put together from three parts instead: a line table of the
body, the distance of the preamble, which moves columns on the first line of the body only, and the
column of the mark, which counts on the first line of the file only. Both ways of counting agree.
-/

namespace XmlInspect

/-! ## Counting -/

namespace Text

/-- Whether a line terminator ends with the character of this number. -/
def endsLineAt (text : List Char) (i : Nat) : Bool := endsLine (text.drop i)

/-- The coordinates of the place before the character of this number. -/
def coordinates (text : List Char) (k : Nat) : Position where
  line := (List.range k).countP (endsLineAt text) + 1
  column := ((List.range k).rtakeWhile (!endsLineAt text ·)).length

theorem endsLine_cons_iff {c : Char} {rest : List Char} :
    endsLine (c :: rest) = true ↔ c = '\n' ∨ c = '\r' ∧ rest.head? ≠ some '\n' := by
  by_cases hpair : c = '\r' ∧ rest.head? = some '\n'
  · obtain ⟨rfl, hhead⟩ := hpair
    obtain ⟨tail, rfl⟩ := List.head?_eq_some_iff.1 hhead
    simp [endsLine]
  · have hends : endsLine (c :: rest) = isLineEnd c := by
      refine endsLine.eq_3 c rest fun tail hc hrest ↦ hpair ⟨hc, ?_⟩
      rw [hrest]
      rfl
    rw [hends]
    simp only [isLineEnd, Bool.or_eq_true, beq_iff_eq]
    refine or_congr_right ⟨fun hc ↦ ⟨hc, fun hhead ↦ hpair ⟨hc, hhead⟩⟩, And.left⟩

private theorem coordinates_succ {text rest : List Char} {c : Char} {k : Nat}
    (h : text.drop k = c :: rest) :
    coordinates text (k + 1) = (coordinates text k).past c rest := by
  have hlast : endsLineAt text k = endsLine (c :: rest) := by rw [endsLineAt, h]
  by_cases hends : endsLine (c :: rest) = true
  · rw [Position.past_of_lineEnd _ (endsLine_cons_iff.1 hends)]
    simp [coordinates, List.range_succ, hlast, hends]
  · rw [Position.past_of_not_lineEnd _ (mt endsLine_cons_iff.2 hends)]
    simp [coordinates, List.range_succ, hlast, hends]

theorem after_eq_coordinates (front rest : List Char) :
    Position.first.after front rest = coordinates (front ++ rest) front.length := by
  induction front using List.reverseRecOn generalizing rest with
  | nil => rfl
  | append_singleton front c ih =>
    have hdrop : (front ++ ([c] ++ rest)).drop front.length = c :: rest := List.drop_left
    rw [Position.after_append, ih, List.append_assoc, List.length_append, List.length_singleton,
      coordinates_succ hdrop]
    rfl

end Text

/-! ## Sources -/

namespace Source

/-- How many bytes the mark at the head of a text takes, if there is one. -/
def markSize (text : List Char) : Nat :=
  if text.head? = some Text.byteOrderMark then Text.byteOrderMark.utf8Size else 0

theorem byteSize_lead (uri : String) (charset : Charset) (text : List Char) :
    Text.byteSize (ofChars uri charset text).lead =
      markSize text + (ofChars uri charset text).bodyOffset := by
  rw [lead, Text.byteSize_append, bodyOffset, markSize]
  congr 1
  by_cases hmark : text.head? = some Text.byteOrderMark
  · simp [ofChars, hmark]
  · simp [ofChars, hmark]

/-- An offset of the body is given the coordinates that it has in the file, where it comes after the
mark and after all that stands before the body. -/
theorem exists_coordinates_eq (uri : String) (charset : Charset) (text : List Char) {offset : Nat}
    (h : Text.Divides (ofChars uri charset text).body offset) :
    let source := ofChars uri charset text
    ∃ k ≤ text.length,
      Text.byteSize (text.take k) = markSize text + source.bodyOffset + offset ∧
      source.toFile ((Locator.of source.body).position offset).1 = Text.coordinates text k := by
  intro source
  obtain ⟨before, after, hbody, rfl⟩ := h
  have htext : source.lead ++ before ++ after = text := by
    rw [List.append_assoc, ← hbody]
    exact lead_append_body uri charset text
  have htake : text.take (source.lead ++ before).length = source.lead ++ before := by
    rw [← htext, List.take_left]
  refine ⟨(source.lead ++ before).length, ?_, ?_, ?_⟩
  · rw [← htext]
    simp
  · rw [htake, Text.byteSize_append, byteSize_lead]
  · calc source.toFile ((Locator.of source.body).position (Text.byteSize before)).1
        = Position.first.after (source.lead ++ before) after := placeOf_byteSize hbody
      _ = Text.coordinates (source.lead ++ before ++ after) (source.lead ++ before).length :=
          Text.after_eq_coordinates _ _
      _ = Text.coordinates text (source.lead ++ before).length := by rw [htext]

/-- A mark, a preamble of two lines that end differently, and an offset on the second line of the
body. The mark counts on the first line only, and the preamble's columns on the third. -/
theorem exists_coordinates_eq_marked :
    let text := "\uFEFFx\r\ny\rzé<?xml version='1.0'?>\r\n<é/>".toList
    let source := ofChars "" .utf8 text
    Text.Divides source.body 26 ∧
      ∃ k ≤ text.length, Text.byteSize (text.take k) = 3 + 8 + 26 ∧
        Text.coordinates text k = ⟨4, 2⟩ := by
  intro text source
  have hdivides : Text.Divides source.body 26 :=
    ⟨source.body.take 25, source.body.drop 25, by decide +kernel, by decide +kernel⟩
  refine ⟨hdivides, ?_⟩
  obtain ⟨k, hk, hsize, hplace⟩ := exists_coordinates_eq "" .utf8 text hdivides
  have hlead : markSize text + source.bodyOffset = 3 + 8 := by decide +kernel
  have hfile : source.toFile ((Locator.of source.body).position 26).1 = ⟨4, 2⟩ := by
    decide +kernel
  exact ⟨k, hk, by rw [hsize, hlead], by rw [← hplace, hfile]⟩

end Source

end XmlInspect
