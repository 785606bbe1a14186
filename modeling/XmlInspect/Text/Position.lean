/-!
# Positions and ranges

A position is a line, counted from one, and a column, counted in characters from zero. A range
runs from its first position up to, and not including, its last. A range is never empty and
never reversed; both facts are fields of the type, so whoever holds a range need not ask again.
-/

namespace XmlInspect

/-! ## Positions -/

/-- A place in a file. -/
@[ext] structure Position where
  /-- The line, counted from one. -/
  line : Nat
  /-- The column, counted in characters from zero. -/
  column : Nat
  deriving DecidableEq, Repr

namespace Position

/-- Reading order: by line, then by column. -/
instance : LT Position where
  lt a b := a.line < b.line ∨ a.line = b.line ∧ a.column < b.column

instance : LE Position where
  le a b := a.line < b.line ∨ a.line = b.line ∧ a.column ≤ b.column

theorem lt_def {a b : Position} :
    a < b ↔ a.line < b.line ∨ a.line = b.line ∧ a.column < b.column := Iff.rfl

theorem le_def {a b : Position} :
    a ≤ b ↔ a.line < b.line ∨ a.line = b.line ∧ a.column ≤ b.column := Iff.rfl

instance (a b : Position) : Decidable (a < b) := decidable_of_iff _ lt_def.symm

instance (a b : Position) : Decidable (a ≤ b) := decidable_of_iff _ le_def.symm

theorem lt_irrefl (a : Position) : ¬ a < a := by
  simp only [lt_def]
  omega

/-- The three-way comparison of reading order. -/
def compare (a b : Position) : Ordering :=
  (Ord.compare a.line b.line).then (Ord.compare a.column b.column)

end Position

/-! ## Ranges -/

/-- A non-empty stretch of a file. -/
@[ext] structure TextRange where
  /-- Where the first character stands. -/
  start : Position
  /-- Just past the last character. -/
  stop : Position
  /-- Lines are counted from one. -/
  line_pos : 0 < start.line
  /-- A range holds at least one character. -/
  start_lt_stop : start < stop
  deriving DecidableEq

/-- Two positions that bound no range: reversed, equal, or on line zero. -/
structure InvalidRange where
  start : Position
  stop : Position
  deriving DecidableEq, Repr

namespace InvalidRange

def message (cause : InvalidRange) : String :=
  s!"Invalid text range {cause.start.line}:{cause.start.column}-" ++
    s!"{cause.stop.line}:{cause.stop.column}"

end InvalidRange

namespace TextRange

/-- The range between two positions. -/
def between (start stop : Position) : Except InvalidRange TextRange :=
  if h : 0 < start.line ∧ start < stop then
    .ok ⟨start, stop, h.1, h.2⟩
  else
    .error ⟨start, stop⟩

theorem between_eq_ok_iff {start stop : Position} {range : TextRange} :
    between start stop = .ok range ↔ range.start = start ∧ range.stop = stop := by
  unfold between
  split
  · rename_i h
    constructor
    · intro he
      cases he
      exact ⟨rfl, rfl⟩
    · rintro ⟨rfl, rfl⟩
      rfl
  · rename_i h
    refine ⟨by simp, ?_⟩
    rintro ⟨rfl, rfl⟩
    exact absurd ⟨range.line_pos, range.start_lt_stop⟩ h

/-- From the start of one range to the end of another. -/
def through (first last : TextRange) : Except InvalidRange TextRange :=
  between first.start last.stop

/-- Whether `inner` lies within `outer`. -/
def contains (outer inner : TextRange) : Bool :=
  outer.start ≤ inner.start && inner.stop ≤ outer.stop

/-- Ranges are compared by their starts, then by their ends. -/
def compare (a b : TextRange) : Ordering :=
  (a.start.compare b.start).then (a.stop.compare b.stop)

/-- The text form `line:column-line:column`. -/
protected def toString (range : TextRange) : String :=
  s!"{range.start.line}:{range.start.column}-{range.stop.line}:{range.stop.column}"

instance : ToString TextRange := ⟨TextRange.toString⟩

end TextRange

end XmlInspect
