/-!
# Parts of a construct

A node or attribute has up to five parts whose place is of interest. Which of them a construct has
depends on its kind: an element has all but a value, a run of text is just a whole.
-/

namespace XmlInspect

/-- The part of a construct that a range is about. -/
inductive Slot where
  | whole
  /-- The opening tag or delimiter. -/
  | opening
  /-- The closing tag or delimiter. -/
  | closing
  | name
  /-- The value of an attribute with its quotes. -/
  | value
  deriving DecidableEq, Repr

/-- Where the parts of a construct stand, in whatever units places are given. -/
@[ext] structure Ranges (α : Type) where
  whole : Option α
  opening : Option α
  closing : Option α
  name : Option α
  value : Option α
  deriving DecidableEq, Repr

namespace Ranges

variable {α β : Type}

/-- No part is known. -/
def empty : Ranges α := ⟨none, none, none, none, none⟩

/-- Where a part stands. -/
def get (ranges : Ranges α) : Slot → Option α
  | .whole => ranges.whole
  | .opening => ranges.opening
  | .closing => ranges.closing
  | .name => ranges.name
  | .value => ranges.value

/-- Says where a part stands. -/
def set (ranges : Ranges α) (slot : Slot) (range : α) : Ranges α :=
  match slot with
  | .whole => { ranges with whole := some range }
  | .opening => { ranges with opening := some range }
  | .closing => { ranges with closing := some range }
  | .name => { ranges with name := some range }
  | .value => { ranges with value := some range }

theorem get_set (ranges : Ranges α) (slot slot' : Slot) (range : α) :
    (ranges.set slot range).get slot' = if slot = slot' then some range else ranges.get slot' := by
  cases slot <;> cases slot' <;> rfl

/-- Changes the units of a place that may be unknown. -/
def mapPlace {ε : Type} (f : α → Except ε β) : Option α → Except ε (Option β)
  | some a =>
    match f a with
    | .ok b => .ok (some b)
    | .error fault => .error fault
  | none => .ok none

/-- Changes the units of all places. -/
def mapM {ε : Type} (f : α → Except ε β) (ranges : Ranges α) : Except ε (Ranges β) := do
  return {
    whole := ← mapPlace f ranges.whole
    opening := ← mapPlace f ranges.opening
    closing := ← mapPlace f ranges.closing
    name := ← mapPlace f ranges.name
    value := ← mapPlace f ranges.value }

end Ranges

end XmlInspect
