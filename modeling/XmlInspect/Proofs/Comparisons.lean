import Mathlib.Tactic.Common
import XmlInspect.Query.Value

/-!
# Comparing from the other side

A comparison may be read from either side: what is said with `a < b` is said with `b > a` as well.
With values of four types this is no matter of course. Two sets of nodes are compared node by node,
a set and a truth value as truth values, a set and a text or number again node by node, now with the
set on one side and now on the other, and two values that are no sets by the types of both. Numbers
that are none compare with nothing, and this too has to be seen from both sides.

Every rule is shown to be the same from the other side, from numbers up to values.
-/

namespace XmlInspect.Query

/-- The operator that says of the right side and the left one what this says of the left side and
the right one. Operators that compare nothing stay as they are. -/
def Operator.mirrored : Operator → Operator
  | lt => gt
  | ltEq => gtEq
  | gt => lt
  | gtEq => ltEq
  | op => op

/-! ## Numbers and texts -/

/-- Numbers that compare are ordered the other way round when they are swapped, and those that do
not compare still do not. -/
theorem order?_swap (a b : Float) : order? b a = (order? a b).map Ordering.swap := by
  unfold order?
  cases decide (a ≤ b) <;> cases decide (b ≤ a) <;> rfl

private theorem sameNumber_comm (a b : Float) : sameNumber a b = sameNumber b a := by
  rw [sameNumber, sameNumber, order?_swap a b]
  rcases order? a b with _ | (_ | _ | _) <;> rfl

theorem numbersCompare_mirrored (op : Operator) (a b : Float) :
    numbersCompare op.mirrored b a = numbersCompare op a b := by
  rw [numbersCompare, numbersCompare, order?_swap a b]
  -- Each operator is looked at with each answer. Without an answer, only inequality holds.
  rcases order? a b with _ | (_ | _ | _) <;> cases op <;> rfl

private theorem textsCompare_mirrored (op : Operator) (a b : String) :
    textsCompare op.mirrored b a = textsCompare op a b := by
  cases op with
  | eq => exact BEq.comm
  | notEq => exact bne_comm
  | _ => exact numbersCompare_mirrored _ _ _

/-! ## Values -/

variable (tree : Tree)

private theorem scalarsEqual_comm (a b : Value) :
    scalarsEqual tree a b = scalarsEqual tree b a := by
  cases a with
  | boolean x => cases b <;> exact BEq.comm
  | number x =>
    cases b with
    | boolean y => exact BEq.comm
    | _ => exact sameNumber_comm _ _
  | _ =>
    cases b with
    | number y => exact sameNumber_comm _ _
    | _ => exact BEq.comm

private theorem scalarsCompare_mirrored (op : Operator) (a b : Value) :
    scalarsCompare tree op.mirrored b a = scalarsCompare tree op a b := by
  cases op with
  | eq => exact scalarsEqual_comm tree b a
  | notEq => exact congrArg (!·) (scalarsEqual_comm tree b a)
  | _ => exact numbersCompare_mirrored _ _ _

private theorem any_any_comm {α β : Type} (l : List α) (l' : List β) (p : α → β → Bool) :
    (l.any fun x ↦ l'.any fun y ↦ p x y) = l'.any fun y ↦ l.any fun x ↦ p x y := by
  rw [Bool.eq_iff_iff]
  simp only [List.any_eq_true]
  constructor
  · rintro ⟨x, hx, y, hy, hxy⟩
    exact ⟨y, hy, x, hx, hxy⟩
  · rintro ⟨y, hy, x, hx, hxy⟩
    exact ⟨x, hx, y, hy, hxy⟩

/-- A comparison holds exactly if the mirrored one holds of the swapped values. This is so for
values of any types, sets of nodes and numbers that are none included. -/
theorem valuesCompare_mirrored (op : Operator) (a b : Value) :
    valuesCompare tree op a b = valuesCompare tree op.mirrored b a := by
  cases a with
  | nodes left =>
    cases b with
    | nodes right =>
      simp only [valuesCompare, textsCompare_mirrored]
      exact any_any_comm left right _
    | _ => simp only [valuesCompare, scalarsCompare_mirrored]
  | _ => cases b <;> simp only [valuesCompare, scalarsCompare_mirrored]

end XmlInspect.Query
