import Mathlib.Algebra.Order.Field.Basic
import Mathlib.Tactic.Linarith

/-!
# Segments and boxes

A segment is its lower end and its length. Two boxes with sides parallel to the axes overlap
exactly if their sides do, so what is said of segments here is all there is to boxes.

* `Overlap.mono`: longer segments overlap where shorter ones do, whatever the addition is,
  as long as it keeps the order.
* `le_of_not_overlap`, `lt_of_step`: a segment that moves in steps shorter than the two
  together does not pass another that it never overlaps.
-/

namespace Boxes

section

variable {F : Type*} [LT F] [Add F]

/-- Two segments have more than an end in common. -/
def Overlap (x w x' w' : F) : Prop := x < x' + w' ∧ x' < x + w

/-- Longer segments. -/
theorem Overlap.mono (hadd : ∀ a b x y : F, a < b → x < y + a → x < y + b) {x w x' w' v v' : F} (h : Overlap x w x' w')
    (hw : w = v ∨ w < v) (hw' : w' = v' ∨ w' < v') : Overlap x v x' v' := by
  constructor
  · rcases hw' with rfl | hlt
    · exact h.1
    · exact hadd w' v' x x' hlt h.1
  · rcases hw with rfl | hlt
    · exact h.2
    · exact hadd w v x' x hlt h.2

end

section

variable {K : Type*} [Field K] [LinearOrder K] [IsStrictOrderedRing K] {x w x' w' v v' : K}

omit [IsStrictOrderedRing K] in
/-- What is not past another, and does not overlap it, is before it. -/
theorem le_of_not_overlap (h : ¬Overlap x w x' w') (hx : x < x' + w') : x + w ≤ x' := by
  by_contra hin
  exact h ⟨hx, not_le.1 hin⟩

/-- **No way past** in one step that is shorter than the two together. -/
theorem lt_of_step (hbefore : x + w ≤ x') (hshort : v - v' < w + w') : x + v < x' + v' + w' := by
  linarith

end

end Boxes
