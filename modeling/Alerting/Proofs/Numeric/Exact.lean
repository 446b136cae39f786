import Alerting.Figure
import Mathlib.Algebra.Order.Monoid.Unbundled.WithTop
import Mathlib.Algebra.Order.Ring.Rat
import Mathlib.Algebra.BigOperators.Group.List.Basic
/-!
# Exact figures

The rational numbers with an infinity at either end are figures that add up and compare without
rounding.  On them, adding, taking the lesser and taking the greater are commutative and have a
neutral element each, which is where the folds over totals start.
-/

namespace Alerting

/-- The rational numbers, and an infinity at either end. -/
abbrev Exact : Type := WithBot (WithTop ℚ)

namespace Exact

instance : Figure Exact where
  decidableLT := inferInstance
  decidableLE := inferInstance
  emptySum := 0
  infinity := ⊤
  negInfinity := ⊥
  isNaN _ := false
  isFinite x := x ≠ ⊥ && x ≠ ⊤
  ranksBelow x y := x < y
  ranksBelow_irrefl x := decide_eq_false (lt_irrefl x)
  ranksBelow_trans hxy hyz := by
    rw [decide_eq_true_eq] at hxy hyz ⊢
    exact hxy.trans hyz
  not_ranksBelow_trans hxy hyz := by
    rw [decide_eq_false_iff_not, not_lt] at hxy hyz ⊢
    exact hyz.trans hxy

def ofRat (q : ℚ) : Exact :=
  ((q : WithTop ℚ) : WithBot (WithTop ℚ))

theorem ofRat_injective : Function.Injective ofRat := fun _ _ h =>
  WithTop.coe_injective (WithBot.coe_injective h)

theorem lesser_eq_min (x y : Exact) : Figure.lesser x y = min x y := by
  change (if y < x then y else x) = min x y
  by_cases h : y < x
  · rw [if_pos h, min_eq_right h.le]
  · rw [if_neg h, min_eq_left (not_lt.mp h)]

theorem greater_eq_max (x y : Exact) : Figure.greater x y = max x y := by
  change (if x < y then y else x) = max x y
  by_cases h : x < y
  · rw [if_pos h, max_eq_right h.le]
  · rw [if_neg h, max_eq_left (not_lt.mp h)]

theorem total_map_ofRat (l : List ℚ) : Figure.total (l.map ofRat) = ofRat l.sum := by
  unfold Figure.total
  rw [List.foldl_map, List.sum_eq_foldl]
  exact List.foldl_hom ofRat fun _ _ => rfl

end Exact

end Alerting
