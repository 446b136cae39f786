import Alerting.Query.Cell
/-!
# Figures

Figures are the numbers that are computed with: totals of groups, values of cards, bounds of
thresholds.  They are floats, but a computation asks no more of them than what `Figure` lists, and
no more of a cell than the number that it holds.  So each computation can also be carried out with
exact numbers, where nothing is rounded and only its method counts.
-/

namespace Alerting

/-- Numbers that are added and compared.  There may be infinities among them, and values that are no
number. -/
class Figure (α : Type) extends Zero α, Add α, LT α, LE α, BEq α where
  decidableLT (x y : α) : Decidable (x < y)
  decidableLE (x y : α) : Decidable (x ≤ y)
  /-- What a sum starts from. -/
  emptySum : α
  infinity : α
  negInfinity : α
  isNaN : α → Bool
  isFinite : α → Bool
  /-- Whether one value is placed below another when all values are put in order. -/
  ranksBelow : α → α → Bool
  ranksBelow_irrefl (x : α) : ranksBelow x x = false
  ranksBelow_trans {x y z : α} : ranksBelow x y = true → ranksBelow y z = true →
    ranksBelow x z = true
  not_ranksBelow_trans {x y z : α} : ranksBelow x y = false → ranksBelow y z = false →
    ranksBelow x z = false

class CellNumber (α : Type) where
  ofCell? : Json → Option α
  ofCell?_null : ofCell? .null = none

namespace Figure

attribute [reducible, instance] decidableLT decidableLE

variable {α : Type} [Figure α]

def ofCell [CellNumber α] (cell : Json) : α :=
  (CellNumber.ofCell? cell).getD 0

def total (l : List α) : α :=
  l.foldl (· + ·) emptySum

/-- The lesser of two numbers; the first of two equal ones. -/
def lesser (x y : α) : α :=
  if isNaN x then y else if y < x then y else x

def greater (x y : α) : α :=
  if isNaN x then y else if x < y then y else x

end Figure

/-! ## Floats -/

/-- A key that puts all floats in one order: by value, the negative zero below the positive one. -/
def orderKey (x : Float) : Int :=
  let bits := x.toBits.toNat
  if bits < Nat.pow 2 63 then bits else (Nat.pow 2 63 : Int) - 1 - bits

instance : Figure Float where
  zero := 0
  decidableLT := inferInstance
  decidableLE := inferInstance
  emptySum := -0.0
  infinity := 1 / 0
  negInfinity := -1 / 0
  isNaN := Float.isNaN
  isFinite := Float.isFinite
  ranksBelow x y := orderKey x < orderKey y
  ranksBelow_irrefl x := decide_eq_false (Int.lt_irrefl _)
  ranksBelow_trans hxy hyz := by
    rw [decide_eq_true_eq] at hxy hyz ⊢
    omega
  not_ranksBelow_trans hxy hyz := by
    rw [decide_eq_false_iff_not] at hxy hyz ⊢
    omega

instance : CellNumber Float where
  ofCell? := Json.toFloat?
  ofCell?_null := rfl

end Alerting
