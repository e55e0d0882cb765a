/-!
# Searching runs

How many values at the start of a list pass a test is found by strides that double and then by
halving. For a test that only a start passes the answer is the length of that start, but every test
has an answer. The places of a list that is read from its back are counted from there.
-/

namespace ScatteringData.Sorting

variable {α : Type}

inductive Side
  | front | back
deriving DecidableEq, Repr

/-- The place that halves a range. Of two middle places it is the later one, or the earlier one where
the list is read from its back. -/
def Side.middle (low high : Nat) : Side → Nat
  | front => low + (high - low) / 2
  | back => low + (high - low - 1) / 2

theorem Side.middle_lt {low high : Nat} (side : Side) (h : low < high) :
    side.middle low high < high := by
  cases side <;> simp only [middle] <;> omega

theorem Side.le_middle (low high : Nat) (side : Side) : low ≤ side.middle low high := by
  cases side <;> simp only [middle] <;> omega

def bisect (side : Side) (test : α → Option Bool) (as : List α) (low high : Nat) : Option Nat :=
  if _h : low < high then
    match as[side.middle low high]? with
    | none => some low
    | some a => do
      if ← test a then bisect side test as (side.middle low high + 1) high
      else bisect side test as low (side.middle low high)
  else some low
termination_by high - low
decreasing_by
  · have := side.le_middle low high
    omega
  · have := side.middle_lt _h
    have := side.le_middle low high
    omega

/-- A range in which the values that pass end, found by strides that double. So many values as the
low end says are known to pass, and the one at the high end is looked at next. -/
def stride (test : α → Option Bool) (as : List α) (low high : Nat) : Option (Nat × Nat) :=
  if h : high < as.length then do
    if ← test as[high] then stride test as (high + 1) (2 * high + 1)
    else some (low, high)
  else some (low, as.length)
termination_by as.length - high

def extent (side : Side) (test : α → Option Bool) : List α → Option Nat
  | [] => some 0
  | a :: as => do
    if ← test a then
      let (low, high) ← stride test (a :: as) 1 1
      bisect side test (a :: as) low high
    else some 0

end ScatteringData.Sorting
