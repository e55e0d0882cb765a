import ScatteringData.Sorting.Run
import ScatteringData.Sorting.Merge

/-!
# Sorting by comparisons that can fail

A list is cut into sorted runs, and neighbouring runs are merged, so equal values keep their order.
The result is defined, too, for comparisons that are no order: which values are compared, and in
which order the runs are merged, is part of the definition.
-/

namespace ScatteringData.Sorting

variable {α : Type}

/-- How often the places of a list have to be halved until two places come apart, both given as
multiples of a half. -/
def depth (n a b : Nat) : Nat :=
  ((List.range (n + 1)).find? fun k => Nat.pow 2 k * a / n ≠ Nat.pow 2 k * b / n).getD n

/-- Runs that wait to be merged: the last one, and those before it, the latest first, each with the
depth of the border behind it. -/
structure Pile (α : Type) where
  lower : List (List α × Nat)
  top : List α
  /-- How many values all runs have. -/
  size : Nat
  patience : Nat

variable (before : α → α → Option Bool)

def Pile.collapse (depth : Nat) (size : Nat) :
    List (List α × Nat) → List α → Nat → Option (Pile α)
  | [], top, patience => some ⟨[], top, size, patience⟩
  | (run, d) :: lower, top, patience => do
    if depth < d then
      let (merged, patience) ← merge before patience run top
      collapse depth size lower merged patience
    else some ⟨(run, d) :: lower, top, size, patience⟩

/-- Adds the next run of a list of the given length. Its border is as deep as the middles of the two
runs beside it are hard to part by halving; deeper borders before it go first. -/
def Pile.push (n : Nat) (p : Pile α) (run : List α) : Option (Pile α) := do
  let middle := 2 * (p.size - p.top.length) + p.top.length
  let d := depth n middle (middle + p.top.length + run.length)
  let p ← Pile.collapse before d p.size p.lower p.top p.patience
  some ⟨(p.top, d) :: p.lower, run, p.size + run.length, p.patience⟩

def finish : List (List α) → List α → Nat → Option (List α)
  | [], top, _ => some top
  | [run], top, patience => do
    let (merged, _) ← merge before patience run top
    some merged
  | b :: a :: lower, top, patience => do
    if a.length < top.length then
      let (merged, patience) ← merge before patience a b
      finish (merged :: lower) top patience
    else
      let (merged, patience) ← merge before patience b top
      finish (a :: lower) merged patience
termination_by runs => runs.length

/-- The values in ascending order; none where two that are compared have no order. -/
def sort? (as : List α) : Option (List α) := do
  match ← runs before (leastRun as.length) as with
  | [] => some []
  | run :: rest =>
    let start : Pile α := ⟨[], run, run.length, longStretch⟩
    let p ← rest.foldlM (Pile.push before as.length) start
    finish before (p.lower.map (·.1)) p.top p.patience

end ScatteringData.Sorting
