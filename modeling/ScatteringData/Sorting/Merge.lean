import ScatteringData.Sorting.Search

/-!
# Merging runs

Two neighbouring runs are merged value by value; when one of them wins often enough in a row, whole
stretches are taken at once. The shorter run decides from which end the merge works. From the back
both runs are given turned round, and the greater of two values goes first.
-/

namespace ScatteringData.Sorting

variable {α : Type}

inductive Pace
  /-- Value by value; so many were taken from the left or the right run in a row. -/
  | steps (lefts rights : Nat)
  /-- By stretches, from the left run first. -/
  | leap
  /-- By a stretch of the right run, after so many values of the left one. -/
  | second (lefts : Nat)
  /-- After stretches of so many values of both runs. -/
  | landed (lefts rights : Nat)
deriving DecidableEq, Repr

def longStretch : Nat := 7

/-- The pace for the next value. Stretches are tried when the patience with single values is at an
end; the patience shrinks as long as they stay long and grows when they do not. -/
def Pace.next (patience : Nat) : Pace → Pace × Nat
  | steps l r => (if patience ≤ max l r then leap else steps l r, patience)
  | landed l r =>
    if longStretch ≤ max l r then (leap, if 1 < patience then patience - 1 else patience)
    else (steps 0 0, patience + 1)
  | pace => (pace, patience)

/-- What is left to write when nothing remains to be compared: a run is used up, or all that remains
of one is its last value, which is known to go behind the other run. -/
def settled? : Side → List α → List α → Option (List α)
  | .front, _ :: _ :: _, _ :: _ => none
  | .front, left, right => some (right ++ left)
  | .back, _ :: _, _ :: _ :: _ => none
  | .back, left, right => some (left ++ right)

variable (before : α → α → Option Bool)

def rightFirst : Side → α → α → Option Bool
  | .front, a, b => before b a
  | .back, a, b => (before b a).map not

def mergeFrom (side : Side) (pace : Pace) (patience : Nat) (left right : List α) :
    Option (List α × Nat) :=
  match settled? side left right with
  | some rest => some (rest, patience)
  | none =>
    match left, right with
    | a :: as, b :: bs =>
      match pace.next patience with
      | (.leap, patience) => do
        let n ← extent side (fun x => (rightFirst before side x b).map not) (a :: as)
        let taken := (a :: as).take n
        match settled? side ((a :: as).drop n) (b :: bs) with
        | some rest => some (taken ++ rest, patience)
        | none =>
          let (rest, patience) ← mergeFrom side (.second n) patience ((a :: as).drop n) bs
          some (taken ++ b :: rest, patience)
      | (.second l, patience) => do
        let n ← extent side (fun x => rightFirst before side a x) (b :: bs)
        let taken := (b :: bs).take n
        match settled? side (a :: as) ((b :: bs).drop n) with
        | some rest => some (taken ++ rest, patience)
        | none =>
          let (rest, patience) ← mergeFrom side (.landed l n) patience as ((b :: bs).drop n)
          some (taken ++ a :: rest, patience)
      | (.steps l r, patience) | (.landed l r, patience) => do
        if ← rightFirst before side a b then
          let (rest, patience) ← mergeFrom side (.steps 0 (r + 1)) patience (a :: as) bs
          some (b :: rest, patience)
        else
          let (rest, patience) ← mergeFrom side (.steps (l + 1) 0) patience as (b :: bs)
          some (a :: rest, patience)
    | _, _ => some (left ++ right, patience)
termination_by left.length + right.length
decreasing_by all_goals simp only [List.length_cons, List.length_drop]; omega

/-- Merges two neighbouring runs. What has its place already takes no part: left values that the
first right one does not come before, and right ones that do not come before the last left one. Then
the first right value is known to go first and the last left one to go last. -/
def merge (patience : Nat) (left right : List α) : Option (List α × Nat) := do
  let some b := right.head? | some (left, patience)
  let i ← extent .front (fun x => (before b x).map not) left
  let some a := (left.drop i).getLast? | some (left ++ right, patience)
  let j ← extent .back (fun x => (before x a).map not) right.reverse
  let as := left.drop i
  let bs := right.take (right.length - j)
  let behind := right.drop (right.length - j)
  if bs.isEmpty then some (left ++ right, patience)
  else if as.length ≤ bs.length then
    let (merged, patience) ← mergeFrom before .front (.steps 0 0) patience as bs.tail
    some (left.take i ++ b :: merged ++ behind, patience)
  else
    let (merged, patience) ←
      mergeFrom before .back (.steps 0 0) patience as.reverse.tail bs.reverse
    some (left.take i ++ (a :: merged).reverse ++ behind, patience)

end ScatteringData.Sorting
