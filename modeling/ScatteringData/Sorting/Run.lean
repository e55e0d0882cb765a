import ScatteringData.Sorting.Search

/-!
# Sorted runs

A list is cut into runs that are in order. An ascending stretch is a run as it stands and a strictly
descending one when it is turned round; a run that is too short takes in the values behind it.
-/

namespace ScatteringData.Sorting

variable {α : Type} (before : α → α → Option Bool)

def descends (a : α) : List α → Option Bool
  | [] => some false
  | b :: _ => before b a

/-- How many values go on as asked: each one comes before the preceding one, or none does. -/
def stretch (descending : Bool) : α → List α → Option Nat
  | _, [] => some 0
  | a, b :: bs => do
    if (← before b a) = descending then
      let n ← stretch descending b bs
      some (n + 1)
    else some 0

def insert (run : List α) (a : α) : Option (List α) := do
  let i ← bisect .front (fun b => (before a b).map not) run 0 run.length
  some (run.take i ++ a :: run.drop i)

/-- The least length of the runs into which a list of the given length is cut. It is at most 64, and
so chosen that the number of runs is a power of two or little less. -/
def leastRun (n : Nat) : Nat :=
  let unit := Nat.pow 2 (n.log2 - 5)
  (n + unit - 1) / unit

def runs (least : Nat) : List α → Option (List (List α))
  | [] => some []
  | a :: as => do
    let descending ← descends before a as
    let n ← stretch before descending a as
    let natural := if descending then (a :: as.take n).reverse else a :: as.take n
    let missing := least - natural.length
    let run ← ((as.drop n).take missing).foldlM (insert before) natural
    let rest ← runs least ((as.drop n).drop missing)
    some (run :: rest)
termination_by as => as.length

end ScatteringData.Sorting
