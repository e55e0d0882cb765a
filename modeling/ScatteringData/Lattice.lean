/-!
# Lattices

Nested rows of cells form a lattice if the rows of every level are equally long. Two lattices are
taken together cell by cell, where a dimension of one stretches to any other.
-/

namespace ScatteringData

inductive Nest (α : Type)
  | cell (a : α)
  | row (ns : List (Nest α))

abbrev Dimensions := List Nat

/-- Cells in the order in which nested rows list them. -/
structure Lattice (α : Type) where
  dimensions : Dimensions
  cells : List α

inductive LatticeFault
  /-- Rows of one level have different lengths, or stand beside cells. -/
  | ragged (dimensions : Dimensions)
  | tooDeep
  | cannotStretch (a b : Dimensions)
  | noTruth
  | manyTruths
  | noMinimum
deriving DecidableEq, Repr

namespace Dimensions

def maxCount : Nat := 64

def text (separator : String) (ds : Dimensions) : String :=
  match ds with
  | [d] => s!"({d},)"
  | ds => "(" ++ separator.intercalate (ds.map toString) ++ ")"

def commonPrefix : Dimensions → Dimensions → Dimensions
  | a :: as, b :: bs => if a = b then a :: commonPrefix as bs else []
  | _, _ => []

def agreement : List (Dimensions × Bool) → Dimensions × Bool
  | [] => ([], true)
  | d :: ds =>
    ds.foldl (fun (ds, regular) e => (commonPrefix ds e.1, regular && e.2 && ds == e.1)) d

/-- The common dimensions, the last level first; a dimension of one stretches. -/
def stretchedFromLast : Dimensions → Dimensions → Option Dimensions
  | [], bs => some bs
  | as, [] => some as
  | a :: as, b :: bs =>
    if a = b ∨ b = 1 then (stretchedFromLast as bs).map (a :: ·)
    else if a = 1 then (stretchedFromLast as bs).map (b :: ·)
    else none

def stretched? (a b : Dimensions) : Option Dimensions :=
  (stretchedFromLast a.reverse b.reverse).map List.reverse

def count (ds : Dimensions) : Nat := ds.foldr (· * ·) 1

end Dimensions

namespace LatticeFault

def message : LatticeFault → String
  | ragged ds =>
    let shape := ds.text ", "
    s!"setting an array element with a sequence. The requested array has an inhomogeneous shape after {ds.length} dimensions. The detected shape was {shape} + inhomogeneous part."
  | tooDeep =>
    s!"setting an array element with a sequence. The requested array would exceed the maximum number of dimension of {Dimensions.maxCount}."
  | cannotStretch a b =>
    let first := a.text ","
    let second := b.text ","
    s!"operands could not be broadcast together with shapes {first} {second} "
  | noTruth =>
    "The truth value of an empty array is ambiguous. Use \x60array.size > 0\x60 to check that an array is not empty."
  | manyTruths =>
    "The truth value of an array with more than one element is ambiguous. Use a.any() or a.all()"
  | noMinimum => "attempt to get argmin of an empty sequence"

end LatticeFault

namespace Nest

variable {α : Type}

mutual

/-- The dimensions down to the first level that is not regular, and whether there is none. -/
def detected : Nest α → Dimensions × Bool
  | cell _ => ([], true)
  | row ns =>
    let d := Dimensions.agreement (detectedAll ns)
    (ns.length :: d.1, d.2)

def detectedAll : List (Nest α) → List (Dimensions × Bool)
  | [] => []
  | n :: ns => n.detected :: detectedAll ns

end

mutual

def cells : Nest α → List α
  | cell a => [a]
  | row ns => cellsAll ns

def cellsAll : List (Nest α) → List α
  | [] => []
  | n :: ns => n.cells ++ cellsAll ns

end

def lattice (n : Nest α) : Except LatticeFault (Lattice α) :=
  let (ds, regular) := n.detected
  if Dimensions.maxCount < ds.length ∨ (!regular ∧ Dimensions.maxCount ≤ ds.length) then
    .error .tooDeep
  else if regular then .ok ⟨ds, n.cells⟩
  else .error (.ragged ds)

end Nest

namespace Lattice

variable {α β : Type}

def single (a : α) : Lattice α := ⟨[], [a]⟩

def repeated : Dimensions → Dimensions → List α → List α
  | d :: ds, t :: ts, cells =>
    let block := Dimensions.count ds
    let parts := (List.range d).map fun i =>
      repeated ds ts ((cells.drop (i * block)).take block)
    if d = t then parts.flatten else (List.replicate t parts.flatten).flatten
  | _, _, cells => cells

def stretchedTo (l : Lattice α) (target : Dimensions) : List α :=
  repeated (List.replicate (target.length - l.dimensions.length) 1 ++ l.dimensions) target l.cells

def pairs (a : Lattice α) (b : Lattice β) : Except LatticeFault (List (α × β)) :=
  match Dimensions.stretched? a.dimensions b.dimensions with
  | some ds => .ok ((a.stretchedTo ds).zip (b.stretchedTo ds))
  | none => .error (.cannotStretch a.dimensions b.dimensions)

end Lattice

end ScatteringData
