import ScatteringData.Value.Reading

/-!
# Values as lattices

A value is a lattice: nested lists form rows, and anything else is a single cell. Where a number is
tested for finiteness, a lattice of numbers with one cell passes for it.
-/

namespace ScatteringData.Value

mutual

def nest : Value → Nest Value
  | list vs _ => .row (nestAll vs)
  | zaids zs _ => .row (zs.map fun z => .cell (zaid z.1 z.2))
  | v => .cell v

def nestAll : List Value → List (Nest Value)
  | [] => []
  | v :: vs => v.nest :: nestAll vs

end

def lattice (v : Value) : Except Fault (Lattice Value) := v.nest.lattice.mapError .lattice

def bounded? (v : Value) : Option Float :=
  match v.number? with
  | some (.int n) => if -Int.pow 2 63 ≤ n ∧ n < Int.pow 2 64 then Double.ofInt? n else none
  | some (.float x) => some x
  | none => none

/-- Whether a number is finite. A lattice that has not exactly one cell is neither. -/
def isFinite (v : Value) : Except Fault Bool := do
  let l ← v.lattice
  match l.cells.mapM bounded? with
  | none => .error .wrongType
  | some [] => .error (.lattice .noTruth)
  | some [x] => pure x.isFinite
  | some _ => .error (.lattice .manyTruths)

end ScatteringData.Value
