import ScatteringData.Value.Lattice

/-!
# Temperature grids

A query is answered on an ascending grid of energies, either by the first one that equals it within
the tolerance or by the one at the smallest distance. Grids and queries given as nested lists are
taken cell by cell.
-/

namespace ScatteringData.Grid

/-- Whether a stored energy is the queried one, up to the tolerance relative to the query. -/
def isMatch (stored query : Float) : Bool :=
  ((stored - query).abs ≤ matchTolerance * query.abs && query.isFinite) || stored == query

def distance (stored query : Float) : Float := (stored - query).abs

def firstMatch? (grid : List Float) (query : Float) : Option Nat :=
  grid.findIdx? fun g => isMatch g query

/-- The place of the smallest distance and the distance; the first of equal ones wins, and a NaN
wins over all distances. -/
def least? : List Float → Option (Nat × Float)
  | [] => none
  | d :: ds =>
    match least? ds with
    | none => some (0, d)
    | some (i, best) =>
      if d.isNaN || (!best.isNaN && d ≤ best) then some (0, d) else some (i + 1, best)

def nearest? (grid : List Float) (query : Float) : Option Nat :=
  (least? (grid.map fun g => distance g query)).map (·.1)

def find? (grid : List Float) (query : Float) (exact : Bool) : Option Nat :=
  if exact then firstMatch? grid query else nearest? grid query

def lowest? (ds : List Float) : Option Nat :=
  (ds.zipIdx.foldl
    (fun best d =>
      match best with
      | none => some d
      | some b => if d.1 < b.1 then some d else best)
    (none : Option (Float × Nat))).map (·.2)

def ofValue (v : Value) : Except Fault (Lattice Float) := do
  let l ← v.lattice
  let xs ← l.cells.mapM fun v => if v.isNull then pure (0.0 / 0.0) else v.toDouble
  pure ⟨l.dimensions, xs⟩

/-- Queries that are doubles, or values among which something else stands, such as an integer of more
than 64 bits. -/
inductive Queries
  | doubles (l : Lattice Float)
  | values (l : Lattice Value)

def queriesOf (exact : Bool) (v : Value) : Except Fault Queries := do
  if v.number?.isSome then pure (.doubles (.single (← v.numberToDouble)))
  else
    let l ← v.lattice
    match l.cells.mapM Value.bounded? with
    | some xs => pure (.doubles ⟨l.dimensions, xs⟩)
    | none =>
      if l.cells.all fun c => c.bounded?.isSome || c.chars?.isSome then
        throw (.textQuery exact)
      else pure (.values l)

def paired {α : Type} (grid : Lattice Float) (queries : Lattice α) :
    Except Fault (List (Float × α)) :=
  (grid.pairs queries).mapError .lattice

/-- The search on values: the place of a cell, counted row by row. On an empty grid the query is not
looked at. Queries that are not all doubles are compared one by one by their distances, and no exact
search takes them. -/
def findValue? (grid query exact : Value) : Except Fault (Option Nat) := do
  let grid ← ofValue grid
  if grid.cells.isEmpty then pure none
  else
    match ← queriesOf exact.truthy query, exact.truthy with
    | .doubles qs, true =>
      let ps ← paired grid qs
      pure (ps.findIdx? fun p => isMatch p.1 p.2)
    | .doubles qs, false =>
      let ps ← paired grid qs
      match least? (ps.map fun p => distance p.1 p.2) with
      | some (i, _) => pure (some i)
      | none => throw (.lattice .noMinimum)
    | .values qs, exact =>
      let ps ← paired grid qs
      let ds ← ps.mapM fun p => do pure (distance p.1 (← p.2.numberToDouble))
      if exact then throw .wrongType
      else pure (lowest? ds)

end ScatteringData.Grid
