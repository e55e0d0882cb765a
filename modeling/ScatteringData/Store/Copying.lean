import ScatteringData.Store.Duplicate

/-!
# Copies

A copy has maps of its own, which are rebuilt level by level. It shares the records, or it has new ones
with the same fields. A nuclide's copy also shares the atom unless everything is new.
-/

namespace ScatteringData

/-- What a copy has of its own: its maps; also the records of its own maps; everything. -/
inductive Depth
  | maps | records | everything
deriving DecidableEq, Repr

namespace Store

/-- What a copy has in the place of a record: a new one with the same fields, or the same one. -/
def passRecord (deep : Bool) (s : Store) (r : RecordRef) : Store × RecordRef :=
  if deep then s.cloneRecord r else (s, r)

def passMap (deep : Bool) : Store → RecordMap → Store × RecordMap := RecordMap.rebuild (passRecord deep)

def copyMap (s : Store) (m : MapRef) (deep : Bool) : Store × MapRef :=
  let (t, content) := s.passMap deep (s.map m)
  t.addMap { s.mapObject m with content }

def copyAtom (s : Store) (a : AtomRef) (deep : Bool) : Store × List Entry × AtomRef :=
  let atom := s.atom a
  let (s, maps) := atom.maps.rebuild (passMap deep) s
  let (s, copy) := s.addAtom { atom with maps }
  let announced := if deep then [.deepCloning true atom.identity.name] else []
  (s, announced ++ [atom.identity.passed], copy)

/-- A nuclide like another one on the given atom, with maps of its own. -/
def addNuclideOn (s : Store) (nuclide : Nuclide) (a : AtomRef) (deep : Bool) : Store × NuclideRef :=
  let (s, maps) := nuclide.maps.rebuild (passMap deep) s
  s.addNuclide { nuclide with atom := a, maps }

def copyNuclide (s : Store) (n : NuclideRef) (depth : Depth) : Store × List Entry × NuclideRef :=
  let nuclide := s.nuclide n
  let passed := nuclide.identity.passed
  match depth with
  | .maps =>
    let (s, copy) := s.addNuclideOn nuclide nuclide.atom false
    (s, [passed], copy)
  | .records =>
    let (s, copy) := s.addNuclideOn nuclide nuclide.atom true
    (s, [.partiallyDeepCloning nuclide.identity.name, passed], copy)
  | .everything =>
    let (s, copied, atom) := s.copyAtom nuclide.atom true
    let (s, copy) := s.addNuclideOn nuclide atom true
    (s, .deepCloning false nuclide.identity.name :: copied ++ [passed], copy)

def copyCenter (s : Store) (c : CenterRef) (depth : Depth) : Store × List Entry × CenterRef :=
  match c with
  | .atom a =>
    let (s, entries, copy) := s.copyAtom a (depth ≠ .maps)
    (s, entries, .atom copy)
  | .nuclide n =>
    let (s, entries, copy) := s.copyNuclide n depth
    (s, entries, .nuclide copy)

end Store

end ScatteringData
