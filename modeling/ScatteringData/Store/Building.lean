import ScatteringData.Store.Basic

/-!
# Building objects

New records, centers, maps and caches. What is built is added to the store only when its arguments
were accepted.
-/

namespace ScatteringData

namespace Store

def buildRecord (s : Store) (c : Category) (fields : List (Field × Value)) :
    Store × Outcome RecordRef :=
  match Record.build c s.mark fields with
  | .ok r => let (s, ref) := s.addRecord r; (s, .ok ref)
  | .error f => (s, .fail f)

def buildAtom (s : Store) (zaid ratio name : Value) : Store × Outcome AtomRef :=
  let built := Identity.ofValues s.mark zaid ratio name
  match built.result with
  | .ok identity =>
    let (s, a) := s.addAtom ⟨identity, .empty⟩
    (s, ⟨built.entries, .ok a⟩)
  | .error f => (s, ⟨built.entries, .error f⟩)

/-- Builds a nuclide on the given atom, or on a new atom of its element where none is given. -/
def buildNuclide (s : Store) (zaid ratio atom name : Value) : Store × Outcome NuclideRef :=
  let built := Identity.ofValues s.mark zaid ratio name
  match built.result with
  | .error f => (s, ⟨built.entries, .error f⟩)
  | .ok identity =>
    let placed (s : Store) (a : AtomRef) (entries : List Entry) : Store × Outcome NuclideRef :=
      let (s, n) := s.addNuclide ⟨identity, a, .empty⟩
      (s, ⟨built.entries ++ entries, .ok n⟩)
    match atom with
    | .null =>
      let element := identity.element (s.mark.part 3) ratio
      let (s, a) := s.addAtom ⟨element, .empty⟩
      placed s a [element.passed]
    | .object (.center (.atom a) _) => placed s a []
    | v =>
      (s, ⟨built.entries,
        .error (.data (.unexpectedKind (CenterRef.atom ⟨0⟩).kind v.kind))⟩)

def buildMap (s : Store) (shape : Shape) (category : Value) : Store × MapRef :=
  s.addMap ⟨.empty shape category.plain, category⟩

def assign (s : Store) (r : RecordRef) (f : Field) (v : Value) : Store :=
  s.putRecord r ((s.record r).write f v)

end Store

end ScatteringData
