import ScatteringData.Center
import ScatteringData.Cache

/-!
# Stores

A store holds all objects of a run. References point into it; they stay valid, since objects are
only added and changed. Its clock tells the moments apart at which values are made.
-/

namespace ScatteringData

structure MapObject (M : Type := RecordMap) where
  content : M
  category : Value

instance : Inhabited MapObject := ⟨⟨default, .text "" .shared⟩⟩

structure Store (M : Type := RecordMap) where
  records : Array Record
  atoms : Array (Atom M)
  nuclides : Array (Nuclide M)
  maps : Array (MapObject M)
  caches : Array Cache
  time : Nat
  /-- Whether somebody reads every journal entry at once. -/
  listening : Bool

namespace Store

variable {M : Type}

def empty : Store M := ⟨#[], #[], #[], #[], #[], 0, false⟩

/-- The mark of what an operation makes now. -/
def mark (s : Store) : Mark := .made s.time [1]

def writtenMark (s : Store) : Mark := .made s.time [0]

def tick (s : Store M) : Store M := { s with time := s.time + 1 }

def size (s : Store) : Nat :=
  s.records.size + s.atoms.size + s.nuclides.size + s.maps.size + s.caches.size

def record (s : Store M) (r : RecordRef) : Record := s.records.getD r.index default

def atom [Inhabited (Atom M)] (s : Store M) (r : AtomRef) : Atom M := s.atoms.getD r.index default

def nuclide [Inhabited (Nuclide M)] (s : Store M) (r : NuclideRef) : Nuclide M :=
  s.nuclides.getD r.index default

def mapObject [Inhabited (MapObject M)] (s : Store M) (r : MapRef) : MapObject M :=
  s.maps.getD r.index default

def map (s : Store) (r : MapRef) : RecordMap := (s.mapObject r).content

def cache (s : Store M) (r : CacheRef) : Cache := s.caches.getD r.index default

def addRecord (s : Store M) (r : Record) : Store M × RecordRef :=
  ({ s with records := s.records.push r }, ⟨s.records.size⟩)

def addAtom (s : Store M) (a : Atom M) : Store M × AtomRef :=
  ({ s with atoms := s.atoms.push a }, ⟨s.atoms.size⟩)

def addNuclide (s : Store M) (n : Nuclide M) : Store M × NuclideRef :=
  ({ s with nuclides := s.nuclides.push n }, ⟨s.nuclides.size⟩)

def addMap (s : Store M) (m : MapObject M) : Store M × MapRef :=
  ({ s with maps := s.maps.push m }, ⟨s.maps.size⟩)

def addCache (s : Store M) (c : Cache) : Store M × CacheRef :=
  ({ s with caches := s.caches.push c }, ⟨s.caches.size⟩)

def putRecord (s : Store M) (r : RecordRef) (x : Record) : Store M :=
  { s with records := s.records.setIfInBounds r.index x }

def putAtom (s : Store) (r : AtomRef) (a : Atom) : Store :=
  { s with atoms := s.atoms.setIfInBounds r.index a }

def putNuclide (s : Store) (r : NuclideRef) (n : Nuclide) : Store :=
  { s with nuclides := s.nuclides.setIfInBounds r.index n }

def putMapObject (s : Store) (r : MapRef) (m : MapObject) : Store :=
  { s with maps := s.maps.setIfInBounds r.index m }

def putMap (s : Store) (r : MapRef) (m : RecordMap) : Store :=
  s.putMapObject r { s.mapObject r with content := m }

def putCache (s : Store M) (r : CacheRef) (c : Cache) : Store M :=
  { s with caches := s.caches.setIfInBounds r.index c }

section

variable (s : Store) (c : CenterRef)

def identity : Identity :=
  match c with
  | .atom a => (s.atom a).identity
  | .nuclide n => (s.nuclide n).identity

/-- The atom that answers for the atomic categories. -/
def atomOf : AtomRef :=
  match c with
  | .atom a => a
  | .nuclide n => (s.nuclide n).atom

def centerMap? (k : Category) : Option RecordMap :=
  match k, c with
  | .atomic k, _ => some ((s.atom (s.atomOf c)).maps.get k)
  | .nuclide k, .nuclide n => some ((s.nuclide n).maps.get k)
  | .nuclide _, .atom _ => none

def putCenterMap (k : Category) (m : RecordMap) : Store :=
  match k, c with
  | .atomic k, _ =>
    let a := s.atomOf c
    let atom := s.atom a
    s.putAtom a { atom with maps := atom.maps.put k m }
  | .nuclide k, .nuclide n =>
    let nuclide := s.nuclide n
    s.putNuclide n { nuclide with maps := nuclide.maps.put k m }
  | .nuclide _, .atom _ => s

end

def recordValue (s : Store) (r : RecordRef) : Value := .object (.record (s.record r).category r)

def centerObject (s : Store) (c : CenterRef) : Object := .center c ((s.identity c).text c.kind)

def answerValue (s : Store) : Answer → Value
  | .truth b => .bool b
  | .key v => v
  | .keys vs => Value.ofMembers vs s.mark
  | .energies es => .list (es.zipIdx.map fun e => .energy e.1 (s.mark.part e.2)) s.mark
  | .temperatures ts => .list (ts.zipIdx.map fun t => .temperature t.1 (s.mark.part t.2)) s.mark
  | .record r => s.recordValue r

def nameOf? (s : Store) : Value → Option Value
  | .object (.center c _) => some (s.identity c).name
  | .object (.record _ r) => (s.record r).name
  | .zaid z _ => some (z.nameValue s.mark)
  | .fileType t => some (.text t.format.constant .shared)
  | .path p _ => some (.text p.name .shared)
  | _ => none

end Store

def CenterRef.categories : CenterRef → List Category
  | .atom _ => AtomicCategory.all.map .atomic
  | .nuclide _ => Category.all

end ScatteringData
