import ScatteringData.Heap.Basic
import ScatteringData.Store.Duplicate

/-!
# Worlds

A world holds the objects of a run with the containers of their maps. Whoever asks sees a store, in
which each map is what can be read from its containers.
-/

namespace ScatteringData

instance : Inhabited (MapObject Root) := ⟨⟨default, .text "" .shared⟩⟩

instance : Inhabited (Atom Root) := ⟨⟨default, .ofFunction fun _ => default⟩⟩

instance : Inhabited (Nuclide Root) := ⟨⟨default, ⟨0⟩, .ofFunction fun _ => default⟩⟩

section

variable {M N : Type} (f : M → N)

def AtomicMaps.mapMaps (ms : AtomicMaps M) : AtomicMaps N := .ofFunction fun k => f (ms.get k)

def NuclideMaps.mapMaps (ms : NuclideMaps M) : NuclideMaps N := .ofFunction fun k => f (ms.get k)

def Atom.mapMaps (a : Atom M) : Atom N := { a with maps := a.maps.mapMaps f }

def Nuclide.mapMaps (n : Nuclide M) : Nuclide N := { n with maps := n.maps.mapMaps f }

def MapObject.mapMaps (m : MapObject M) : MapObject N := { m with content := f m.content }

def Store.mapMaps (s : Store M) : Store N where
  records := s.records
  atoms := s.atoms.map (Atom.mapMaps f)
  nuclides := s.nuclides.map (Nuclide.mapMaps f)
  maps := s.maps.map (MapObject.mapMaps f)
  caches := s.caches
  time := s.time
  listening := s.listening

end

/-- Where a map belongs: it is an object of its own, or it is kept for a category of a center. -/
inductive Seat
  | map (m : MapRef)
  | atomic (a : AtomRef) (k : AtomicCategory)
  | nuclide (n : NuclideRef) (k : NuclideCategory)
deriving DecidableEq

def Store.at? {M : Type} (s : Store M) : Seat → Option M
  | .map m => s.maps[m.index]?.map (·.content)
  | .atomic a k => s.atoms[a.index]?.map (·.maps.get k)
  | .nuclide n k => s.nuclides[n.index]?.map (·.maps.get k)

def Store.seat? (s : Store) (c : CenterRef) (k : Category) : Option Seat :=
  match k, c with
  | .atomic k, _ => some (.atomic (s.atomOf c) k)
  | .nuclide k, .nuclide n => some (.nuclide n k)
  | .nuclide _, .atom _ => none

structure World where
  objects : Store Root
  heap : Heap

namespace World

def empty : World := ⟨.empty, .empty⟩

/-- The world as it is seen. -/
def store (w : World) : Store := w.objects.mapMaps w.heap.mapAt

def tick (w : World) : World := { w with objects := w.objects.tick }

def new (w : World) (c : Cell) : World × Ref :=
  let (heap, x) := w.heap.new c
  ({ w with heap }, x)

def addAtom (w : World) (a : Atom Root) : World × AtomRef :=
  let (objects, ref) := w.objects.addAtom a
  ({ w with objects }, ref)

def addNuclide (w : World) (n : Nuclide Root) : World × NuclideRef :=
  let (objects, ref) := w.objects.addNuclide n
  ({ w with objects }, ref)

def addMap (w : World) (m : MapObject Root) : World × MapRef :=
  let (objects, ref) := w.objects.addMap m
  ({ w with objects }, ref)

/-! ## New containers -/

section

variable {α : Type}

def makeTable (make : World → α → World × Ref) (w : World) (t : Table α) : World × Ref :=
  let (w, t) := t.rebuild make w
  w.new (.table t)

def makeBucket (f : World → RecordRef → World × RecordRef) (w : World) (b : Bucket) : World × Ref :=
  let (w, b) := b.rebuild f w
  w.new (.bucket b)

end

def placeVersioned (w : World) (m : VersionedMap) : World × Ref :=
  let (w, x) := w.makeTable (makeTable fun w r => (w, .record r)) m.shelves
  (w, .map m.category x)

def placeGraded (w : World) (m : TemperatureMap) : World × Ref :=
  let (w, x) := w.makeTable (makeTable (makeBucket fun w r => (w, r))) m.shelves
  (w, .map m.category x)

def placeNamed (w : World) (m : NamedMap) : World × Ref :=
  let (w, x) := w.makeTable placeGraded m.maps
  (w, .map m.category x)

def placeMap (w : World) (m : RecordMap) : World × Root :=
  let (w, ref) :=
    match m with
    | .versioned m => w.placeVersioned m
    | .temperature m => w.placeGraded m
    | .named m => w.placeNamed m
  (w, ⟨m.shape, ref⟩)

def placeAtom (w : World) (a : Atom) : World :=
  let (w, maps) := a.maps.rebuild placeMap w
  (w.addAtom { a with maps }).1

def placeNuclide (w : World) (n : Nuclide) : World :=
  let (w, maps) := n.maps.rebuild placeMap w
  (w.addNuclide { n with maps }).1

def placeMapObject (w : World) (m : MapObject) : World :=
  let (w, content) := w.placeMap m.content
  (w.addMap { m with content }).1

/-- The world after the store that is seen became another one, by an operation that changes no map and
may add some. All that is new gets containers of its own. -/
def renew (w : World) (t : Store) : World :=
  let atoms := t.atoms.toList.drop w.objects.atoms.size
  let nuclides := t.nuclides.toList.drop w.objects.nuclides.size
  let maps := t.maps.toList.drop w.objects.maps.size
  let w := maps.foldl placeMapObject (nuclides.foldl placeNuclide (atoms.foldl placeAtom w))
  { w with objects := { w.objects with
      records := t.records, caches := t.caches, time := t.time, listening := t.listening } }

def cloneRecord (w : World) (r : RecordRef) : World × RecordRef :=
  let (t, q) := w.store.cloneRecord r
  (w.renew t, q)

end World

end ScatteringData
