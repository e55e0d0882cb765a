import ScatteringData.World.Basic
import ScatteringData.Store.Copying

/-!
# Copying containers

A copy is made level by level: every container gets a new one, which holds copies of what the old one
holds. Only the records may be the same.
-/

namespace ScatteringData

namespace World

section

variable (f : World → RecordRef → World × RecordRef)

def copyRecordRef (w : World) : Ref → World × Ref
  | .record r =>
    let (w, r) := f w r
    (w, .record r)
  | x => (w, x)

def copyBucket (w : World) (x : Ref) : World × Ref := w.makeBucket f (w.heap.bucketAt x)

def copyTable (g : World → Ref → World × Ref) (w : World) (x : Ref) : World × Ref :=
  w.makeTable g (w.heap.tableAt x)

def copyContents (g : World → Ref → World × Ref) (w : World) : Ref → World × Ref
  | .map category contents =>
    let (w, contents) := g w contents
    (w, .map category contents)
  | x => (w, x)

def copyVersioned : World → Ref → World × Ref := copyContents (copyTable (copyTable (copyRecordRef f)))

def copyGraded : World → Ref → World × Ref := copyContents (copyTable (copyTable (copyBucket f)))

def copyNamed : World → Ref → World × Ref := copyContents (copyTable (copyGraded f))

def copyRoot (w : World) (x : Root) : World × Root :=
  let (w, ref) :=
    match x.shape with
    | .versioned => w.copyVersioned f x.ref
    | .temperature => w.copyGraded f x.ref
    | .named => w.copyNamed f x.ref
  (w, { x with ref })

end

def passRecord (deep : Bool) (w : World) (r : RecordRef) : World × RecordRef :=
  if deep then w.cloneRecord r else (w, r)

def passMap (deep : Bool) : World → Root → World × Root := copyRoot (passRecord deep)

def copyMap (w : World) (m : MapRef) (deep : Bool) : World × MapRef :=
  let object := w.objects.mapObject m
  let (w, content) := w.passMap deep object.content
  w.addMap { object with content }

def copyAtom (w : World) (a : AtomRef) (deep : Bool) : World × List Entry × AtomRef :=
  let atom := w.objects.atom a
  let (w, maps) := atom.maps.rebuild (passMap deep) w
  let (w, copy) := w.addAtom { atom with maps }
  let announced := if deep then [.deepCloning true atom.identity.name] else []
  (w, announced ++ [atom.identity.passed], copy)

def addNuclideOn (w : World) (nuclide : Nuclide Root) (a : AtomRef) (deep : Bool) : World × NuclideRef :=
  let (w, maps) := nuclide.maps.rebuild (passMap deep) w
  w.addNuclide { nuclide with atom := a, maps }

def copyNuclide (w : World) (n : NuclideRef) (depth : Depth) : World × List Entry × NuclideRef :=
  let nuclide := w.objects.nuclide n
  let passed := nuclide.identity.passed
  match depth with
  | .maps =>
    let (w, copy) := w.addNuclideOn nuclide nuclide.atom false
    (w, [passed], copy)
  | .records =>
    let (w, copy) := w.addNuclideOn nuclide nuclide.atom true
    (w, [.partiallyDeepCloning nuclide.identity.name, passed], copy)
  | .everything =>
    let (w, copied, atom) := w.copyAtom nuclide.atom true
    let (w, copy) := w.addNuclideOn nuclide atom true
    (w, .deepCloning false nuclide.identity.name :: copied ++ [passed], copy)

def copyCenter (w : World) (c : CenterRef) (depth : Depth) : World × List Entry × CenterRef :=
  match c with
  | .atom a =>
    let (w, entries, copy) := w.copyAtom a (depth ≠ .maps)
    (w, entries, .atom copy)
  | .nuclide n =>
    let (w, entries, copy) := w.copyNuclide n depth
    (w, entries, .nuclide copy)

end World

end ScatteringData
