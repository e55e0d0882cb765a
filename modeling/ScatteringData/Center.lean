import ScatteringData.RecordMap

/-!
# Scattering centers

An atom keeps the maps of the four atomic categories of an element. A nuclide keeps the maps of its
own six categories and refers to an atom, which nuclides may share, for the other four. What stands for
a map is left open: it is the map as a value, or the place where its containers are.
-/

namespace ScatteringData

def Zaid.nameValue (z : Zaid) (fresh : Mark) : Value :=
  .text z.name (if z.isAtom then .shared else fresh)

structure Identity where
  zaid : Zaid
  zaidMark : Mark
  ratio : WeightRatio
  ratioMark : Mark
  name : Value

namespace Identity

/-- Reads an identity. The ratio is looked at first; a null name stands for that of the
identifier. What has to be made is a part of the given mark. -/
def ofValues (mark : Mark) (zaid ratio name : Value) : Outcome Identity := do
  let weight ← WeightRatio.ofValue ratio WeightRatio.label
  let z ← Zaid.ofValue zaid
  pure ⟨z, zaid.zaidMark (mark.part 0), weight, ratio.floatMark (mark.part 1),
    if name.isNull then z.nameValue (mark.part 2) else name⟩

def element (i : Identity) (mark : Mark) (ratio : Value) : Identity :=
  let z := i.zaid.atom
  ⟨z, mark.part 0, i.ratio, ratio.floatMark (mark.part 1), z.nameValue (mark.part 2)⟩

def passed (i : Identity) : Entry := .ratioPassed WeightRatio.label i.ratio.value

def weight (i : Identity) : Float := i.ratio.value * neutronMass

def text (i : Identity) (kind : String) : String :=
  let ratio := Decimal.text i.ratio.value
  s!"{kind}(name={i.name.quoted}, zaid={i.zaid.text}, atomic_weight_ratio={ratio})"

end Identity

structure AtomicMaps (M : Type := RecordMap) where
  photoatomic : M
  adjointPhotoatomic : M
  electroatomic : M
  adjointElectroatomic : M

structure NuclideMaps (M : Type := RecordMap) where
  nuclear : M
  adjointNuclear : M
  thermalNuclear : M
  adjointThermalNuclear : M
  photonuclear : M
  adjointPhotonuclear : M

def Category.emptyMap (c : Category) : RecordMap := .empty c.shape c.label

namespace AtomicMaps

variable {M N : Type}

def ofFunction (f : AtomicCategory → M) : AtomicMaps M :=
  ⟨f .photoatomic, f .adjointPhotoatomic, f .electroatomic, f .adjointElectroatomic⟩

def empty : AtomicMaps := ofFunction fun c => (Category.atomic c).emptyMap

def get (ms : AtomicMaps M) : AtomicCategory → M
  | .photoatomic => ms.photoatomic
  | .adjointPhotoatomic => ms.adjointPhotoatomic
  | .electroatomic => ms.electroatomic
  | .adjointElectroatomic => ms.adjointElectroatomic

def put (ms : AtomicMaps M) (c : AtomicCategory) (m : M) : AtomicMaps M :=
  match c with
  | .photoatomic => { ms with photoatomic := m }
  | .adjointPhotoatomic => { ms with adjointPhotoatomic := m }
  | .electroatomic => { ms with electroatomic := m }
  | .adjointElectroatomic => { ms with adjointElectroatomic := m }

/-- Replaces the maps one after the other while a state is passed along. -/
def rebuild {σ : Type} (f : σ → M → σ × N) (s : σ) (ms : AtomicMaps M) : σ × AtomicMaps N :=
  let (s, a) := f s ms.photoatomic
  let (s, b) := f s ms.adjointPhotoatomic
  let (s, c) := f s ms.electroatomic
  let (s, d) := f s ms.adjointElectroatomic
  (s, ⟨a, b, c, d⟩)

@[simp] theorem get_put (ms : AtomicMaps M) (c d : AtomicCategory) (m : M) :
    (ms.put c m).get d = if c = d then m else ms.get d := by
  cases c <;> cases d <;> rfl

end AtomicMaps

namespace NuclideMaps

variable {M N : Type}

def ofFunction (f : NuclideCategory → M) : NuclideMaps M :=
  ⟨f .nuclear, f .adjointNuclear, f .thermalNuclear, f .adjointThermalNuclear, f .photonuclear,
    f .adjointPhotonuclear⟩

def empty : NuclideMaps := ofFunction fun c => (Category.nuclide c).emptyMap

def get (ms : NuclideMaps M) : NuclideCategory → M
  | .nuclear => ms.nuclear
  | .adjointNuclear => ms.adjointNuclear
  | .thermalNuclear => ms.thermalNuclear
  | .adjointThermalNuclear => ms.adjointThermalNuclear
  | .photonuclear => ms.photonuclear
  | .adjointPhotonuclear => ms.adjointPhotonuclear

def put (ms : NuclideMaps M) (c : NuclideCategory) (m : M) : NuclideMaps M :=
  match c with
  | .nuclear => { ms with nuclear := m }
  | .adjointNuclear => { ms with adjointNuclear := m }
  | .thermalNuclear => { ms with thermalNuclear := m }
  | .adjointThermalNuclear => { ms with adjointThermalNuclear := m }
  | .photonuclear => { ms with photonuclear := m }
  | .adjointPhotonuclear => { ms with adjointPhotonuclear := m }

@[inherit_doc AtomicMaps.rebuild]
def rebuild {σ : Type} (f : σ → M → σ × N) (s : σ) (ms : NuclideMaps M) : σ × NuclideMaps N :=
  let (s, a) := f s ms.nuclear
  let (s, b) := f s ms.adjointNuclear
  let (s, c) := f s ms.thermalNuclear
  let (s, d) := f s ms.adjointThermalNuclear
  let (s, e) := f s ms.photonuclear
  let (s, g) := f s ms.adjointPhotonuclear
  (s, ⟨a, b, c, d, e, g⟩)

@[simp] theorem get_put (ms : NuclideMaps M) (c d : NuclideCategory) (m : M) :
    (ms.put c m).get d = if c = d then m else ms.get d := by
  cases c <;> cases d <;> rfl

end NuclideMaps

structure Atom (M : Type := RecordMap) where
  identity : Identity
  maps : AtomicMaps M

structure Nuclide (M : Type := RecordMap) where
  identity : Identity
  atom : AtomRef
  maps : NuclideMaps M

instance : Inhabited Identity :=
  ⟨⟨default, .shared, ⟨1.0, by decide, by decide⟩, .shared, (default : Zaid).nameValue .shared⟩⟩

instance : Inhabited Atom := ⟨⟨default, .empty⟩⟩

instance : Inhabited Nuclide := ⟨⟨default, ⟨0⟩, .empty⟩⟩

end ScatteringData
