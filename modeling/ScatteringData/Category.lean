/-!
# Categories of data

Ten kinds of evaluated data: four belong to an element, six to a nuclide. Each has an adjoint
partner. The category fixes by which keys its records are found.
-/

namespace ScatteringData

inductive AtomicCategory
  | photoatomic | adjointPhotoatomic | electroatomic | adjointElectroatomic
deriving DecidableEq, Repr

inductive NuclideCategory
  | nuclear | adjointNuclear
  | thermalNuclear | adjointThermalNuclear
  | photonuclear | adjointPhotonuclear
deriving DecidableEq, Repr

inductive Category
  | atomic (c : AtomicCategory)
  | nuclide (c : NuclideCategory)
deriving DecidableEq, Repr

/-- The keys of a category: file type and version; then also an evaluation temperature; then also a
name in front. -/
inductive Shape
  | versioned | temperature | named
deriving DecidableEq, Repr

namespace AtomicCategory

def all : List AtomicCategory :=
  [photoatomic, adjointPhotoatomic, electroatomic, adjointElectroatomic]

def words : AtomicCategory → List String
  | photoatomic => ["photoatomic"]
  | adjointPhotoatomic => ["adjoint", "photoatomic"]
  | electroatomic => ["electroatomic"]
  | adjointElectroatomic => ["adjoint", "electroatomic"]

end AtomicCategory

namespace NuclideCategory

def all : List NuclideCategory :=
  [nuclear, adjointNuclear, thermalNuclear, adjointThermalNuclear, photonuclear,
    adjointPhotonuclear]

def words : NuclideCategory → List String
  | nuclear => ["nuclear"]
  | adjointNuclear => ["adjoint", "nuclear"]
  | thermalNuclear => ["thermal", "nuclear"]
  | adjointThermalNuclear => ["adjoint", "thermal", "nuclear"]
  | photonuclear => ["photonuclear"]
  | adjointPhotonuclear => ["adjoint", "photonuclear"]

def shape : NuclideCategory → Shape
  | nuclear | adjointNuclear => .temperature
  | thermalNuclear | adjointThermalNuclear => .named
  | photonuclear | adjointPhotonuclear => .versioned

end NuclideCategory

namespace Category

def all : List Category :=
  AtomicCategory.all.map atomic ++ NuclideCategory.all.map nuclide

def words : Category → List String
  | atomic c => c.words
  | nuclide c => c.words

def shape : Category → Shape
  | atomic _ => .versioned
  | nuclide c => c.shape

def label (c : Category) : String := " ".intercalate c.words

def slug (c : Category) : String := "_".intercalate c.words

def title (c : Category) : String := String.join (c.words.map String.capitalize)

def recordKind (c : Category) : String := c.title ++ "DataProperties"

def fileTypeKind (c : Category) : String := c.title ++ "FileType"

end Category

end ScatteringData
