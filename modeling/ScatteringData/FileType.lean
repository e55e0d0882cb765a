import ScatteringData.Category

/-!
# File types

A category admits a few file formats. A file type is one of them together with its category; it is
written as the text of the format.
-/

namespace ScatteringData

inductive Format
  | ace | aceEpr | nativeEpr | nativeEndl | native
deriving DecidableEq, Repr

namespace Format

def text : Format → String
  | ace => "ACE"
  | aceEpr => "ACE EPR"
  | nativeEpr => "Native EPR"
  | nativeEndl => "Native ENDL"
  | native => "Native"

def constant : Format → String
  | ace => "ACE_FILE"
  | aceEpr => "ACE_EPR_FILE"
  | nativeEpr => "NATIVE_EPR_FILE"
  | nativeEndl => "NATIVE_ENDL_FILE"
  | native => "NATIVE_FILE"

theorem text_injective {a b : Format} (h : a.text = b.text) : a = b := by
  cases a <;> cases b <;> simp_all [text]

end Format

def Category.formats : Category → List Format
  | .atomic .photoatomic => [.ace, .aceEpr, .nativeEpr]
  | .atomic .adjointPhotoatomic => [.nativeEpr]
  | .atomic .electroatomic => [.ace, .aceEpr, .nativeEpr, .nativeEndl]
  | .atomic .adjointElectroatomic => [.nativeEpr, .nativeEndl]
  | .nuclide .nuclear | .nuclide .thermalNuclear | .nuclide .photonuclear => [.ace, .native]
  | .nuclide .adjointNuclear | .nuclide .adjointThermalNuclear
  | .nuclide .adjointPhotonuclear => [.native]

def FileType.familyKind : String := "FileType"

structure FileType where
  category : Category
  format : Format
  admitted : format ∈ category.formats
deriving DecidableEq

namespace FileType

def text (t : FileType) : String := t.format.text

def ofText? (c : Category) (s : String) : Option FileType :=
  match h : c.formats.find? fun f => f.text == s with
  | some f => some ⟨c, f, List.mem_of_find?_eq_some h⟩
  | none => none

end FileType

end ScatteringData
