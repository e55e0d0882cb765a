import ScatteringData.Table
import ScatteringData.Record
import ScatteringData.Outcome

/-!
# Records by file type and version

The structure that maps of versioned records share, and the map that keeps one record for each file
type and version. The last record set under a key is the one that is found.
-/

namespace ScatteringData

/-- Contents by file type, then by version. -/
abbrev Shelves (α : Type) := Table (Table α)

namespace Shelves

variable {α β σ : Type}

def versions (s : Shelves α) (fileType : Value) : Except Fault (List Value) := do
  match ← s.find fileType with
  | some shelf => pure shelf.labels
  | none => pure []

def recommendedVersion (s : Shelves α) (category : String) (fileType : Value) :
    Except Fault Value := do
  let absent : Fault := .raised (.request (.unknownFileType category fileType))
  match ← s.find fileType with
  | none => .error absent
  | some shelf =>
    if shelf.isEmpty then .error absent
    else
      match Value.greatest? shelf.labels with
      | some v => pure v
      | none => .error .wrongType

/-- Whether anything is kept under a file type and version; a null stands for any. Without a file
type the version is not looked at. -/
def available (s : Shelves α) (fileType version : Value) : Except Fault Bool := do
  if fileType.isNull then pure !s.isEmpty
  else
    match ← s.find fileType with
    | none => pure false
    | some shelf =>
      if version.isNull then pure true else pure (← shelf.find version).isSome

def get (s : Shelves α) (category : String) (fileType version : Value) : Except Fault α := do
  let absent : Fault := .raised (.request (.unknownVersion category fileType version))
  match ← s.find fileType with
  | none => .error absent
  | some shelf =>
    match ← shelf.find version with
    | none => .error absent
    | some a => pure a

def items (s : Shelves α) : List α := s.contents.flatMap Table.contents

def rebuild (f : σ → α → σ × β) (s : σ) (t : Shelves α) : σ × Shelves β :=
  Table.rebuild (Table.rebuild f) s t

end Shelves

structure VersionedMap where
  category : String
  shelves : Shelves RecordRef

namespace VersionedMap

def empty (category : String) : VersionedMap := ⟨category, Table.empty⟩

/-- Sets a record under its own file type and version. A version that cannot be a key is noticed
only after its file type was entered. -/
def set (m : VersionedMap) (ref : RecordRef) (r : Record) : VersionedMap × Outcome Unit :=
  match Label.ofValue r.fileType with
  | .error f => (m, .fail f)
  | .ok fileType =>
    let shelf := (m.shelves.get? fileType.key).getD Table.empty
    match Label.ofValue r.fileVersion with
    | .error f => ({ m with shelves := m.shelves.put fileType shelf }, .fail f)
    | .ok version =>
      let slot : Slot := ⟨m.category, r.fileType, r.fileVersion, none⟩
      let replaced := if shelf.contains version.key then [.replacing slot] else []
      ({ m with shelves := m.shelves.put fileType (shelf.put version ref) },
        ⟨replaced ++ [.stored slot], .ok ()⟩)

def fileTypes (m : VersionedMap) : List Value := m.shelves.labels

def versions (m : VersionedMap) (fileType : Value) : Except Fault (List Value) :=
  m.shelves.versions fileType

def recommendedVersion (m : VersionedMap) (fileType : Value) : Except Fault Value :=
  m.shelves.recommendedVersion m.category fileType

def available (m : VersionedMap) (fileType version : Value) : Except Fault Bool :=
  m.shelves.available fileType version

def get (m : VersionedMap) (fileType version : Value) : Except Fault RecordRef :=
  m.shelves.get m.category fileType version

def records (m : VersionedMap) : List RecordRef := m.shelves.items

def rebuild {σ : Type} (f : σ → RecordRef → σ × RecordRef) (s : σ) (m : VersionedMap) :
    σ × VersionedMap :=
  let (s, shelves) := m.shelves.rebuild f s
  (s, { m with shelves })

end VersionedMap

end ScatteringData
