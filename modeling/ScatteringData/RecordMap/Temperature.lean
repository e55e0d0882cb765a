import ScatteringData.Grid
import ScatteringData.RecordMap.Versioned

/-!
# Records by file type, version and evaluation temperature

Each file type and version has a bucket of records in ascending order of their energies. A record
replaces the first one of its bucket that matches its energy within the tolerance. A file type that
was written over the temperature makes a bucket of its own, which no query by temperature can read.
-/

namespace ScatteringData

inductive Bucket
  /-- Records under their energies in MeV, ascending. -/
  | graded (entries : List (Energy × RecordRef))
  /-- The only record, under a text that is no numeral. -/
  | lone (text : String) (record : RecordRef)

namespace Bucket

def empty : Bucket := graded []

def isEmpty : Bucket → Bool
  | graded es => es.isEmpty
  | lone _ _ => false

def records : Bucket → List RecordRef
  | graded es => es.map (·.2)
  | lone _ r => [r]

def energies : Bucket → Except Fault (List Energy)
  | graded es => .ok (es.map (·.1))
  | lone text _ => .error (.notDouble (.text text .shared))

def temperatures : Bucket → Except Fault (List Temperature)
  | graded es => es.mapM fun e => e.1.toTemperature
  | lone _ _ => .error .wrongType

def grid (es : List (Energy × RecordRef)) : List Float := es.map (·.1.mev)

def insert (e : Energy) (r : RecordRef) : List (Energy × RecordRef) → List (Energy × RecordRef)
  | [] => [(e, r)]
  | x :: xs =>
    if e.mev < x.1.mev then (e, r) :: x :: xs
    else if e.mev == x.1.mev then (x.1, r) :: xs
    else x :: insert e r xs

/-- The entries without the first one that matches the energy, and whether there was one. -/
def evict (es : List (Energy × RecordRef)) (e : Energy) : List (Energy × RecordRef) × Bool :=
  match Grid.firstMatch? (grid es) e.mev with
  | some i => (es.eraseIdx i, true)
  | none => (es, false)

/-- Sets a record under its grade, and tells whether another one went. A text is taken only by an
empty bucket, and nothing is set beside it. -/
def set (b : Bucket) (g : Grade) (r : RecordRef) : Except Fault (Bucket × Bool) :=
  match b, g with
  | lone text _, _ => .error (.notDouble (.text text .shared))
  | graded es, .energy e =>
    let (rest, replaced) := evict es e
    .ok (graded (insert e r rest), replaced)
  | graded [], .text s => .ok (lone s r, false)
  | graded (_ :: _), .text _ => .error (.textQuery true)

def hasMatch (b : Bucket) (query : Float) : Except Fault Bool := do
  let es ← b.energies
  pure (Grid.firstMatch? (es.map (·.mev)) query).isSome

def resolve? (b : Bucket) (query : Float) (exact : Bool) :
    Except Fault (Option (Energy × RecordRef)) :=
  match b with
  | graded es => .ok ((Grid.find? (grid es) query exact).bind fun i => es[i]?)
  | lone text _ => .error (.notDouble (.text text .shared))

def rebuildEntries {σ : Type} (f : σ → RecordRef → σ × RecordRef) :
    σ → List (Energy × RecordRef) → σ × List (Energy × RecordRef)
  | s, [] => (s, [])
  | s, x :: xs =>
    let (s, r) := f s x.2
    let (s, xs) := rebuildEntries f s xs
    (s, (x.1, r) :: xs)

def rebuild {σ : Type} (f : σ → RecordRef → σ × RecordRef) (s : σ) : Bucket → σ × Bucket
  | graded es => let (s, es) := rebuildEntries f s es; (s, graded es)
  | lone text r => let (s, r) := f s r; (s, lone text r)

end Bucket

structure TemperatureMap where
  category : String
  shelves : Shelves Bucket

namespace TemperatureMap

def empty (category : String) : TemperatureMap := ⟨category, Table.empty⟩

def setEntries (m : TemperatureMap) (r : Record) (g : Grade) (replaced : Bool) : List Entry :=
  let slot : Slot := ⟨m.category, r.fileType, r.fileVersion, some g⟩
  (if replaced then [.replacing slot] else []) ++ [.stored slot]

/-- Sets a record under its own file type, version and grade. The keys are entered one by one, so
that those before an unusable one remain. -/
def set (m : TemperatureMap) (ref : RecordRef) (r : Record) : TemperatureMap × Outcome Unit :=
  match Label.ofValue r.fileType with
  | .error f => (m, .fail f)
  | .ok fileType =>
    let shelf := (m.shelves.get? fileType.key).getD Table.empty
    match Label.ofValue r.fileVersion with
    | .error f => ({ m with shelves := m.shelves.put fileType shelf }, .fail f)
    | .ok version =>
      let bucket := (shelf.get? version.key).getD .empty
      let entered (b : Bucket) : TemperatureMap :=
        { m with shelves := m.shelves.put fileType (shelf.put version b) }
      match r.grade with
      | .error f => (entered bucket, .fail f)
      | .ok g =>
        match bucket.set g ref with
        | .error f => (entered bucket, .fail f)
        | .ok (b, replaced) =>
          (entered b, ⟨m.setEntries r g replaced, .ok ()⟩)

def fileTypes (m : TemperatureMap) : List Value := m.shelves.labels

def versions (m : TemperatureMap) (fileType : Value) : Except Fault (List Value) :=
  m.shelves.versions fileType

def recommendedVersion (m : TemperatureMap) (fileType : Value) : Except Fault Value :=
  m.shelves.recommendedVersion m.category fileType

def buckets (m : TemperatureMap) (fileType version : Value) : Except Fault (List Bucket) := do
  let shelves ←
    if fileType.isNull then pure m.shelves.contents
    else pure (← m.shelves.find fileType).toList
  if version.isNull then pure (shelves.flatMap Table.contents)
  else
    let found ← shelves.mapM fun shelf => shelf.find version
    pure (found.filterMap id)

/-- Whether a record with the given keys is set; a null stands for any. A temperature has to
match within the tolerance. -/
def available (m : TemperatureMap) (fileType version temperature : Value) :
    Except Fault Bool := do
  if temperature.isNull then m.shelves.available fileType version
  else
    let query ← temperature.toMev
    let bs ← m.buckets fileType version
    bs.anyM fun b => b.hasMatch query

def bucket (m : TemperatureMap) (fileType version : Value) : Except Fault Bucket := do
  let shelf := (← m.shelves.find fileType).getD Table.empty
  pure ((← shelf.find version).getD .empty)

def energies (m : TemperatureMap) (fileType version : Value) : Except Fault (List Energy) := do
  (← m.bucket fileType version).energies

def temperatures (m : TemperatureMap) (fileType version : Value) :
    Except Fault (List Temperature) := do
  (← m.bucket fileType version).temperatures

def get (m : TemperatureMap) (fileType version temperature : Value) (exact : Bool) :
    Outcome RecordRef := do
  let b ← m.shelves.get m.category fileType version
  if b.isEmpty then
    Outcome.fail (.raised (.request (.unknownVersion m.category fileType version)))
  else
    let query ← temperature.toMev
    match ← b.resolve? query exact with
    | none => Outcome.fail (.raised (.unsatisfiable m.category fileType version query))
    | some (e, r) =>
      if !exact && e.mev != query then
        Outcome.note (.resolved m.category query e.mev)
      pure r

def records (m : TemperatureMap) : List RecordRef := m.shelves.items.flatMap Bucket.records

def rebuild {σ : Type} (f : σ → RecordRef → σ × RecordRef) (s : σ) (m : TemperatureMap) :
    σ × TemperatureMap :=
  let (s, shelves) := m.shelves.rebuild (Bucket.rebuild f) s
  (s, { m with shelves })

end TemperatureMap

end ScatteringData
