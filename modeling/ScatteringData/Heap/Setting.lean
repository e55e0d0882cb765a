import ScatteringData.Heap.Basic

/-!
# Setting records in place

A set enters the levels of a map that are missing, and changes the innermost containers where they lie.
A bucket is changed first and then replaced in its table by a sorted one.
-/

namespace ScatteringData

namespace Bucket

/-- Puts a record under an energy: where that energy is, or at the end. -/
def putEntry (e : Energy) (r : RecordRef) : List (Energy × RecordRef) → List (Energy × RecordRef)
  | [] => [(e, r)]
  | x :: xs => if e.mev == x.1.mev then (x.1, r) :: xs else x :: putEntry e r xs

/-- A bucket after a record was put in it and before it is sorted. -/
def put (b : Bucket) (g : Grade) (r : RecordRef) : Bucket :=
  match b, g with
  | graded es, .energy e => graded (putEntry e r (evict es e).1)
  | _, .text s => lone s r
  | b, _ => b

end Bucket

namespace Heap

def putRecord (h : Heap) (x : Ref) (g : Grade) (r : RecordRef) : Heap :=
  match x with
  | .container a => h.write a (.bucket ((h.bucketAt x).put g r))
  | _ => h

def setVersioned (h : Heap) (category : String) (shelves : Ref) (ref : RecordRef) (r : Record) :
    Heap × Outcome Unit :=
  match Label.ofValue r.fileType with
  | .error f => (h, .fail f)
  | .ok fileType =>
    let (h, shelf) := h.enter shelves fileType (.table .empty)
    match Label.ofValue r.fileVersion with
    | .error f => (h, .fail f)
    | .ok version =>
      let slot : Slot := ⟨category, r.fileType, r.fileVersion, none⟩
      let replaced := if (h.tableAt shelf).contains version.key then [.replacing slot] else []
      (h.put shelf version (.record ref), ⟨replaced ++ [.stored slot], .ok ()⟩)

def setGraded (h : Heap) (category : String) (shelves : Ref) (ref : RecordRef) (r : Record) :
    Heap × Outcome Unit :=
  match Label.ofValue r.fileType with
  | .error f => (h, .fail f)
  | .ok fileType =>
    let (h, shelf) := h.enter shelves fileType (.table .empty)
    match Label.ofValue r.fileVersion with
    | .error f => (h, .fail f)
    | .ok version =>
      let (h, leaf) := h.enter shelf version (.bucket .empty)
      match r.grade with
      | .error f => (h, .fail f)
      | .ok g =>
        match (h.bucketAt leaf).set g ref with
        | .error f => (h, .fail f)
        | .ok (sorted, replaced) =>
          let slot : Slot := ⟨category, r.fileType, r.fileVersion, some g⟩
          let (h, bucket) := (h.putRecord leaf g ref).new (.bucket sorted)
          (h.put shelf version bucket,
            ⟨(if replaced then [.replacing slot] else []) ++ [.stored slot], .ok ()⟩)

/-- The map under a name in the table at a reference; an empty one is entered for a name that is new. -/
def inner (h : Heap) (category : String) (maps : Ref) (name : Label) : Except Fault (Heap × Ref) :=
  match (h.tableAt maps).get? name.key with
  | some x => .ok (h, x)
  | none => do
    let category ← NamedMap.subcategory category name.shown
    let (h, shelves) := h.new (.table .empty)
    let x := Ref.map category shelves
    pure (h.put maps name x, x)

def setNamed (h : Heap) (category : String) (maps : Ref) (ref : RecordRef) (r : Record) :
    Heap × Outcome Unit :=
  match r.name with
  | none => (h, .fail .noAttribute)
  | some name =>
    match Label.ofValue name with
    | .error f => (h, .fail f)
    | .ok label =>
      match h.inner category maps label with
      | .error f => (h, .fail f)
      | .ok (h, .map category shelves) => h.setGraded category shelves ref r
      | .ok (h, _) => (h, .fail .noAttribute)

def set (h : Heap) (x : Root) (ref : RecordRef) (r : Record) : Heap × Outcome Unit :=
  match x.shape, x.ref with
  | .versioned, .map category contents => h.setVersioned category contents ref r
  | .temperature, .map category contents => h.setGraded category contents ref r
  | .named, .map category contents => h.setNamed category contents ref r
  | _, _ => (h, .fail .noAttribute)

/-- What setting a value that has a name but is no record leaves behind in a map with names. -/
def setUnusable (h : Heap) (x : Root) (name : Value) : Heap × Outcome Unit :=
  match x.shape, x.ref with
  | .named, .map category contents =>
    match Label.ofValue name with
    | .error f => (h, .fail f)
    | .ok label =>
      match h.inner category contents label with
      | .error f => (h, .fail f)
      | .ok (h, _) => (h, .fail .noAttribute)
  | _, _ => (h, .fail .noAttribute)

end Heap

end ScatteringData
