import ScatteringData.RecordMap

/-!
# Containers

The tables and the buckets that maps are made of are objects of their own. They lie in a heap and hold
references to each other; whoever has a reference to a container sees every change of it.
-/

namespace ScatteringData

abbrev Location := Nat

/-- What a table holds under a label: a record, a container, or a map with its outermost container. -/
inductive Ref
  | record (r : RecordRef)
  | container (a : Location)
  | map (category : String) (contents : Ref)

inductive Cell
  | table (t : Table Ref)
  | bucket (b : Bucket)

structure Heap where
  cells : Array Cell

namespace Heap

def empty : Heap := ⟨#[]⟩

def size (h : Heap) : Nat := h.cells.size

def get? (h : Heap) (a : Location) : Option Cell := h.cells[a]?

def new (h : Heap) (c : Cell) : Heap × Ref := (⟨h.cells.push c⟩, .container h.size)

def write (h : Heap) (a : Location) (c : Cell) : Heap := ⟨h.cells.setIfInBounds a c⟩

def tableAt (h : Heap) : Ref → Table Ref
  | .container a =>
    match h.get? a with
    | some (.table t) => t
    | _ => .empty
  | _ => .empty

def bucketAt (h : Heap) : Ref → Bucket
  | .container a =>
    match h.get? a with
    | some (.bucket b) => b
    | _ => .empty
  | _ => .empty

def put (h : Heap) (x : Ref) (l : Label) (y : Ref) : Heap :=
  match x with
  | .container a => h.write a (.table ((h.tableAt x).put l y))
  | _ => h

/-- What the table at a reference holds under a label; the given container, if that is new. -/
def enter (h : Heap) (x : Ref) (l : Label) (c : Cell) : Heap × Ref :=
  match (h.tableAt x).get? l.key with
  | some y => (h, y)
  | none =>
    let (h, y) := h.new c
    (h.put x l y, y)

end Heap

/-- How a value of a type lies in a heap: what can be read at a reference, and the locations of all the
containers that it is made of. -/
abbrev Layout (α : Type) := Heap → Ref → Option (α × List Location)

namespace Layout

variable {α β : Type}

def record : Layout RecordRef
  | _, .record r => some (r, [])
  | _, _ => none

def bucket : Layout Bucket
  | h, .container a =>
    match h.get? a with
    | some (.bucket b) => some (b, [a])
    | _ => none
  | _, _ => none

def readAll (L : Layout α) (h : Heap) : List (Label × Ref) → Option (List (Label × α) × List Location)
  | [] => some ([], [])
  | e :: es => do
    let (a, within) ← L h e.2
    let (as, rest) ← readAll L h es
    pure ((e.1, a) :: as, within ++ rest)

def table (L : Layout α) : Layout (Table α)
  | h, .container a =>
    match h.get? a with
    | some (.table t) => (readAll L h t.entries).map fun x => (⟨x.1⟩, a :: x.2)
    | _ => none
  | _, _ => none

def map (make : String → α → β) (L : Layout α) : Layout β
  | h, .map category x => (L h x).map fun y => (make category y.1, y.2)
  | _, _ => none

def graded : Layout TemperatureMap := map .mk (table (table bucket))

def ofShape : Shape → Layout RecordMap
  | .versioned => map (fun category shelves => .versioned ⟨category, shelves⟩) (table (table record))
  | .temperature => map (fun category shelves => .temperature ⟨category, shelves⟩) (table (table bucket))
  | .named => map (fun category maps => .named ⟨category, maps⟩) (table graded)

end Layout

structure Root where
  shape : Shape
  ref : Ref

instance : Inhabited Root := ⟨⟨.versioned, .map "" (.container 0)⟩⟩

namespace Heap

def read? (h : Heap) (x : Root) : Option (RecordMap × List Location) := Layout.ofShape x.shape h x.ref

def mapAt (h : Heap) (x : Root) : RecordMap := ((h.read? x).map (·.1)).getD default

end Heap

end ScatteringData
