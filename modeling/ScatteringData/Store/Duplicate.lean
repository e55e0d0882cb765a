import ScatteringData.Store.Basic

/-!
# Duplicates

A duplicate of a record shares nothing with it that can change. All objects that it refers to,
directly or through others, are duplicated with it, each of them once, so that references among
them lead from duplicate to duplicate.
-/

namespace ScatteringData

namespace Value

mutual

def nodes : Value → List Node
  | list vs _ => nodesAll vs
  | set vs _ => nodesAll vs
  | object o => [o.node]
  | _ => []

def nodesAll : List Value → List Node
  | [] => []
  | v :: vs => v.nodes ++ nodesAll vs

end

end Value

namespace Record

def contents (r : Record) : List Value :=
  [r.zaid, r.fileType, r.fileVersion, r.filePath, r.fileStartLine, r.tableName] ++
    r.evaluationTemperature.toList ++ r.name.toList ++ r.zaids.toList ++ r.others.map (·.2)

def nodes (r : Record) : List Node := Value.nodesAll r.contents

end Record

def Table.nodes {α : Type} (content : α → List Node) (t : Table α) : List Node :=
  t.entries.flatMap fun e => e.1.shown.nodes ++ content e.2

def Bucket.nodes (b : Bucket) : List Node := b.records.map .record

def TemperatureMap.nodes (m : TemperatureMap) : List Node :=
  m.shelves.nodes (Table.nodes Bucket.nodes)

def RecordMap.nodes : RecordMap → List Node
  | versioned m => m.shelves.nodes (Table.nodes fun r => [.record r])
  | temperature m => m.nodes
  | named m => m.maps.nodes TemperatureMap.nodes

def MapObject.nodes (m : MapObject) : List Node := m.category.nodes ++ m.content.nodes

def Atom.nodes (a : Atom) : List Node :=
  a.identity.name.nodes ++ AtomicCategory.all.flatMap fun c => (a.maps.get c).nodes

def Nuclide.nodes (n : Nuclide) : List Node :=
  n.identity.name.nodes ++ .center (.atom n.atom) ::
    NuclideCategory.all.flatMap fun c => (n.maps.get c).nodes

def Cache.nodes (c : Cache) : List Node :=
  c.kept.nodes (fun o => [o.node]) ++ c.aliases.nodes Value.nodes

/-- One duplication: the number in the marks of its copies, and where the copies of objects are. -/
structure Duplication where
  number : Nat
  places : List (Node × Node)

namespace Duplication

variable (d : Duplication)

def mark (m : Mark) : Mark := .copied d.number m

def record (r : RecordRef) : RecordRef :=
  match d.places.lookup (.record r) with
  | some (.record q) => q
  | _ => r

def atom (a : AtomRef) : AtomRef :=
  match d.places.lookup (.center (.atom a)) with
  | some (.center (.atom b)) => b
  | _ => a

def center (c : CenterRef) : CenterRef :=
  match d.places.lookup (.center c) with
  | some (.center b) => b
  | _ => c

def map (m : MapRef) : MapRef :=
  match d.places.lookup (.map m) with
  | some (.map n) => n
  | _ => m

def cache (c : CacheRef) : CacheRef :=
  match d.places.lookup (.cache c) with
  | some (.cache b) => b
  | _ => c

def object : Object → Object
  | .record kind r => .record kind (d.record r)
  | .center c caption => .center (d.center c) caption
  | .map shape m => .map shape (d.map m)
  | .cache c => .cache (d.cache c)

mutual

/-- The copy of a value. Numbers, texts and file types are not copied. -/
def value : Value → Value
  | .energy e m => .energy e (d.mark m)
  | .temperature t m => .temperature t (d.mark m)
  | .zaid z m => .zaid z (d.mark m)
  | .path p m => .path p (d.mark m)
  | .list vs m => .list (valueAll vs) (d.mark m)
  | .zaids zs m => .zaids (zs.map fun z => (z.1, d.mark z.2)) (d.mark m)
  | .set vs m => .set (valueAll vs) (d.mark m)
  | .object o => .object (d.object o)
  | v => v

def valueAll : List Value → List Value
  | [] => []
  | v :: vs => value v :: valueAll vs

end

theorem isSome_key?_value (v : Value) : (d.value v).key?.isSome = v.key?.isSome := by
  cases v with
  | object o => cases o <;> simp [value, object, Value.key?]
  | _ => simp [value, Value.key?]

def label (l : Label) : Label :=
  have h : (d.value l.shown).key?.isSome = true := by
    rw [isSome_key?_value, l.key_shown]; rfl
  ⟨d.value l.shown, (d.value l.shown).key?.get h, (Option.some_get h).symm⟩

def table {α : Type} (content : α → α) (t : Table α) : Table α :=
  ⟨t.entries.map fun e => (d.label e.1, content e.2)⟩

def bucket : Bucket → Bucket
  | .graded es => .graded (es.map fun e => (e.1, d.record e.2))
  | .lone text r => .lone text (d.record r)

def temperatureMap (m : TemperatureMap) : TemperatureMap :=
  { m with shelves := d.table (d.table d.bucket) m.shelves }

def recordMap : RecordMap → RecordMap
  | .versioned m => .versioned { m with shelves := d.table (d.table d.record) m.shelves }
  | .temperature m => .temperature (d.temperatureMap m)
  | .named m => .named { m with maps := d.table d.temperatureMap m.maps }

def mapObject (m : MapObject) : MapObject := ⟨d.recordMap m.content, d.value m.category⟩

def recordContent (r : Record) : Record where
  category := r.category
  zaid := d.value r.zaid
  fileType := d.value r.fileType
  fileVersion := d.value r.fileVersion
  filePath := d.value r.filePath
  fileStartLine := d.value r.fileStartLine
  tableName := d.value r.tableName
  evaluationTemperature := r.evaluationTemperature.map d.value
  name := r.name.map d.value
  zaids := r.zaids.map d.value
  others := r.others.map fun f => (f.1, d.value f.2)

def identity (i : Identity) : Identity :=
  { i with zaidMark := d.mark i.zaidMark, name := d.value i.name }

def atomContent (a : Atom) : Atom :=
  ⟨d.identity a.identity, .ofFunction fun c => d.recordMap (a.maps.get c)⟩

def nuclideContent (n : Nuclide) : Nuclide :=
  ⟨d.identity n.identity, d.atom n.atom, .ofFunction fun c => d.recordMap (n.maps.get c)⟩

def cacheContent (c : Cache) : Cache := ⟨d.table d.object c.kept, d.table d.value c.aliases⟩

end Duplication

namespace Store

def neighbours (s : Store) : Node → List Node
  | .record r => (s.record r).nodes
  | .center (.atom a) => (s.atom a).nodes
  | .center (.nuclide n) => (s.nuclide n).nodes
  | .map m => (s.mapObject m).nodes
  | .cache c => (s.cache c).nodes

def reachFrom (s : Store) : Nat → List Node → List Node
  | 0, ns => ns
  | rounds + 1, ns =>
    let next := ((ns.flatMap s.neighbours).filter fun n => n ∉ ns).eraseDups
    if next.isEmpty then ns else reachFrom s rounds (ns ++ next)

/-- The object and all that it refers to, directly or through others. Every round but the last finds
an object, so there are no more rounds than objects. -/
def reach (s : Store) (n : Node) : List Node := s.reachFrom s.size [n]

def addAgain (s : Store) : Node → Store × Node
  | .record r => let (s, q) := s.addRecord (s.record r); (s, .record q)
  | .center (.atom a) => let (s, b) := s.addAtom (s.atom a); (s, .center (.atom b))
  | .center (.nuclide n) => let (s, k) := s.addNuclide (s.nuclide n); (s, .center (.nuclide k))
  | .map m => let (s, n) := s.addMap (s.mapObject m); (s, .map n)
  | .cache c => let (s, b) := s.addCache (s.cache c); (s, .cache b)

def addAllAgain : Store → List Node → Store × List (Node × Node)
  | s, [] => (s, [])
  | s, n :: ns =>
    let (s, copy) := s.addAgain n
    let (s, places) := addAllAgain s ns
    (s, (n, copy) :: places)

def redirect (s : Store) (d : Duplication) : Node → Store
  | .record r => s.putRecord r (d.recordContent (s.record r))
  | .center (.atom a) => s.putAtom a (d.atomContent (s.atom a))
  | .center (.nuclide n) => s.putNuclide n (d.nuclideContent (s.nuclide n))
  | .map m => s.putMapObject m (d.mapObject (s.mapObject m))
  | .cache c => s.putCache c (d.cacheContent (s.cache c))

/-- A new record with the same fields, and with duplicates of all objects that they refer to. -/
def cloneRecord (s : Store) (r : RecordRef) : Store × RecordRef :=
  let (t, places) := s.addAllAgain (s.reach (.record r))
  let d : Duplication := ⟨s.records.size, places⟩
  (places.foldl (fun t p => t.redirect d p.2) t, d.record r)

end Store

end ScatteringData
