import ScatteringData.Store.Rows

/-!
# What a store shows

An answer with its references followed: the fields of a record, the identity of a center, the size
of a map.
-/

namespace ScatteringData

inductive Shown
  | null
  | bool (b : Bool)
  | int (n : Int)
  | float (x : Float)
  | text (s : String)
  | energy (mev : Float)
  | temperature (kelvin : Float)
  | zaid (raw : Nat)
  | list (xs : List Shown)
  | record (kind : Category) (category : Shown) (fields : List (Field × Shown))
  | center (ref : CenterRef) (identity : Identity) (name : Shown)
  | map (shape : Shape) (category : Shown) (size : Nat)
  | cache
  | lists (names aliases : String)
  | categories (parts : List (Category × Shown))

namespace Value

mutual

/-- A value as an answer, given how objects are shown. The members of a set are shown in ascending
order, which they have to have. -/
def shown (object : Object → Except Fault Shown) : Value → Except Fault Shown
  | null => .ok .null
  | bool b => .ok (.bool b)
  | int n _ => .ok (.int n)
  | float x _ => .ok (.float x)
  | text s _ => .ok (.text s)
  | fileType t => .ok (.text t.text)
  | energy e _ => .ok (.energy e.mev)
  | temperature t _ => .ok (.temperature t.kelvin)
  | zaid z _ => .ok (.zaid z.raw)
  | path p _ => .ok (.text p.text)
  | zaids zs _ => .ok (.list (zs.map fun z => .zaid z.1.raw))
  | list vs _ => do pure (.list (← shownAll object vs))
  | set vs _ => do
    if (sort? vs).isNone then throw .wrongType
    pure (.list (← shownAll object vs))
  | .object o => object o

def shownAll (object : Object → Except Fault Shown) : List Value → Except Fault (List Shown)
  | [] => .ok []
  | v :: vs => do
    let x ← v.shown object
    let xs ← shownAll object vs
    pure (x :: xs)

end

def shownAlone (v : Value) : Except Fault Shown := v.shown fun _ => .error .endless

end Value

def Record.shown (object : Object → Except Fault Shown) (r : Record) : Except Fault Shown := do
  let category ← r.categoryName.shown object
  let fields ← (Field.declared r.category.shape).mapM fun f => do
    let v := (r.read? f).getD .null
    if f = .filePath then pure (f, .text v.plain) else pure (f, ← v.shown object)
  pure (.record r.category category fields)

namespace Store

def shownObject (s : Store) : Nat → Object → Except Fault Shown
  | 0, _ => .error .endless
  | depth + 1, o =>
    match o with
    | .record _ r => (s.record r).shown (shownObject s depth)
    | .center c _ => do
      let name ← (s.identity c).name.shown (shownObject s depth)
      pure (.center c (s.identity c) name)
    | .map shape m => do
      let category ← (s.mapObject m).category.shown (shownObject s depth)
      pure (.map shape category (s.map m).size)
    | .cache _ => .ok .cache

/-- A value with its references followed. A row of references that is longer than there are objects
leads back to where it has been. -/
def shown (s : Store) (v : Value) : Except Fault Shown := v.shown (s.shownObject (s.size + 1))

def shownRow (s : Store) (vs : List Value) : Except Fault Shown := do
  pure (.list (← vs.mapM s.shown))

def shownRows (s : Store) (c : CenterRef) (k : Category) : Except Fault Shown := do
  let rows ← s.rows c k
  let xs ← rows.mapM fun row => s.shownRow (row.key ++ [(s.record row.record).tableName])
  pure (.list xs)

def shownCenter (s : Store) (c : CenterRef) : Except Fault Shown := do
  let parts ← c.categories.mapM fun k => do pure (k, ← s.shownRows c k)
  pure (.categories parts)

def shownSharing (s : Store) (a b : CenterRef) : Except Fault Shown := do
  let parts ← a.categories.mapM fun k => do
    let found ← s.sharing a b k
    pure (k, Shown.list (found.map fun x => (x.map Shown.bool).getD .null))
  pure (.categories parts)

def distinctive (r : Record) : List Value :=
  let fields : List Field :=
    [.fileType, .fileVersion, .tableName] ++
      (match r.category.shape with
      | .versioned => []
      | .temperature => [.evaluationTemperature]
      | .named => [.evaluationTemperature, .name])
  fields.map fun f => (r.read? f).getD .null

def shownMap (s : Store) (m : MapRef) : Except Fault Shown := do
  let xs ← (s.map m).records.mapM fun r => s.shownRow (distinctive (s.record r))
  pure (.list xs)

def shownCache (s : Store) (c : CacheRef) : Except Fault Shown := do
  let names ← (s.cache c).nameList
  let aliases ← (s.cache c).aliasList
  pure (.lists names aliases)

end Store

end ScatteringData
