import ScatteringData.Zaid
import ScatteringData.Quantity
import ScatteringData.FileType
import ScatteringData.DataPath
import ScatteringData.Mark

/-!
# Values

Callers pass and record fields hold values of any kind: numbers, texts, quantities, collections,
and references to the objects of a store. What an operation accepts is decided when it reads the
value. Values that exist more than once carry marks.
-/

namespace ScatteringData

structure RecordRef where
  index : Nat
deriving DecidableEq, Repr

structure AtomRef where
  index : Nat
deriving DecidableEq, Repr

structure NuclideRef where
  index : Nat
deriving DecidableEq, Repr

structure MapRef where
  index : Nat
deriving DecidableEq, Repr

structure CacheRef where
  index : Nat
deriving DecidableEq, Repr

inductive CenterRef
  | atom (r : AtomRef)
  | nuclide (r : NuclideRef)
deriving DecidableEq, Repr

inductive Node
  | record (r : RecordRef)
  | center (r : CenterRef)
  | map (r : MapRef)
  | cache (r : CacheRef)
deriving DecidableEq, Repr

/-- A reference to an object of a store, with what messages about the object need: the kind that it
keeps for good, and for a center the line that describes it. -/
inductive Object
  | record (kind : Category) (r : RecordRef)
  | center (r : CenterRef) (caption : String)
  | map (shape : Shape) (r : MapRef)
  | cache (r : CacheRef)

def Object.node : Object → Node
  | record _ r => .record r
  | center r _ => .center r
  | map _ r => .map r
  | cache r => .cache r

inductive Value
  | null
  | bool (b : Bool)
  | int (n : Int) (mark : Mark)
  | float (x : Float) (mark : Mark)
  | text (s : String) (mark : Mark)
  | fileType (t : FileType)
  | energy (e : Energy) (mark : Mark)
  | temperature (t : Temperature) (mark : Mark)
  | zaid (z : Zaid) (mark : Mark)
  | path (p : DataPath) (mark : Mark)
  | list (vs : List Value) (mark : Mark)
  /-- The identifiers that a thermal record covers, in a row that never changes. -/
  | zaids (zs : List (Zaid × Mark)) (mark : Mark)
  /-- Values without repetition, ascending where they have an order. -/
  | set (vs : List Value) (mark : Mark)
  | object (o : Object)

namespace Value

instance : Inhabited Value := ⟨null⟩

def chars? : Value → Option String
  | text s _ => some s
  | fileType t => some t.text
  | _ => none

def isNull : Value → Bool
  | null => true
  | _ => false

def truthy : Value → Bool
  | null => false
  | bool b => b
  | int n _ => n ≠ 0
  | float x _ => !(x == 0.0)
  | text s _ => !s.isEmpty
  | list vs _ => !vs.isEmpty
  | zaids zs _ => !zs.isEmpty
  | set vs _ => !vs.isEmpty
  | _ => true

/-- The integers that exist once. -/
def isCommonInt (n : Int) : Bool := -5 ≤ n && n ≤ 256

def isCommonText (s : String) : Bool :=
  match s.toList with
  | [] => true
  | [c] => c.toNat < 0x100
  | _ => false

def same : Value → Value → Bool
  | null, null => true
  | bool b, bool c => b == c
  | int n m, int k l => n == k && (isCommonInt n || m == l)
  | text s m, text t l => s == t && (isCommonText s || m == l)
  | fileType t, fileType u => t == u
  | float x m, float y l => x.toBits == y.toBits && m == l
  | energy e m, energy f l => e == f && m == l
  | temperature t m, temperature u l => t == u && m == l
  | zaid z m, zaid y l => z == y && m == l
  | path p m, path q l => p == q && m == l
  | list _ m, list _ l => m == l
  | zaids _ m, zaids _ l => m == l
  | set _ m, set _ l => m == l
  | object o, object p => o.node == p.node
  | _, _ => false

/-- The mark of the double that a value is or holds, or else of one that is read from it now. -/
def floatMark (fresh : Mark) : Value → Mark
  | float _ m => m
  | energy _ m | temperature _ m => m.content
  | _ => fresh

def mevMark (fresh : Mark) : Value → Mark
  | temperature _ _ => fresh
  | v => v.floatMark fresh

def intMark (fresh : Mark) : Value → Mark
  | int _ m => m
  | zaid _ m => m.content
  | _ => fresh

def zaidMark (fresh : Mark) : Value → Mark
  | zaid _ m => m
  | v => fresh.around (v.intMark (fresh.part 0))

end Value

def CenterRef.kind : CenterRef → String
  | .atom _ => "AtomProperties"
  | .nuclide _ => "NuclideProperties"

def Shape.mapKind : Shape → String
  | .versioned => "VersionedRecordMap"
  | .temperature => "TemperatureRecordMap"
  | .named => "NamedTemperatureRecordMap"

def Object.kind : Object → String
  | .record c _ => c.recordKind
  | .center r _ => r.kind
  | .map s _ => s.mapKind
  | .cache _ => "ScatteringCenterPropertiesCache"

def Value.kind : Value → String
  | .null => "NoneType"
  | .bool _ => "bool"
  | .int _ _ => "int"
  | .float _ _ => "float"
  | .text _ _ => "str"
  | .fileType t => t.category.fileTypeKind
  | .energy _ _ => "Energy"
  | .temperature _ _ => "Temperature"
  | .zaid _ _ => "ZAID"
  | .path _ _ => "PosixPath"
  | .list _ _ => "list"
  | .zaids _ _ => "tuple"
  | .set _ _ => "set"
  | .object o => o.kind

end ScatteringData
