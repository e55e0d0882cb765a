import ScatteringData.Value
import ScatteringData.Double
import ScatteringData.Sorting

/-!
# Equality and order of values

Numbers are equal and ordered by their numeric value whatever their type, texts and file types by
their characters, quantities only among themselves. A value that may serve as a key has a canonical
form, and two keys are the same when their canonical forms are. A NaN equals nothing, but as a key
or as a member of a collection it is found by its mark.
-/

namespace ScatteringData

inductive Number
  | int (n : Int)
  | float (x : Float)
deriving DecidableEq

namespace Number

/-- The number with integral doubles turned into integers. -/
def canonical : Number → Number
  | int n => int n
  | float x =>
    match Double.integer? x with
    | some n => int n
    | none => float x

def isNaN : Number → Bool
  | int _ => false
  | float x => x.isNaN

def compare? : Number → Number → Option Ordering
  | int m, int n => some (compare m n)
  | float x, int n => Double.compareInt x n
  | int m, float y => (Double.compareInt y m).map Ordering.swap
  | float x, float y => Double.compare? x y

def between (low high : Int) (a : Number) : Bool :=
  ((int low).compare? a).any Ordering.isLE && (a.compare? (int high)).any Ordering.isLE

end Number

/-- What a value is compared by when it serves as a key. -/
inductive Key
  | null
  | number (n : Number)
  | nan (mark : Mark)
  | text (s : String)
  | energy (n : Number)
  | temperature (n : Number)
  | zaid (raw : Nat)
  | zaids (raws : List Nat)
  | path (p : DataPath)
  | object (n : Node)
deriving DecidableEq

namespace Value

def number? : Value → Option Number
  | bool b => some (.int (if b then 1 else 0))
  | int n _ => some (.int n)
  | float x _ => some (.float x)
  | _ => none

def key? : Value → Option Key
  | null => some .null
  | bool b => some (.number (.int (if b then 1 else 0)))
  | int n _ => some (.number (.int n))
  | float x m => some (if x.isNaN then .nan m else .number (Number.float x).canonical)
  | text s _ => some (.text s)
  | fileType t => some (.text t.text)
  | energy e _ => some (.energy (Number.float e.mev).canonical)
  | temperature t _ => some (.temperature (Number.float t.kelvin).canonical)
  | zaid z _ => some (.zaid z.raw)
  | path p _ => some (.path p)
  | zaids zs _ => some (.zaids (zs.map fun z => z.1.raw))
  | list _ _ | set _ _ | object (.record _ _) => none
  | object o => some (.object o.node)

def isNaN (v : Value) : Bool := v.number?.any Number.isNaN

def keys (vs : List Value) : List Key := vs.filterMap key?

mutual

/-- Equality of values, given that of records; none where the latter has no answer. Objects other
than records are equal only to themselves. -/
def equalsWith (records : RecordRef → RecordRef → Option Bool) : Value → Value → Option Bool
  | list vs _, list ws _ =>
    if vs.length = ws.length then agreeWith records vs ws else some false
  | set vs _, set ws _ => some ((keys vs).length == (keys ws).length && (keys vs).all (· ∈ keys ws))
  | object (.record _ r), object (.record _ q) => records r q
  | v, w => some (!v.isNaN && v.key?.isSome && v.key? == w.key?)

def agreeWith (records : RecordRef → RecordRef → Option Bool) :
    List Value → List Value → Option Bool
  | v :: vs, w :: ws =>
    if v.same w then agreeWith records vs ws
    else
      match equalsWith records v w with
      | some true => agreeWith records vs ws
      | answer => answer
  | _, _ => some true

end

def equals (v w : Value) : Bool := (equalsWith (fun r q => some (r == q)) v w).getD false

def agrees (v w : Value) : Bool := v.same w || v.equals w

/-- Whether the first row comes before the second by their first difference, given whether two
different members do; a row that ends first comes first. -/
def rowPrecedes? {α : Type} (same : α → α → Bool) (before : α → α → Option Bool) (strict : Bool) :
    List α → List α → Option Bool
  | [], [] => some !strict
  | [], _ :: _ => some true
  | _ :: _, [] => some false
  | a :: as, b :: bs => if same a b then rowPrecedes? same before strict as bs else before a b

mutual

/-- Whether the first value comes before the second, strictly or not; none where the two have no
order. Lists are ordered by their first difference. -/
def precedes? (strict : Bool) : Value → Value → Option Bool
  | list vs _, list ws _ => allPrecede? strict vs ws
  | zaids zs _, zaids ys _ =>
    rowPrecedes? (fun z y => z.1 == y.1) (fun _ _ => none) strict zs ys
  | energy e _, energy f _ => some (if strict then e.mev < f.mev else e.mev ≤ f.mev)
  | temperature t _, temperature u _ =>
    some (if strict then t.kelvin < u.kelvin else t.kelvin ≤ u.kelvin)
  | path p _, path q _ =>
    rowPrecedes? (· == ·) (fun s t => some (s < t)) strict p.components q.components
  | v, w =>
    match v.number?, w.number?, v.chars?, w.chars? with
    | some a, some b, _, _ =>
      some ((a.compare? b).any fun o => if strict then o.isLT else o.isLE)
    | _, _, some s, some t => some (if strict then s < t else s < t || s == t)
    | _, _, _, _ => none

def allPrecede? (strict : Bool) : List Value → List Value → Option Bool
  | [], [] => some !strict
  | [], _ :: _ => some true
  | _ :: _, [] => some false
  | v :: vs, w :: ws => if v.agrees w then allPrecede? strict vs ws else v.precedes? strict w

end

/-- The values in ascending order, equal ones in their given order; none where two have no order. -/
def sort? (vs : List Value) : Option (List Value) :=
  Sorting.sort? (fun v w => v.precedes? true w) vs

def ofMembers (vs : List Value) (mark : Mark) : Value := set ((sort? vs).getD vs) mark

def greatest? : List Value → Option Value
  | [] => none
  | v :: vs => vs.foldlM (fun best w => do if ← best.precedes? true w then some w else some best) v

end Value

end ScatteringData
