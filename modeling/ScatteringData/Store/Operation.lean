import ScatteringData.Store.Building
import ScatteringData.Store.Setting
import ScatteringData.Store.Caching

/-!
# Operations

All that can be done to a store, as one type and one step function. A run is a fold of the step.
-/

namespace ScatteringData

inductive Operation
  | buildRecord (c : Category) (fields : List (Field × Value))
  | buildAtom (zaid ratio name : Value)
  | buildNuclide (zaid ratio atom name : Value)
  | buildMap (shape : Shape) (category : Value)
  | buildCache
  | assign (r : RecordRef) (f : Field) (v : Value)
  | set (m : MapRef) (v : Value)
  | setOn (c : CenterRef) (k : Category) (v : Value)
  | ask (m : MapRef) (q : Query) (args : List Value)
  | askOn (c : CenterRef) (k : Category) (q : Query) (args : List Value)
  | copyRecord (r : RecordRef)
  | copyMap (m : MapRef) (deep : Bool)
  | copyCenter (c : CenterRef) (depth : Depth)
  | addToCache (c : CacheRef) (v : Value)
  | removeFromCache (c : CacheRef) (name : Value)
  | link (c : CacheRef) (other name : Value)
  | unlink (c : CacheRef) (other : Value)
  | clear (c : CacheRef)
  | fetch (c : CacheRef) (name : Value)

namespace Store

/-- The arguments of a query. A map in the place of a flag counts as whether it holds anything. -/
def settled (s : Store) (shape : Shape) (q : Query) (args : List Value) : List Value :=
  match q.flag? shape with
  | none => args
  | some i =>
    args.modify i fun
      | .object (.map _ m) => .bool ((s.map m).size ≠ 0)
      | v => v

def ask (s : Store) (m : RecordMap) (q : Query) (args : List Value) : Outcome Answer :=
  m.ask q (s.settled m.shape q args)

def askOn (s : Store) (c : CenterRef) (k : Category) (q : Query) (args : List Value) :
    Outcome Answer :=
  match s.centerMap? c k with
  | some m => s.ask m q args
  | none => .fail .noAttribute

/-- Performs an operation: the store afterwards, and what the operation reports and answers. -/
def perform (s : Store) : Operation → Store × Outcome Value
  | .buildRecord c fields =>
    let (t, o) := s.buildRecord c fields
    (t, o.map t.recordValue)
  | .buildAtom zaid ratio name =>
    let (t, o) := s.buildAtom zaid ratio name
    (t, o.map fun a => .object (t.centerObject (.atom a)))
  | .buildNuclide zaid ratio atom name =>
    let (t, o) := s.buildNuclide zaid ratio atom name
    (t, o.map fun n => .object (t.centerObject (.nuclide n)))
  | .buildMap shape category =>
    let (t, m) := s.buildMap shape category
    (t, .ok (.object (.map shape m)))
  | .buildCache =>
    let (t, c) := s.addCache .empty
    (t, .ok (.object (.cache c)))
  | .assign r f v =>
    let t := s.assign r f v
    (t, .ok (t.recordValue r))
  | .set m v => let (t, o) := s.set m v; (t, o.map fun _ => .null)
  | .setOn c k v => let (t, o) := s.setOn c k v; (t, o.map fun _ => .null)
  | .ask m q args => (s, (s.ask (s.map m) q args).map s.answerValue)
  | .askOn c k q args => (s, (s.askOn c k q args).map s.answerValue)
  | .copyRecord r =>
    let (t, copy) := s.cloneRecord r
    (t, .ok (t.recordValue copy))
  | .copyMap m deep =>
    let (t, copy) := s.copyMap m deep
    (t, .ok (.object (.map (t.map copy).shape copy)))
  | .copyCenter c depth =>
    let (t, entries, copy) := s.copyCenter c depth
    (t, ⟨entries, .ok (.object (t.centerObject copy))⟩)
  | .addToCache c v => let (t, o) := s.addToCache c v; (t, o.map fun _ => .null)
  | .removeFromCache c name =>
    let (t, o) := s.removeFromCache c name
    (t, o.map fun _ => .null)
  | .link c other name =>
    let (t, o) := s.changeCache c ((s.cache c).link other name)
    (t, o.map fun _ => .null)
  | .unlink c other =>
    let (t, o) := s.changeCache c ((s.cache c).unlink other)
    (t, o.map fun _ => .null)
  | .clear c => (s.putCache c .empty, .ok .null)
  | .fetch c name => (s, .ofExcept (((s.cache c).get name).map Value.object))

def run (s : Store) (ops : List Operation) : Store := ops.foldl (fun s op => (s.perform op).1) s

end Store

end ScatteringData
