import ScatteringData.RecordMap.Query
import ScatteringData.RecordMap.Named

/-!
# Record maps

A map of records of any shape, and the answers to all queries in one place.
-/

namespace ScatteringData

inductive RecordMap
  | versioned (m : VersionedMap)
  | temperature (m : TemperatureMap)
  | named (m : NamedMap)

inductive Answer
  | truth (b : Bool)
  /-- A key as it was first given. -/
  | key (v : Value)
  /-- Keys in no order. -/
  | keys (vs : List Value)
  | energies (es : List Energy)
  | temperatures (ts : List Temperature)
  | record (r : RecordRef)

namespace RecordMap

def empty (shape : Shape) (category : String) : RecordMap :=
  match shape with
  | .versioned => versioned (.empty category)
  | .temperature => temperature (.empty category)
  | .named => named (.empty category)

instance : Inhabited RecordMap := ⟨empty .versioned ""⟩

def shape : RecordMap → Shape
  | versioned _ => .versioned
  | temperature _ => .temperature
  | named _ => .named

def category : RecordMap → String
  | versioned m => m.category
  | temperature m => m.category
  | named m => m.category

def records : RecordMap → List RecordRef
  | versioned m => m.records
  | temperature m => m.records
  | named m => m.records

def size (m : RecordMap) : Nat := m.records.length

def set (m : RecordMap) (ref : RecordRef) (r : Record) : RecordMap × Outcome Unit :=
  match m with
  | versioned m => let (m, o) := m.set ref r; (versioned m, o)
  | temperature m => let (m, o) := m.set ref r; (temperature m, o)
  | named m => let (m, o) := m.set ref r; (named m, o)

def rebuild {σ : Type} (f : σ → RecordRef → σ × RecordRef) (s : σ) (m : RecordMap) :
    σ × RecordMap :=
  match m with
  | versioned m => let (s, m) := m.rebuild f s; (s, versioned m)
  | temperature m => let (s, m) := m.rebuild f s; (s, temperature m)
  | named m => let (s, m) := m.rebuild f s; (s, named m)

end RecordMap

def answered {α : Type} (f : α → Answer) (x : Except Fault α) : Outcome Answer :=
  .ofExcept (x.map f)

def argument (args : List Value) (i : Nat) (absent : Value) : Value := args.getD i absent

namespace VersionedMap

def ask (m : VersionedMap) (q : Query) (args : List Value) : Outcome Answer :=
  let arg (i : Nat) : Value := argument args i .null
  match q with
  | .available => answered .truth (m.available (arg 0) (arg 1))
  | .get => answered .record (m.get (arg 0) (arg 1))
  | .fileTypes => answered .keys (.ok m.fileTypes)
  | .versions => answered .keys (m.versions (arg 0))
  | .recommendedVersion => answered .key (m.recommendedVersion (arg 0))
  | .energies | .temperatures | .names => .fail .noAttribute

end VersionedMap

namespace TemperatureMap

def ask (m : TemperatureMap) (q : Query) (args : List Value) : Outcome Answer :=
  let arg (i : Nat) : Value := argument args i .null
  match q with
  | .available => answered .truth (m.available (arg 0) (arg 1) (arg 2))
  | .get =>
    (m.get (arg 0) (arg 1) (arg 2) (argument args 3 (.bool true)).truthy).map Answer.record
  | .fileTypes => answered .keys (.ok m.fileTypes)
  | .versions => answered .keys (m.versions (arg 0))
  | .recommendedVersion => answered .key (m.recommendedVersion (arg 0))
  | .energies => answered .energies (m.energies (arg 0) (arg 1))
  | .temperatures => answered .temperatures (m.temperatures (arg 0) (arg 1))
  | .names => .fail .noAttribute

end TemperatureMap

namespace NamedMap

def ask (m : NamedMap) (q : Query) (args : List Value) : Outcome Answer :=
  let arg (i : Nat) : Value := argument args i .null
  match q with
  | .available => answered .truth (m.available (arg 0) (arg 1) (arg 2) (arg 3))
  | .get =>
    (m.get (arg 0) (arg 1) (arg 2) (arg 3) (argument args 4 (.bool true)).truthy).map Answer.record
  | .fileTypes => answered .keys (m.fileTypes (arg 0))
  | .versions => answered .keys (m.versions (arg 0) (arg 1))
  | .recommendedVersion => answered .key (m.recommendedVersion (arg 0) (arg 1))
  | .energies => answered .energies (m.energies (arg 0) (arg 1) (arg 2))
  | .temperatures => answered .temperatures (m.temperatures (arg 0) (arg 1) (arg 2))
  | .names => answered .keys (.ok m.names)

end NamedMap

namespace RecordMap

/-- Answers a query. A wrong number of arguments is refused before anything is looked up. -/
def ask (m : RecordMap) (q : Query) (args : List Value) : Outcome Answer :=
  match q.arity? m.shape with
  | none => .fail .noAttribute
  | some (least, most) =>
    if args.length < least ∨ most < args.length then .fail .wrongType
    else
      match m with
      | versioned m => m.ask q args
      | temperature m => m.ask q args
      | named m => m.ask q args

end RecordMap

end ScatteringData
