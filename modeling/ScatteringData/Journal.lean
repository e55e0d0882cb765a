import ScatteringData.Fault
import ScatteringData.Double
import ScatteringData.Grade

/-!
# The journal

Operations report what they do. An entry keeps the facts; its level and its text follow from it. An
entry about a version that is no number, or about a grade that is no energy, has no text. An integer is
written in full here, however long: it is for whoever listens to cut it off.
-/

namespace ScatteringData

inductive Level
  | debug | warning
deriving DecidableEq, Repr

def Level.text : Level → String
  | .debug => "DEBUG"
  | .warning => "WARNING"

structure Slot where
  category : String
  fileType : Value
  version : Value
  grade : Option Grade

inductive Entry
  | ratioPassed (label : Value) (ratio : Float)
  | replacing (slot : Slot)
  | stored (slot : Slot)
  | resolved (category : String) (query nearest : Float)
  | deepCloning (atom : Bool) (name : Value)
  | partiallyDeepCloning (name : Value)
  | replacingCached (name : Value)
  | cached (name : Value)
  | removedCached (name : Value) (aliases : Nat)

def Value.integerText : Value → Except Fault String
  | .bool b => .ok (if b then "1" else "0")
  | .int n _ => .ok (toString n)
  | .float x _ =>
    match Double.truncated? x with
    | some n => .ok (toString n)
    | none => .error (if x.isNaN then .nanToInteger else .infinityToInteger)
  | .zaid z _ => .ok z.text
  | _ => .error .wrongType

def Slot.text (s : Slot) : Except Fault String := do
  let version ← s.version.integerText
  let place := s!"{s.category} data properties ({s.fileType.plain}, version {version})"
  match s.grade with
  | none => pure (place ++ ".")
  | some (.energy e) =>
    let energy := Decimal.scientific e.mev
    pure s!"{place} evaluated at {energy} MeV."
  | some (.text _) => throw .wrongType

namespace Entry

def level : Entry → Level
  | replacing _ | replacingCached _ => .warning
  | _ => .debug

/-- Whether an entry tells of something that is about to happen. -/
def announces : Entry → Bool
  | replacing _ | replacingCached _ | deepCloning .. | partiallyDeepCloning _ => true
  | _ => false

def message : Entry → Except Fault String
  | ratioPassed label ratio =>
    pure s!"The {label.plain} {Decimal.scientific ratio} passed validation."
  | replacing slot => do pure ("Replacing " ++ (← slot.text))
  | stored slot => do pure ("Set " ++ (← slot.text))
  | resolved category query nearest =>
    let asked := Decimal.scientific query
    let found := Decimal.scientific nearest
    pure s!"Resolved {category} request at {asked} MeV to the nearest evaluation temperature {found} MeV."
  | deepCloning atom name =>
    let kind := if atom then "atom" else "nuclide"
    pure s!"Deep cloning {kind} properties {name.plain}."
  | partiallyDeepCloning name => pure s!"Partially deep cloning nuclide properties {name.plain}."
  | replacingCached name => pure s!"Replacing cached properties \x27{name.plain}\x27."
  | cached name => pure s!"Cached properties \x27{name.plain}\x27."
  | removedCached name aliases =>
    pure s!"Removed cached properties \x27{name.plain}\x27 and {aliases} alias(es)."

def text (e : Entry) : Except Fault String := do
  let m ← e.message
  pure s!"{e.level.text} {m}"

/-- The first of some entries that has no text, with those before it and with the fault in it. -/
def firstUnwritable? : List Entry → Option (List Entry × Entry × Fault)
  | [] => none
  | e :: es =>
    match e.text with
    | .error f => some ([], e, f)
    | .ok _ => (firstUnwritable? es).map fun (written, rest) => (e :: written, rest)

end Entry

end ScatteringData
