import ScatteringData.Store.Basic

/-!
# Setting records

A map takes any record. A center takes a record of the category only if it belongs to the element
of its atom, or provides data for the nuclide.
-/

namespace ScatteringData

namespace Store

/-- What happens of a change of a map, or of the containers that maps are made of. -/
def followed {M σ : Type} (s : Store M) (old : σ) (change : σ × Outcome Unit) : σ × Outcome Unit :=
  if s.listening then change.2.heard old change.1 else change

def set (s : Store) (m : MapRef) (v : Value) : Store × Outcome Unit :=
  match v with
  | .object (.record _ r) =>
    let (map, outcome) := s.followed (s.map m) ((s.map m).set r (s.record r))
    (s.putMap m map, outcome)
  | v =>
    match s.map m, s.nameOf? v with
    | .named map, some name =>
      let (map, outcome) := map.setUnusable name
      (s.putMap m (.named map), outcome)
    | _, _ => (s, .fail .noAttribute)

def checkElement (s : Store) (c : CenterRef) (k : Category) (r : Record) : Except Fault Unit :=
  match r.zaid with
  | .zaid z _ =>
    let atom := (s.atom (s.atomOf c)).identity.zaid.atom
    if z.atom = atom then .ok () else .error (.data (.foreignElement k r.zaid atom))
  | _ => .error .noAttribute

def checkNuclide (s : Store) (c : CenterRef) (k : Category) (r : Record) : Except Fault Unit := do
  let zaid := (s.identity c).zaid
  let belongs ←
    match k.shape with
    | .named => r.covers zaid
    | _ => pure (r.zaid.equals (.zaid zaid .shared))
  if belongs then pure () else .error (.raised (.data (.foreignNuclide k r.zaid zaid)))

def accepted (s : Store) (c : CenterRef) (k : Category) (v : Value) : Except Fault RecordRef :=
  match v with
  | .object (.record kind r) =>
    if kind = k then do
      match k with
      | .atomic _ => s.checkElement c k (s.record r)
      | .nuclide _ => s.checkNuclide c k (s.record r)
      pure r
    else .error (.data (.unexpectedKind k.recordKind v.kind))
  | _ => .error (.data (.unexpectedKind k.recordKind v.kind))

def setOn (s : Store) (c : CenterRef) (k : Category) (v : Value) : Store × Outcome Unit :=
  match s.centerMap? c k with
  | none => (s, .fail .noAttribute)
  | some m =>
    match s.accepted c k v with
    | .error f => (s, .fail f)
    | .ok r =>
      let (m, outcome) := s.followed m (m.set r (s.record r))
      (s.putCenterMap c k m, outcome)

end Store

end ScatteringData
