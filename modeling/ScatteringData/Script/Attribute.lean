import ScatteringData.Store.Basic

/-!
# Attributes

What can be read off an object or a value by the name of an attribute.
-/

namespace ScatteringData.Script

def attribute? (s : Store) (on : Value) (name : String) : Option Value :=
  match on with
  | .object (.center c _) =>
    let identity := s.identity c
    match name, c with
    | "zaid", _ => some (.zaid identity.zaid identity.zaidMark)
    | "name", _ => some identity.name
    | "atomic_weight_ratio", _ => some (.float identity.ratio.value identity.ratioMark)
    | "atomic_weight", _ => some (.float identity.weight s.mark)
    | "atom_properties", .nuclide n => some (.object (s.centerObject (.atom (s.nuclide n).atom)))
    | _, _ => none
  | .object (.record _ r) =>
    if name = "category" then some (s.record r).categoryName
    else (s.record r).read? (Field.ofText name)
  | .object (.map _ m) =>
    if name = "category" then some (s.mapObject m).category else none
  | .zaid z m =>
    match name with
    | "raw" => some (.int z.raw m.content)
    | "atomic_number" => some (.int z.atomicNumber s.mark)
    | "atomic_mass_number" => some (.int z.massNumber s.mark)
    | "element_symbol" => some (.text z.symbol .shared)
    | "name" => some (z.nameValue s.mark)
    | _ => none
  | .energy e m => if name = "value" then some (.float e.mev m.content) else none
  | .temperature t m => if name = "value" then some (.float t.kelvin m.content) else none
  | .fileType t =>
    match name with
    | "name" => some (.text t.format.constant .shared)
    | "value" => some (.text t.text .shared)
    | _ => none
  | .path p _ => if name = "name" then some (.text p.name .shared) else none
  | _ => none

end ScatteringData.Script
