import ScatteringData.Category

/-!
# Queries

What a map of records can be asked. Which queries a map answers, and with how many arguments,
depends on its shape; on a named map every query but the one for the names takes a name first.
-/

namespace ScatteringData

inductive Query
  | available | get | fileTypes | versions | recommendedVersion | energies | temperatures | names
deriving DecidableEq, Repr

def Query.arity? : Query → Shape → Option (Nat × Nat)
  | .available, .versioned => some (0, 2)
  | .available, .temperature => some (0, 3)
  | .available, .named => some (0, 4)
  | .get, .versioned => some (2, 2)
  | .get, .temperature => some (3, 4)
  | .get, .named => some (4, 5)
  | .fileTypes, .named => some (1, 1)
  | .fileTypes, _ => some (0, 0)
  | .versions, .named => some (2, 2)
  | .versions, _ => some (1, 1)
  | .recommendedVersion, .named => some (2, 2)
  | .recommendedVersion, _ => some (1, 1)
  | .energies, .temperature => some (2, 2)
  | .energies, .named => some (3, 3)
  | .temperatures, .temperature => some (2, 2)
  | .temperatures, .named => some (3, 3)
  | .names, .named => some (0, 0)
  | .energies, .versioned | .temperatures, .versioned | .names, .versioned
  | .names, .temperature => none

/-- The place of the argument that says whether only a match of the temperature will do. -/
def Query.flag? : Query → Shape → Option Nat
  | .get, .temperature => some 3
  | .get, .named => some 4
  | _, _ => none

end ScatteringData
