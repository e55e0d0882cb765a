import ScatteringData.Quantity

/-!
# Grades

A map with temperatures keeps a record under its grade: an energy, or the text of a file type that
was written over the temperature of the record.
-/

namespace ScatteringData

inductive Grade
  | energy (e : Energy)
  | text (s : String)
deriving DecidableEq

end ScatteringData
