import ScatteringData.Store.Basic

/-!
# Equality of records

Two records are equal if they are of one category and the values of its fields agree. Records in
fields are compared in the same way, so references are followed.
-/

namespace ScatteringData

namespace Store

def recordsEqual (s : Store) : Nat → RecordRef → RecordRef → Option Bool
  | 0, _, _ => none
  | depth + 1, r, q => Record.equalsWith (recordsEqual s depth) (s.record r) (s.record q)

/-- Whether two values are equal. A row of references that is longer than there are records leads
back to where it has been. -/
def equals (s : Store) (v w : Value) : Except Fault Bool :=
  match v.equalsWith (s.recordsEqual (s.records.size + 1)) w with
  | some b => .ok b
  | none => .error .endless

end Store

end ScatteringData
