import ScatteringData.Outcome
import ScatteringData.Value.Lattice

/-!
# Checked numbers

Weight ratios are positive and finite, temperatures finite and not negative, file versions integers
that are not negative.
-/

namespace ScatteringData

structure WeightRatio where
  value : Float
  finite : value.isFinite = true
  positive : 0.0 < value

namespace WeightRatio

def label : Value := .text "atomic weight ratio" .shared

def ofValue (v label : Value) : Outcome WeightRatio := do
  let refused : Fault := .raised (.data (.weightRatio label v))
  if ← v.isFinite then
    let x ← v.numberToDouble
    if h : x.isFinite = true ∧ 0.0 < x then
      Outcome.note (.ratioPassed label x)
      pure ⟨x, h.1, h.2⟩
    else Outcome.fail refused
  else Outcome.fail refused

end WeightRatio

def checkTemperature (v unit : Value) : Except Fault Unit := do
  let refused : Fault := .raised (.data (.temperature v unit))
  if ← v.isFinite then
    let x ← v.numberToDouble
    if isMagnitude x then pure () else throw refused
  else throw refused

/-- Reads a file version; booleans and doubles are no versions. -/
def fileVersionOf (v : Value) : Except Fault Int :=
  match v with
  | .int n _ => if n < 0 then .error (.raised (.data (.versionNegative n))) else .ok n
  | _ => .error (.raised (.data (.versionNotInteger v)))

end ScatteringData
