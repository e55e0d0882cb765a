import ScatteringData.Double
import ScatteringData.Decimal.Rounding

/-!
# Scientific text with a fixed number of places

One digit, a point, six rounded places and an exponent: the form of every energy and temperature
in a message.
-/

namespace ScatteringData.Decimal

/-- The digits of a positive number rounded to `places` places after the first, and the power of
ten of the first. -/
def Fraction.rounded (x : Fraction) (places : Nat) : Nat × Int :=
  let p := x.magnitude
  let u := x.inUnits (p - places)
  let q := roundDiv u.num u.den
  if q = Nat.pow 10 (places + 1) then (Nat.pow 10 places, p + 1) else (q, p)

def places : Nat := 6

def scientific (x : Float) : String :=
  match Double.binary? x with
  | none => if x.isNaN then "nan" else if Double.isNegative x then "-inf" else "inf"
  | some b =>
    let (q, p) :=
      if b.significand = 0 then (0, 0)
      else (Fraction.ofBinary b.significand.natAbs b.exponent).rounded places
    let ds := digits q
    let body :=
      match ds ++ List.replicate (places + 1 - ds.length) '0' with
      | [] => []
      | d :: rest => d :: '.' :: rest
    String.ofList
      ((if Double.isNegative x then ['-'] else []) ++ body ++ ['e'] ++ exponentText p)

end ScatteringData.Decimal
