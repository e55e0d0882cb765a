/-!
# Doubles as exact numbers

A finite double is an integer times a power of two. Integers are compared with doubles through
that form, without rounding, and an integer becomes the double nearest to it.
-/

namespace ScatteringData

open Float.Model

/-- A finite double: the integer `significand` times `2 ^ exponent`. -/
structure Binary where
  significand : Int
  exponent : Int
deriving DecidableEq, Repr

namespace Double

def binary? (x : Float) : Option Binary :=
  match x.toModel.unpack with
  | .finite s m e _ => some ⟨s.apply m, e⟩
  | .zero _ => some ⟨0, 0⟩
  | .infinity _ | .notANumber => none

def isNegative (x : Float) : Bool := Nat.pow 2 63 ≤ x.toBits.toNat

def integer? (x : Float) : Option Int := do
  let b ← binary? x
  if 0 ≤ b.exponent then some (b.significand * Int.pow 2 b.exponent.toNat)
  else
    let unit : Int := Int.pow 2 (-b.exponent).toNat
    if b.significand % unit = 0 then some (b.significand / unit) else none

def truncated? (x : Float) : Option Int := do
  let b ← binary? x
  if 0 ≤ b.exponent then some (b.significand * Int.pow 2 b.exponent.toNat)
  else some (b.significand.tdiv (Int.pow 2 (-b.exponent).toNat))

/-- The order of a double and an integer as real numbers; a NaN has none. -/
def compareInt (x : Float) (n : Int) : Option Ordering :=
  match binary? x with
  | some b =>
    if 0 ≤ b.exponent then some (compare (b.significand * Int.pow 2 b.exponent.toNat) n)
    else some (compare b.significand (n * Int.pow 2 (-b.exponent).toNat))
  | none => if x.isNaN then none else some (if isNegative x then .lt else .gt)

def compare? (x y : Float) : Option Ordering :=
  if x < y then some .lt else if y < x then some .gt else if x == y then some .eq else none

/-- The double nearest to an integer, ties to even; none where that would be infinite. -/
def ofInt? (n : Int) : Option Float :=
  let x := Float.ofInt n
  if x.isFinite then some x else none

end Double

end ScatteringData
