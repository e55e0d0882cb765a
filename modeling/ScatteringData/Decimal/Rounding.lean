/-!
# Decimal grids

The place of a positive fraction on a decimal grid: the power of ten that it reaches, and its
nearest multiple of a power of ten.
-/

namespace ScatteringData.Decimal

structure Fraction where
  num : Nat
  den : Nat

/-- The nearest integer to `n / d`; a half goes to the even neighbour. -/
def roundDiv (n d : Nat) : Nat :=
  let q := n / d
  match compare (2 * (n % d)) d with
  | .lt => q
  | .eq => q + q % 2
  | .gt => q + 1

namespace Fraction

def inUnits (x : Fraction) (scale : Int) : Fraction :=
  if 0 ≤ scale then ⟨x.num, x.den * Nat.pow 10 scale.toNat⟩ else ⟨x.num * Nat.pow 10 (-scale).toNat, x.den⟩

def reaches (x : Fraction) (scale : Int) : Bool :=
  let u := x.inUnits scale
  u.den ≤ u.num

/-- The greatest `p` for which the number reaches `10 ^ p`; the binary lengths give it up to one. -/
def magnitude (x : Fraction) : Int :=
  let guess := ((x.num.log2 : Int) - x.den.log2) * 30103 / 100000
  if x.reaches (guess + 1) then guess + 1 else if x.reaches guess then guess else guess - 1

end Fraction

def Fraction.ofBinary (m : Nat) (e : Int) : Fraction :=
  if 0 ≤ e then ⟨m * Nat.pow 2 e.toNat, 1⟩ else ⟨m, Nat.pow 2 (-e).toNat⟩

def digits (n : Nat) : List Char := (Nat.toDigits 10 n)

def exponentText (p : Int) : List Char :=
  let ds := digits p.natAbs
  (if p < 0 then '-' else '+') :: (if ds.length < 2 then '0' :: ds else ds)

end ScatteringData.Decimal
