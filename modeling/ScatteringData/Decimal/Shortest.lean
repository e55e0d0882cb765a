import ScatteringData.Double
import ScatteringData.Decimal.Rounding

/-!
# Shortest text of a double

Of the decimals that round to a double, the text shows one with the fewest digits, and of those
the one nearest to the double. Small and large numbers are written with an exponent.
-/

namespace ScatteringData.Decimal

/-- The decimals that round to a double, counted in quarters of its last place. -/
structure Interval where
  low : Nat
  high : Nat
  closed : Bool

/-- Half a place on both sides, but a quarter below a power of two; the ends belong to an even
mantissa. -/
def Interval.around (m : Nat) (e : Int) : Interval :=
  ⟨if m = Nat.pow 2 52 ∧ -1074 < e then 4 * m - 1 else 4 * m - 2, 4 * m + 2, m % 2 = 0⟩

def Interval.holds (i : Interval) (e scale : Int) (d : Nat) : Bool :=
  let low := (Fraction.ofBinary i.low (e - 2)).inUnits scale
  let high := (Fraction.ofBinary i.high (e - 2)).inUnits scale
  if i.closed then low.num ≤ d * low.den && d * high.den ≤ high.num
  else low.num < d * low.den && d * high.den < high.num

/-- The decimal with the digits counted by `scale` that rounds to `m * 2 ^ e`: the nearer of the two
neighbours on the grid, the even one where both are as near. -/
def onGrid? (m : Nat) (e scale : Int) : Option Nat :=
  let u := (Fraction.ofBinary m e).inUnits scale
  let i := Interval.around m e
  let d := u.num / u.den
  match i.holds e scale d, i.holds e scale (d + 1) with
  | true, true => some (roundDiv u.num u.den)
  | true, false => some d
  | false, true => some (d + 1)
  | false, false => none

/-- The shortest decimal that rounds to `m * 2 ^ e`, as a count of `10 ^ scale`; seventeen digits
always suffice. -/
def shortest (m : Nat) (e : Int) : Nat × Int :=
  let x := Fraction.ofBinary m e
  let p := x.magnitude
  let coarse := (List.range 16).findSome? fun (n : Nat) =>
    (onGrid? m e (p - n)).map fun d => (d, p - (n : Int))
  coarse.getD
    (let u := x.inUnits (p - 16)
     (roundDiv u.num u.den, p - 16))

def significant (ds : List Char) : List Char := (ds.reverse.dropWhile (· = '0')).reverse

/-- Digits with the first standing for `10 ^ p`: positional from `10 ^ -4` up to `10 ^ 16`, and
with an exponent outside. -/
def layout (ds : List Char) (p : Int) : List Char :=
  if p < -4 ∨ 16 ≤ p then
    match ds with
    | [] => []
    | [d] => d :: 'e' :: exponentText p
    | d :: rest => d :: '.' :: rest ++ 'e' :: exponentText p
  else if p < 0 then
    '0' :: '.' :: List.replicate (-p - 1).toNat '0' ++ ds
  else
    let n := p.toNat + 1
    let fraction := ds.drop n
    ds.take n ++ List.replicate (n - ds.length) '0' ++
      '.' :: (if fraction.isEmpty then ['0'] else fraction)

def text (x : Float) : String :=
  match Double.binary? x with
  | none => if x.isNaN then "nan" else if Double.isNegative x then "-inf" else "inf"
  | some b =>
    let body :=
      if b.significand = 0 then ['0', '.', '0']
      else
        let (d, scale) := shortest b.significand.natAbs b.exponent
        let ds := digits d
        layout (significant ds) (scale + (ds.length - 1 : Nat))
    String.ofList ((if Double.isNegative x then ['-'] else []) ++ body)

end ScatteringData.Decimal
