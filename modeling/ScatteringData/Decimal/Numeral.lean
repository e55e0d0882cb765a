import ScatteringData.Double
import ScatteringData.Text.Digit

/-!
# Reading numerals

A numeral stands between blanks and may have a sign. Single underscores may separate its digits.
Integers have digits only, and not too many of them; doubles may have a point, an exponent, or be
an infinity or a NaN.
-/

namespace ScatteringData.Decimal

open Text

def trimmed (s : String) : List Char :=
  let cs := (s.toList.map narrow).dropWhile isBlank
  (cs.reverse.dropWhile isBlank).reverse

/-- Removes the underscores; each must stand between two digits. -/
def joinGroups : Char → List Char → Option (List Char)
  | _, [] => some []
  | before, '_' :: rest =>
    match rest with
    | c :: _ => if before.isDigit && c.isDigit then joinGroups '_' rest else none
    | [] => none
  | _, c :: rest => (joinGroups c rest).map (c :: ·)

def splitSign : List Char → Bool × List Char
  | '-' :: rest => (true, rest)
  | '+' :: rest => (false, rest)
  | cs => (false, cs)

def valueOf (ds : List Char) : Nat := ds.foldl (fun n d => 10 * n + (d.toNat - 48)) 0

def readNat? (cs : List Char) : Option Nat :=
  if cs.isEmpty || !cs.all Char.isDigit then none else some (valueOf cs)

inductive IntegerFault
  | malformed
  | tooLong (digits : Nat)
deriving DecidableEq, Repr

/-- The greatest number of digits that an integer is read from or written with. -/
def maxDigits : Nat := 4300

def isTooLong (n : Int) : Bool := maxDigits < (Nat.toDigits 10 n.natAbs).length

/-- Reads an integer. The digits are counted before what follows them is looked at. -/
def readInt (s : String) : Except IntegerFault Int :=
  let (negative, cs) := splitSign (trimmed s)
  let isNumeral (c : Char) : Bool := c.isDigit || c = '_'
  match joinGroups ' ' (cs.takeWhile isNumeral) with
  | none => .error .malformed
  | some ds =>
    if maxDigits < ds.length then .error (.tooLong ds.length)
    else if ds.isEmpty || !(cs.dropWhile isNumeral).isEmpty then .error .malformed
    else .ok (if negative then -(valueOf ds : Int) else valueOf ds)

def readExponent? : List Char → Option Int
  | [] => some 0
  | c :: rest =>
    if c = 'e' ∨ c = 'E' then do
      let (negative, cs) := splitSign rest
      let n ← readNat? cs
      some (if negative then -n else n)
    else none

def readMagnitude? (cs : List Char) : Option Float := do
  let whole := cs.takeWhile Char.isDigit
  let (fraction, rest) :=
    match cs.dropWhile Char.isDigit with
    | '.' :: rest => (rest.takeWhile Char.isDigit, rest.dropWhile Char.isDigit)
    | rest => ([], rest)
  let ds := whole ++ fraction
  if ds.isEmpty then none
  else
    let e ← readExponent? rest
    let scale := e - fraction.length
    some (Float.ofScientific (valueOf ds) (scale < 0) scale.natAbs)

def readDouble? (s : String) : Option Float := do
  let (negative, cs) := splitSign (← joinGroups ' ' (trimmed s))
  let lower := String.ofList (cs.map Char.toLower)
  let x ←
    if lower = "inf" ∨ lower = "infinity" then some (1.0 / 0.0)
    else if lower = "nan" then some (0.0 / 0.0)
    else readMagnitude? cs
  some (if negative then -x else x)

end ScatteringData.Decimal
