import ScatteringData.Element

/-!
# ZAID identifiers

A ZAID packs an atomic number and a mass number as `1000 * Z + A`. Mass number zero stands for the
natural element, the atom.
-/

namespace ScatteringData

structure Zaid where
  raw : Nat
  element_known : Element.minNumber ≤ raw / 1000 ∧ raw / 1000 ≤ Element.maxNumber
deriving DecidableEq

namespace Zaid

def maxMassNumber : Nat := 999

instance : Inhabited Zaid := ⟨⟨1000, by decide⟩⟩

def ofNat? (n : Nat) : Option Zaid :=
  if h : Element.minNumber ≤ n / 1000 ∧ n / 1000 ≤ Element.maxNumber then some ⟨n, h⟩ else none

def atomicNumber (z : Zaid) : Nat := z.raw / 1000

def massNumber (z : Zaid) : Nat := z.raw % 1000

def isAtom (z : Zaid) : Bool := z.massNumber == 0

def symbol (z : Zaid) : String := Element.symbol z.atomicNumber

def name (z : Zaid) : String := if z.isAtom then z.symbol else z.symbol ++ toString z.massNumber

def atom (z : Zaid) : Zaid :=
  ⟨z.atomicNumber * 1000, by simpa [atomicNumber] using z.element_known⟩

theorem massNumber_le (z : Zaid) : z.massNumber ≤ maxMassNumber := by
  have := Nat.mod_lt z.raw (show 0 < 1000 by decide)
  simp only [massNumber, maxMassNumber]
  omega

theorem raw_eq (z : Zaid) : z.raw = z.atomicNumber * 1000 + z.massNumber := by
  simp only [atomicNumber, massNumber]
  omega

end Zaid

end ScatteringData
