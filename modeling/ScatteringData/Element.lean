/-!
# Chemical elements

The symbols of the elements in the order of their atomic numbers.
-/

namespace ScatteringData.Element

def symbols : List String := [
  "H", "He", "Li", "Be", "B", "C", "N", "O", "F", "Ne", "Na", "Mg", "Al", "Si", "P", "S", "Cl",
  "Ar", "K", "Ca", "Sc", "Ti", "V", "Cr", "Mn", "Fe", "Co", "Ni", "Cu", "Zn", "Ga", "Ge", "As",
  "Se", "Br", "Kr", "Rb", "Sr", "Y", "Zr", "Nb", "Mo", "Tc", "Ru", "Rh", "Pd", "Ag", "Cd", "In",
  "Sn", "Sb", "Te", "I", "Xe", "Cs", "Ba", "La", "Ce", "Pr", "Nd", "Pm", "Sm", "Eu", "Gd", "Tb",
  "Dy", "Ho", "Er", "Tm", "Yb", "Lu", "Hf", "Ta", "W", "Re", "Os", "Ir", "Pt", "Au", "Hg", "Tl",
  "Pb", "Bi", "Po", "At", "Rn", "Fr", "Ra", "Ac", "Th", "Pa", "U", "Np", "Pu", "Am", "Cm", "Bk",
  "Cf", "Es", "Fm", "Md", "No", "Lr", "Rf", "Db", "Sg", "Bh", "Hs", "Mt", "Ds", "Rg", "Cn", "Nh",
  "Fl", "Mc", "Lv", "Ts", "Og"]

def minNumber : Nat := 1
def maxNumber : Nat := 118

theorem length_symbols : symbols.length = maxNumber := rfl

def symbol (z : Nat) : String :=
  match z with
  | 0 => ""
  | z + 1 => symbols.getD z ""

def number? (s : String) : Option Nat := (symbols.idxOf? s).map (· + 1)

end ScatteringData.Element
