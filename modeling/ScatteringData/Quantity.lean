/-!
# Energies and temperatures

An evaluation temperature is a finite, non-negative double, in MeV as an energy or in kelvin as a
temperature. The Boltzmann constant converts one into the other.
-/

namespace ScatteringData

/-- Boltzmann constant, MeV per kelvin. -/
def boltzmann : Float := 8.617332478e-11

/-- Neutron rest mass, atomic mass units. -/
def neutronMass : Float := 1.00866491600

/-- Neutron rest mass energy, MeV. -/
def neutronRestEnergy : Float := 939.565379

/-- Relative difference up to which two evaluation temperatures are the same. -/
def matchTolerance : Float := 1e-12

def isMagnitude (x : Float) : Bool := x.isFinite && !(x < 0.0)

structure Energy where
  mev : Float
  admissible : isMagnitude mev = true
deriving DecidableEq

structure Temperature where
  kelvin : Float
  admissible : isMagnitude kelvin = true
deriving DecidableEq

def mevToKelvin (x : Float) : Float := x / boltzmann

def kelvinToMev (x : Float) : Float := x * boltzmann

end ScatteringData
