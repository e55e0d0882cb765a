import ScatteringData.Fault
import ScatteringData.Value.Order

/-!
# Reading values

What a value stands for where a double, an energy, a temperature or an identifier is expected.
Quantities give their own number unconverted where a double is read; numerals in texts are read.
-/

namespace ScatteringData

namespace Value

def key (v : Value) : Except Fault Key :=
  match v.key? with
  | some k => .ok k
  | none => .error .wrongType

def countDistinct (vs : List Value) : Except Fault Nat := do
  let ks ← vs.mapM key
  pure ks.eraseDups.length

def sorted (vs : List Value) : Except Fault (List Value) :=
  match sort? vs with
  | some vs => .ok vs
  | none => .error .wrongType

def doubleOfInt (n : Int) : Except Fault Float :=
  match Double.ofInt? n with
  | some x => .ok x
  | none => .error .integerTooLarge

def doubleOfText (v : Value) (s : String) : Except Fault Float :=
  match Decimal.readDouble? s with
  | some x => .ok x
  | none => .error (.notDouble v)

def intOfText (v : Value) (s : String) : Except Fault Int :=
  match Decimal.readInt s with
  | .ok n => .ok n
  | .error .malformed => .error (.notInteger v)
  | .error (.tooLong digits) => .error (.numeralTooLong (some digits))

def toDouble (v : Value) : Except Fault Float :=
  match v with
  | bool b => .ok (if b then 1.0 else 0.0)
  | int n _ => doubleOfInt n
  | float x _ => .ok x
  | energy e _ => .ok e.mev
  | temperature t _ => .ok t.kelvin
  | text s _ => doubleOfText v s
  | fileType t => doubleOfText v t.text
  | _ => .error .wrongType

def numberToDouble (v : Value) : Except Fault Float :=
  match v.number? with
  | some (.int n) => doubleOfInt n
  | some (.float x) => .ok x
  | none => .error .wrongType

end Value

namespace Energy

def ofFloat (x : Float) : Except Fault Energy :=
  if h : isMagnitude x = true then .ok ⟨x, h⟩
  else .error (.data (.temperature (.float x .shared) (.text "MeV" .shared)))

def ofValue (v : Value) : Except Fault Energy := do ofFloat (← v.toDouble)

end Energy

namespace Temperature

def ofFloat (x : Float) : Except Fault Temperature :=
  if h : isMagnitude x = true then .ok ⟨x, h⟩
  else .error (.data (.temperature (.float x .shared) (.text "K" .shared)))

def ofValue (v : Value) : Except Fault Temperature := do ofFloat (← v.toDouble)

def toEnergy (t : Temperature) : Except Fault Energy := Energy.ofFloat (kelvinToMev t.kelvin)

end Temperature

def Energy.toTemperature (e : Energy) : Except Fault Temperature :=
  Temperature.ofFloat (mevToKelvin e.mev)

/-- An evaluation temperature in MeV: temperatures are converted, energies and numbers are in MeV
already. -/
def Value.toMev : Value → Except Fault Float
  | .temperature t _ => .ok (kelvinToMev t.kelvin)
  | .energy e _ => .ok e.mev
  | v => do
    let e ← Energy.ofValue v
    pure e.mev

def checkAtomicNumber (z : Value) : Except Fault Unit :=
  match z.number? with
  | some n =>
    if n.between Element.minNumber Element.maxNumber then .ok ()
    else .error (.raised (.data (.atomicNumber z)))
  | none => .error .wrongType

def checkMassNumber (a : Value) : Except Fault Unit :=
  match a.number? with
  | some n =>
    if n.between 0 Zaid.maxMassNumber then .ok ()
    else .error (.raised (.data (.massNumber a)))
  | none => .error .wrongType

namespace Zaid

def ofInt (n : Int) : Except Fault Zaid :=
  if n < 0 then .error (.raised (.data (.zaidNegative n)))
  else
    match ofNat? n.toNat with
    | some z => .ok z
    | none => .error (.raised (.data (.atomicNumber (.int (n / 1000) .shared))))

/-- Reads an identifier or an integral number. A text is no identifier, even if it is a numeral. -/
def ofValue (v : Value) : Except Fault Zaid :=
  match v with
  | .zaid z _ => .ok z
  | .int n _ => ofInt n
  | .float x _ =>
    match Double.integer? x with
    | some n => ofInt n
    | none =>
      if x.isFinite then .error (.data (.zaidNotInteger v))
      else .error (if x.isNaN then .nanToInteger else .infinityToInteger)
  | .bool _ => .error (.data (.zaidNotInteger v))
  | .text _ _ | .fileType _ =>
    match v.intOfText (v.chars?.getD "") with
    | .ok _ => .error (.data (.zaidNotInteger v))
    | .error f => .error f
  | _ => .error .wrongType

/-- The number `1000 * z + a`, rounded where one of the two is a double. -/
def packed (z a : Number) : Except Fault Number :=
  match z, a with
  | .int z, .int a => .ok (.int (z * 1000 + a))
  | .int z, .float a => do
    let x ← Value.doubleOfInt (z * 1000)
    pure (.float (x + a))
  | .float z, .int a => do
    let y ← Value.doubleOfInt a
    pure (.float (z * 1000.0 + y))
  | .float z, .float a => .ok (.float (z * 1000.0 + a))

def ofNumbers (z a : Value) : Except Fault Zaid := do
  checkMassNumber a
  match z.number?, a.number? with
  | some z, some a =>
    match ← packed z a with
    | .int n => ofInt n
    | .float x => ofValue (.float x .shared)
  | _, _ => .error .wrongType

end Zaid

end ScatteringData
