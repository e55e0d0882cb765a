import ScatteringData.Value.Display
import ScatteringData.Decimal.Numeral
import ScatteringData.Lattice

/-!
# Faults

Every way in which an operation can fail, with what the message about it shows. Faults of data are
values that no object may hold, faults of requests are look-ups without an answer; the others say
that an argument has the wrong type or cannot be read as a number or a lattice of numbers. A message
is written when its fault is raised, and an integer that is too long to be written takes its place.
-/

namespace ScatteringData

inductive DataFault
  | atomicNumber (z : Value)
  | massNumber (a : Value)
  | weightRatio (label ratio : Value)
  | temperature (value unit : Value)
  | versionNotInteger (version : Value)
  | versionNegative (version : Int)
  | zaidNotInteger (raw : Value)
  | zaidNegative (raw : Int)
  | unexpectedKind (expected found : String)
  | foreignElement (category : Category) (zaid : Value) (atom : Zaid)
  | foreignNuclide (category : Category) (zaid : Value) (nuclide : Zaid)
  | nameIsAlias (name target : Value)
  | aliasIsName (other : Value)
  | aliasWithoutTarget (other name : Value)

inductive RequestFault
  | unknownFileType (category : String) (fileType : Value)
  | unknownVersion (category : String) (fileType version : Value)
  | unknownName (category : String) (name : Value)
  | notCached (name : Value)

inductive Fault
  | data (fault : DataFault)
  | request (fault : RequestFault)
  /-- No record of the bucket was evaluated at the energy in the request. -/
  | unsatisfiable (category : String) (fileType version : Value) (mev : Float)
  /-- The value is no file type of the family with the given name. -/
  | notFileType (family : String) (value : Value)
  | notDouble (value : Value)
  | notInteger (value : Value)
  | nanToInteger
  | infinityToInteger
  | integerTooLarge
  /-- An integer has too many digits to be written, or to be read where their number is given. -/
  | numeralTooLong (digits : Option Nat)
  | lattice (fault : LatticeFault)
  /-- A text was searched for among numbers, by an exact search or by a search for the nearest. -/
  | textQuery (exact : Bool)
  /-- References lead from records back to themselves. -/
  | endless
  | wrongType
  | noAttribute

namespace DataFault

def message : DataFault → String
  | atomicNumber z =>
    let shown := z.plain
    s!"Atomic number Z={shown} is outside the valid range [{Element.minNumber}, {Element.maxNumber}]."
  | massNumber a =>
    let shown := a.plain
    s!"Atomic mass number A={shown} is outside the valid range [0, {Zaid.maxMassNumber}]."
  | weightRatio label ratio =>
    s!"The {label.plain} must be a positive, finite number (got {ratio.quoted})."
  | temperature value unit =>
    s!"Temperatures must be non-negative and finite (got {value.quoted} {unit.plain})."
  | versionNotInteger version => s!"File versions must be integers (got {version.quoted})."
  | versionNegative version => s!"File versions must be non-negative (got {version})."
  | zaidNotInteger raw => s!"A ZAID must be an integer (got {raw.quoted})."
  | zaidNegative raw => s!"A ZAID must be non-negative (got {raw})."
  | unexpectedKind expected found => s!"Expected {expected}, got {found}."
  | foreignElement category zaid atom =>
    s!"The {category.label} data properties for ZAID {zaid.plain} do not belong to atom {atom.text}."
  | foreignNuclide category zaid nuclide =>
    s!"The {category.label} data properties for ZAID {zaid.plain} do not provide data for nuclide {nuclide.text}."
  | nameIsAlias name target =>
    s!"Cannot add properties \x27{name.plain}\x27: the name is already an alias for \x27{target.plain}\x27."
  | aliasIsName other =>
    s!"Cannot use \x27{other.plain}\x27 as an alias: properties with that name are cached."
  | aliasWithoutTarget other name =>
    s!"Cannot alias \x27{other.plain}\x27 to \x27{name.plain}\x27: no properties with that name are cached."

def values : DataFault → List Value
  | atomicNumber v | massNumber v | versionNotInteger v | zaidNotInteger v | foreignElement _ v _
  | foreignNuclide _ v _ | aliasIsName v => [v]
  | weightRatio v w | temperature v w | nameIsAlias v w | aliasWithoutTarget v w => [v, w]
  | versionNegative n | zaidNegative n => [.int n .shared]
  | unexpectedKind _ _ => []

end DataFault

namespace RequestFault

def message : RequestFault → String
  | unknownFileType category fileType =>
    s!"No {category} data properties with file type {fileType.plain} have been set."
  | unknownVersion category fileType version =>
    s!"No {category} data properties with file type {fileType.plain} and version {version.plain} have been set."
  | unknownName category name =>
    s!"No {category} data properties named \x27{name.plain}\x27 have been set."
  | notCached name => s!"No properties named \x27{name.plain}\x27 are cached."

def values : RequestFault → List Value
  | unknownFileType _ v | unknownName _ v | notCached v => [v]
  | unknownVersion _ v w => [v, w]

end RequestFault

namespace Value

mutual

/-- Whether a value is an integer that is too long to be written, or has one among its members. -/
def isUnwritable : Value → Bool
  | int n _ => Decimal.isTooLong n
  | list vs _ | set vs _ => isAnyUnwritable vs
  | _ => false

def isAnyUnwritable : List Value → Bool
  | [] => false
  | v :: vs => v.isUnwritable || isAnyUnwritable vs

end

end Value

namespace Fault

/-- The longest part of a text that the message about a failed integer reading shows. -/
def shownNumeral : Nat := 200

/-- The values that the message of a fault shows; the others show texts and doubles only. -/
def values : Fault → List Value
  | data fault => fault.values
  | request fault => fault.values
  | unsatisfiable _ v w _ => [v, w]
  | notFileType _ v => [v]
  | _ => []

/-- What comes of a fault once its message has to be written. -/
def raised (f : Fault) : Fault :=
  if Value.isAnyUnwritable f.values then numeralTooLong none else f

/-- The message of a fault; those of types, attributes and endless references have none, nor have
those of texts among numbers. -/
def message? : Fault → Option String
  | data fault => some fault.message
  | request fault => some fault.message
  | unsatisfiable category fileType version mev =>
    let query := Decimal.scientific mev
    some s!"No {category} data properties with file type {fileType.plain} and version {version.plain} were evaluated at {query} MeV."
  | notFileType family value => some s!"{value.quoted} is not a valid {family}"
  | notDouble value => some s!"could not convert string to float: {value.quoted}"
  | notInteger value =>
    let shown := String.ofList (value.quoted.toList.take shownNumeral)
    some s!"invalid literal for int() with base 10: {shown}"
  | nanToInteger => some "cannot convert float NaN to integer"
  | infinityToInteger => some "cannot convert float infinity to integer"
  | integerTooLarge => some "int too large to convert to float"
  | numeralTooLong digits =>
    let count := (digits.map fun n => s!": value has {n} digits").getD ""
    some s!"Exceeds the limit ({Decimal.maxDigits} digits) for integer string conversion{count}; use sys.set_int_max_str_digits() to increase the limit"
  | lattice fault => some fault.message
  | textQuery _ | endless | wrongType | noAttribute => none

end Fault

def Value.written (v : Value) : Except Fault String :=
  if v.isUnwritable then .error (.numeralTooLong none) else .ok v.plain

end ScatteringData
