import ScatteringData.Check

/-!
# Records

A record says where one evaluated data table lives and what it holds. Building a record normalises
its fields; afterwards any field may be overwritten by any value, and further ones may be added.
-/

namespace ScatteringData

/-- The fields of records. The three from the evaluation temperature on belong to some categories
only; further fields belong to none. -/
inductive Field
  | zaid | fileType | fileVersion | filePath | fileStartLine | tableName
  | evaluationTemperature | name | zaids
  | further (name : String)
deriving DecidableEq, Repr

namespace Field

def known : List Field :=
  [zaid, fileType, fileVersion, filePath, fileStartLine, tableName, evaluationTemperature, name,
    zaids]

def text : Field → String
  | zaid => "zaid"
  | fileType => "file_type"
  | fileVersion => "file_version"
  | filePath => "file_path"
  | fileStartLine => "file_start_line"
  | tableName => "table_name"
  | evaluationTemperature => "evaluation_temperature"
  | name => "name"
  | zaids => "zaids"
  | further s => s

def ofText (s : String) : Field := (known.find? fun f => f.text == s).getD (further s)

def required : Shape → List Field
  | .versioned => [zaid, fileType, fileVersion]
  | .temperature => [zaid, fileType, fileVersion, evaluationTemperature]
  | .named => [zaid, fileType, fileVersion, evaluationTemperature, name]

def common : List Field := [zaid, fileType, fileVersion, filePath, fileStartLine, tableName]

def declared : Shape → List Field
  | .versioned => common
  | .temperature => common ++ [evaluationTemperature]
  | .named => common ++ [evaluationTemperature, name, zaids]

end Field

structure Record where
  category : Category
  zaid : Value
  fileType : Value
  fileVersion : Value
  filePath : Value
  fileStartLine : Value
  tableName : Value
  evaluationTemperature : Option Value
  name : Option Value
  zaids : Option Value
  others : List (String × Value)

instance : Inhabited Record :=
  ⟨⟨.atomic .photoatomic, .null, .null, .null, .null, .null, .null, none, none, none, []⟩⟩

/-- The file type of a category that a value denotes: a text, or the same text as a file type of
any category. -/
def FileType.ofValue (c : Category) (v : Value) : Except Fault FileType :=
  match v.chars?.bind (FileType.ofText? c) with
  | some t => .ok t
  | none => .error (.raised (.notFileType c.fileTypeKind v))

def FileType.among (c : Option Category) (v : Value) : Except Fault FileType :=
  match c with
  | some c => ofValue c v
  | none => .error (.raised (.notFileType familyKind v))

def DataPath.ofValue : Value → Except Fault DataPath
  | .path p _ => .ok p
  | v =>
    match v.chars? with
    | some s => .ok (ofText s)
    | none => .error .wrongType

namespace Record

/-- The members of a collection; a text has its characters as members. Those of a set, which has no order
of its own, are taken in the ascending order in which it is kept. -/
def members : Value → Except Fault (List Value)
  | .list vs _ | .set vs _ => .ok vs
  | .zaids zs _ => .ok (zs.map fun z => .zaid z.1 z.2)
  | v =>
    match v.chars? with
    | some s => .ok (s.toList.map fun c => .text (String.singleton c) .shared)
    | none => .error .wrongType

/-- The identifiers that a thermal table covers: those given, and its own in front if absent. -/
def covered (own : Zaid × Mark) (mark : Mark) (given : Value) : Except Fault (List (Zaid × Mark)) := do
  let vs ← members given
  let zs ← vs.mapM Zaid.ofValue
  let marks := vs.zipIdx.map fun v => v.1.zaidMark (mark.part v.2)
  pure (if own.1 ∈ zs then zs.zip marks else own :: zs.zip marks)

def normalTemperature (given : Value) : Except Fault Energy := do Energy.ofFloat (← given.toMev)

def checkFields (shape : Shape) (given : List (Field × Value)) : Except Fault Unit :=
  if given.any fun g => g.1 ∉ Field.declared shape then .error .wrongType
  else if (Field.required shape).any fun f => (given.lookup f).isNone then .error .wrongType
  else .ok ()

/-- Why a record of a shape, but of no category, is not built: no file type fits it. -/
def refusal (shape : Shape) (given : List (Field × Value)) : Fault :=
  let checked := do
    checkFields shape given
    Zaid.ofValue ((given.lookup Field.zaid).getD .null)
  match checked with
  | .error f => f
  | .ok _ => .raised (.notFileType FileType.familyKind ((given.lookup Field.fileType).getD .null))

/-- Builds a record of a category from its fields; what has to be made for it is a part of the given
mark. -/
def build (c : Category) (mark : Mark) (given : List (Field × Value)) : Except Fault Record := do
  let value (f : Field) (absent : Value) : Value := (given.lookup f).getD absent
  checkFields c.shape given
  let zaid ← Zaid.ofValue (value .zaid .null)
  let zaidMark := (value .zaid .null).zaidMark (mark.part 0)
  let fileType ← FileType.ofValue c (value .fileType .null)
  let _ ← fileVersionOf (value .fileVersion .null)
  let path ← DataPath.ofValue (value .filePath (.text "" .shared))
  let energyMark :=
    (mark.part 2).around ((value .evaluationTemperature .null).mevMark (mark.part 5))
  let base : Record := {
    category := c
    zaid := .zaid zaid zaidMark
    fileType := .fileType fileType
    fileVersion := value .fileVersion .null
    filePath := .path path (mark.part 1)
    fileStartLine := value .fileStartLine (.int 0 .shared)
    tableName := value .tableName (.text "" .shared)
    evaluationTemperature := none
    name := none
    zaids := none
    others := [] }
  match c.shape with
  | .versioned => pure base
  | .temperature =>
    let e ← normalTemperature (value .evaluationTemperature .null)
    pure { base with evaluationTemperature := some (.energy e energyMark) }
  | .named =>
    let e ← normalTemperature (value .evaluationTemperature .null)
    let zs ← covered (zaid, zaidMark) (mark.part 4) (value .zaids (.zaids [] .shared))
    pure { base with
      evaluationTemperature := some (.energy e energyMark)
      name := some (value .name .null)
      zaids := some (.zaids zs (mark.part 3)) }

def read? (r : Record) : Field → Option Value
  | .zaid => some r.zaid
  | .fileType => some r.fileType
  | .fileVersion => some r.fileVersion
  | .filePath => some r.filePath
  | .fileStartLine => some r.fileStartLine
  | .tableName => some r.tableName
  | .evaluationTemperature => r.evaluationTemperature
  | .name => r.name
  | .zaids => r.zaids
  | .further s => r.others.lookup s

def write (r : Record) (f : Field) (v : Value) : Record :=
  match f with
  | .zaid => { r with zaid := v }
  | .fileType => { r with fileType := v }
  | .fileVersion => { r with fileVersion := v }
  | .filePath => { r with filePath := v }
  | .fileStartLine => { r with fileStartLine := v }
  | .tableName => { r with tableName := v }
  | .evaluationTemperature => { r with evaluationTemperature := some v }
  | .name => { r with name := some v }
  | .zaids => { r with zaids := some v }
  | .further s => { r with others := (s, v) :: r.others }

def values (r : Record) : List Value :=
  (Field.declared r.category.shape).map fun f => (r.read? f).getD .null

/-- The name of the category; a field of that name takes its place. -/
def categoryName (r : Record) : Value :=
  (r.read? (.further "category")).getD (.text r.category.label .shared)

/-- Whether two records are of one category and agree in all its fields, given whether the records
in their fields do. -/
def equalsWith (records : RecordRef → RecordRef → Option Bool) (r s : Record) : Option Bool :=
  if r.category = s.category then Value.agreeWith records r.values s.values else some false

def equals (r s : Record) : Bool := (equalsWith (fun a b => some (a == b)) r s).getD false

def covers (r : Record) (z : Zaid) : Except Fault Bool :=
  match r.zaids with
  | some (.zaids zs _) => .ok (zs.any fun y => y.1 == z)
  | some (.list vs _) => .ok (vs.any fun v => v.equals (.zaid z .shared))
  | some (.set vs _) => .ok (Key.zaid z.raw ∈ Value.keys vs)
  | some _ => .error .wrongType
  | none => .error .noAttribute

/-- The grade of a record. A temperature that was written over the energy counts by its number. -/
def grade (r : Record) : Except Fault Grade :=
  match r.evaluationTemperature with
  | some (.energy e _) => .ok (.energy e)
  | some (.temperature t _) => .ok (.energy ⟨t.kelvin, t.admissible⟩)
  | some (.fileType t) => .ok (.text t.text)
  | _ => .error .noAttribute

end Record

end ScatteringData
