import ScatteringData.Script.Expression
import ScatteringData.Store.Operation
import ScatteringData.Store.Shown

/-!
# Methods

The methods of objects by their names. Which ones an object has depends on its kind; the methods of
a center repeat for each of its categories.
-/

namespace ScatteringData.Script

inductive Method
  | isNuclide
  | copy (depth : Depth)
  | setOn (k : Category)
  | askOn (k : Category) (q : Query)
  | set
  | ask (q : Query)
  | records
  | evaluationTemperature
  | covers
  | add | remove | knows | fetch | count
  | link | links | unlink | countLinks
  | clear | listNames | listLinks
deriving DecidableEq, Repr

def queryName : Query → String
  | .available => "available"
  | .get => "get"
  | .fileTypes => "file_types"
  | .versions => "versions"
  | .recommendedVersion => "recommended_version"
  | .energies => "evaluation_temps_in_mev"
  | .temperatures => "evaluation_temps"
  | .names => "names"

def categoryQueryName (k : Category) : Query → String
  | .available => s!"{k.slug}_data_available"
  | .get => s!"get_{k.slug}_data_properties"
  | .fileTypes => s!"get_{k.slug}_data_file_types"
  | .versions => s!"get_{k.slug}_data_file_versions"
  | .recommendedVersion => s!"get_recommended_{k.slug}_data_file_version"
  | .energies => s!"get_{k.slug}_data_evaluation_temps_in_mev"
  | .temperatures => s!"get_{k.slug}_data_evaluation_temps"
  | .names => s!"get_{k.slug}_data_names"

def queriesOf (shape : Shape) : List Query :=
  [.available, .get, .fileTypes, .versions, .recommendedVersion, .energies, .temperatures,
    .names].filter fun q => (q.arity? shape).isSome

abbrev Methods := List (String × Method)

def categoryMethods (k : Category) : Methods :=
  (s!"set_{k.slug}_data_properties", .setOn k) ::
    (queriesOf k.shape).map fun q => (categoryQueryName k q, .askOn k q)

def centerMethods (c : CenterRef) : Methods :=
  [("is_nuclide", .isNuclide), ("clone", .copy .maps), ("deep_clone", .copy .everything)] ++
    (match c with
    | .atom _ => []
    | .nuclide _ => [("partial_deep_clone", .copy .records)]) ++
    c.categories.flatMap categoryMethods

def mapMethods (shape : Shape) : Methods :=
  [("set", .set), ("records", .records), ("copy", .copy .maps), ("deep_copy", .copy .records)] ++
    (queriesOf shape).map fun q => (queryName q, .ask q)

def recordMethods (k : Category) : Methods :=
  ("clone", .copy .maps) ::
    (match k.shape with
    | .versioned => []
    | .temperature => [("evaluation_temperature_in_mev", .evaluationTemperature)]
    | .named =>
      [("evaluation_temperature_in_mev", .evaluationTemperature), ("has_data_for_zaid", .covers)])

def cacheMethods : Methods :=
  [("add_properties", .add), ("remove_properties", .remove), ("does_properties_exist", .knows),
    ("get_properties", .fetch), ("get_number_of_properties", .count),
    ("add_properties_alias", .link), ("does_alias_exist", .links),
    ("remove_properties_alias", .unlink), ("get_number_of_aliases", .countLinks),
    ("clear", .clear), ("list_properties_names", .listNames), ("list_aliases", .listLinks)]

def methodsOf : Value → Methods
  | .object (.center c _) => centerMethods c
  | .object (.map shape _) => mapMethods shape
  | .object (.record k _) => recordMethods k
  | .object (.cache _) => cacheMethods
  | _ => []

def findMethod (on : Value) (name : String) : Except Failure Method :=
  match (methodsOf on).lookup name with
  | some m => .ok m
  | none => .error (.noMethod name on.kind)

end ScatteringData.Script
