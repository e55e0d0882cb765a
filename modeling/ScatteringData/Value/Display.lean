import ScatteringData.Value
import ScatteringData.Decimal.Shortest
import ScatteringData.Decimal.Scientific
import ScatteringData.Text.Quoted

/-!
# Values in messages

A message shows a value either plainly or quoted. The two differ for texts and quantities; the
members of a collection are always quoted.
-/

namespace ScatteringData

namespace Energy

def text (e : Energy) : String := Decimal.scientific e.mev ++ " MeV"

def quoted (e : Energy) : String := "Energy(value=" ++ Decimal.text e.mev ++ ")"

end Energy

namespace Temperature

def text (t : Temperature) : String := Decimal.scientific t.kelvin ++ " K"

def quoted (t : Temperature) : String := "Temperature(value=" ++ Decimal.text t.kelvin ++ ")"

end Temperature

namespace Zaid

def text (z : Zaid) : String := toString z.raw

def quoted (z : Zaid) : String := "ZAID(raw=" ++ z.text ++ ")"

end Zaid

def FileType.quoted (t : FileType) : String :=
  "<" ++ t.category.fileTypeKind ++ "." ++ t.format.constant ++ ": " ++ Text.quoted t.text ++ ">"

def Object.text : Object → String
  | .center _ caption => caption
  | o => "<" ++ o.kind ++ ">"

namespace Value

def rowText : List String → String
  | [s] => "(" ++ s ++ ",)"
  | ss => "(" ++ ", ".intercalate ss ++ ")"

mutual

def quoted : Value → String
  | null => "None"
  | bool b => if b then "True" else "False"
  | int n _ => toString n
  | float x _ => Decimal.text x
  | text s _ => Text.quoted s
  | fileType t => t.quoted
  | energy e _ => e.quoted
  | temperature t _ => t.quoted
  | zaid z _ => z.quoted
  | path p _ => "PosixPath(" ++ Text.quoted p.text ++ ")"
  | list vs _ => "[" ++ ", ".intercalate (quotedAll vs) ++ "]"
  | zaids zs _ => rowText (zs.map fun z => z.1.quoted)
  | set [] _ => "set()"
  | set vs _ => "\x7b" ++ ", ".intercalate (quotedAll vs) ++ "\x7d"
  | object o => o.text

def quotedAll : List Value → List String
  | [] => []
  | v :: vs => v.quoted :: quotedAll vs

end

def plain : Value → String
  | text s _ => s
  | fileType t => t.text
  | energy e _ => e.text
  | temperature t _ => t.text
  | zaid z _ => z.text
  | path p _ => p.text
  | v => v.quoted

end Value

end ScatteringData
