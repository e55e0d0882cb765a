/-!
# Paths

A path is a root and a row of parts. Empty parts and single dots are dropped; two dots stay. Two
leading slashes are a root of their own, while three or more count as one.
-/

namespace ScatteringData

structure DataPath where
  root : String
  parts : List String
deriving DecidableEq, Repr

namespace DataPath

/-- The pieces between slashes; the text is never without a piece. -/
def split : List Char → List (List Char)
  | [] => [[]]
  | c :: rest =>
    match c, split rest with
    | '/', pieces => [] :: pieces
    | c, piece :: pieces => (c :: piece) :: pieces
    | c, [] => [[c]]

def rootOf : List Char → String
  | '/' :: '/' :: '/' :: _ => "/"
  | '/' :: '/' :: _ => "//"
  | '/' :: _ => "/"
  | _ => ""

def ofText (s : String) : DataPath where
  root := rootOf s.toList
  parts := ((split s.toList).filter fun p => p ≠ [] ∧ p ≠ ['.']).map String.ofList

def text (p : DataPath) : String :=
  let t := p.root ++ "/".intercalate p.parts
  if t.isEmpty then "." else t

/-- The root, unless the path has none, and then the parts: what paths are ordered by. -/
def components (p : DataPath) : List String :=
  if p.root.isEmpty then p.parts else p.root :: p.parts

def name (p : DataPath) : String := p.parts.getLast?.getD ""

end DataPath

end ScatteringData
