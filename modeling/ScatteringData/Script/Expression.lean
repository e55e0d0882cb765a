import ScatteringData.Record

/-!
# Expressions

A script writes its arguments as expressions: plain values, numerals, quantities built from other
expressions, and handles of earlier results. Evaluating one can fail like any operation.
-/

namespace ScatteringData.Script

inductive Failure
  | fault (f : Fault)
  | unbound (handle : String)
  | noMethod (method kind : String)

def Failure.message? : Failure → Option String
  | fault f => f.message?
  | unbound handle => some s!"unbound handle {handle}"
  | noMethod method kind => some s!"no method {method} on {kind}"

abbrev Handles := List (String × Value)

def Handles.get (hs : Handles) (handle : String) : Except Failure Value :=
  match hs.lookup handle with
  | some v => .ok v
  | none => .error (.unbound handle)

inductive Expression
  | null
  | bool (b : Bool)
  | int (n : Int)
  | text (s : String)
  /-- The numeral of an integer. -/
  | numeral (s : String)
  /-- The numeral of a double. -/
  | double (s : String)
  | energy (e : Expression)
  | temperature (e : Expression)
  | zaid (e : Expression)
  /-- A file type of a category; without a category there is none. -/
  | fileType (c : Option Category) (e : Expression)
  | handle (name : String)
  | list (es : List Expression)

instance : Inhabited Expression := ⟨.null⟩

def lifted {α : Type} (x : Except Fault α) : Except Failure α := x.mapError .fault

namespace Expression

mutual

/-- The value of an expression. What is new in it is a part of the given mark. -/
def eval (hs : Handles) (mark : Mark) : Expression → Except Failure Value
  | null => .ok .null
  | bool b => .ok (.bool b)
  | int n => .ok (.int n mark)
  | text s => .ok (.text s mark)
  | numeral s => do
    let n ← lifted (Value.intOfText (.text s mark) s)
    pure (.int n mark)
  | double s => do
    let x ← lifted (Value.doubleOfText (.text s mark) s)
    pure (.float x mark)
  | energy e => do
    let v ← eval hs (mark.part 0) e
    let e ← lifted (Energy.ofValue v)
    pure (.energy e (mark.around (v.floatMark (mark.part 1))))
  | temperature e => do
    let v ← eval hs (mark.part 0) e
    let t ← lifted (Temperature.ofValue v)
    pure (.temperature t (mark.around (v.floatMark (mark.part 1))))
  | zaid e => do
    let v ← eval hs (mark.part 0) e
    let z ← lifted (Zaid.ofValue v)
    pure (.zaid z (mark.around (v.intMark (mark.part 1))))
  | fileType c e => do
    let v ← eval hs (mark.part 0) e
    let t ← lifted (FileType.among c v)
    pure (.fileType t)
  | handle name => hs.get name
  | list es => do
    let vs ← evalFrom hs mark 0 es
    pure (.list vs mark)

def evalFrom (hs : Handles) (mark : Mark) (place : Nat) :
    List Expression → Except Failure (List Value)
  | [] => .ok []
  | e :: es => do
    let v ← eval hs (mark.part place) e
    let vs ← evalFrom hs mark (place + 1) es
    pure (v :: vs)

end

def evalAll (hs : Handles) (mark : Mark) (es : List Expression) : Except Failure (List Value) :=
  evalFrom hs mark 0 es

end Expression

def evalFields (hs : Handles) (mark : Mark) (fields : List (String × Expression)) :
    Except Failure (List (Field × Value)) :=
  fields.zipIdx.mapM fun ((name, e), i) => do
    let v ← e.eval hs (mark.part i)
    pure (Field.ofText name, v)

end ScatteringData.Script
