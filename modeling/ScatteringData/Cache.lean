import ScatteringData.Table
import ScatteringData.Outcome

/-!
# The cache

A cache keeps objects by name and lets aliases stand for names. A name is never an alias, and every
alias stands for a name that is kept; removing a name removes its aliases.
-/

namespace ScatteringData

structure Cache where
  kept : Table Object
  aliases : Table Value

namespace Cache

def empty : Cache := ⟨Table.empty, Table.empty⟩

instance : Inhabited Cache := ⟨empty⟩

/-- Whether an object may be kept under a name, and whether it would replace another. -/
def admits (c : Cache) (name : Value) : Except Fault (Label × Bool) := do
  let label ← Label.ofValue name
  match c.aliases.get? label.key with
  | some target => .error (.raised (.data (.nameIsAlias name target)))
  | none => pure (label, c.kept.contains label.key)

def keep (c : Cache) (name : Label) (o : Object) : Cache := { c with kept := c.kept.put name o }

def remove (c : Cache) (name : Value) : Cache × Outcome Unit :=
  if c.kept.isEmpty then (c, .ok ())
  else
    match name.key with
    | .error f => (c, .fail f)
    | .ok k =>
      if c.kept.contains k then
        let (stale, rest) := c.aliases.entries.partition fun e => e.2.equals name
        (⟨c.kept.erase k, ⟨rest⟩⟩, .note (.removedCached name stale.length))
      else (c, .ok ())

def knows (c : Cache) (name : Value) : Except Fault Bool := do
  let k ← name.key
  pure (c.kept.contains k || c.aliases.contains k)

def get (c : Cache) (name : Value) : Except Fault Object := do
  let target := (← c.aliases.find name).getD name
  match ← c.kept.find target with
  | some o => pure o
  | none => .error (.raised (.request (.notCached name)))

def link (c : Cache) (other name : Value) : Except Fault Cache := do
  let label ← Label.ofValue other
  if c.kept.contains label.key then .error (.raised (.data (.aliasIsName other)))
  else
    let k ← name.key
    if c.kept.contains k then pure { c with aliases := c.aliases.put label name }
    else .error (.raised (.data (.aliasWithoutTarget other name)))

def links (c : Cache) (other : Value) : Except Fault Bool := do
  let k ← other.key
  pure (c.aliases.contains k)

def unlink (c : Cache) (other : Value) : Except Fault Cache := do
  if c.aliases.isEmpty then pure c
  else
    let k ← other.key
    pure { c with aliases := c.aliases.erase k }

def nameList (c : Cache) : Except Fault String := do
  let names ← Value.sorted c.kept.labels
  let lines ← names.mapM fun v => do
    let name ← v.written
    pure (name ++ "\n")
  pure (String.join lines)

def aliasList (c : Cache) : Except Fault String := do
  let aliases ← Value.sorted c.aliases.labels
  let lines ← aliases.mapM fun v => do
    let other ← v.written
    let name ← ((v.key?.bind c.aliases.get?).getD .null).written
    pure (other ++ " -> " ++ name ++ "\n")
  pure (String.join lines)

end Cache

end ScatteringData
