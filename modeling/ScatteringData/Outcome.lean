import ScatteringData.Fault
import ScatteringData.Journal

/-!
# Outcomes

An operation leaves journal entries behind and ends with a result or a fault. Outcomes in sequence
keep the entries of all that ran, also when the last one failed.
-/

namespace ScatteringData

structure Outcome (α : Type) where
  entries : List Entry
  result : Except Fault α

namespace Outcome

variable {α β : Type}

def ok (a : α) : Outcome α := ⟨[], .ok a⟩

def fail (f : Fault) : Outcome α := ⟨[], .error f⟩

def note (e : Entry) : Outcome Unit := ⟨[e], .ok ()⟩

def ofExcept (x : Except Fault α) : Outcome α := ⟨[], x⟩

def bind (x : Outcome α) (f : α → Outcome β) : Outcome β :=
  match x.result with
  | .ok a => ⟨x.entries ++ (f a).entries, (f a).result⟩
  | .error e => ⟨x.entries, .error e⟩

instance : Monad Outcome where
  pure := ok
  bind := bind

instance : MonadLift (Except Fault) Outcome := ⟨ofExcept⟩

def map (f : α → β) (x : Outcome α) : Outcome β := ⟨x.entries, x.result.map f⟩

/-- What somebody who reads every entry at once lets happen of a change from an old state to a new
one. An entry that has no text stops it, either before the change or right after it. -/
def heard {σ : Type} (old new : σ) (x : Outcome Unit) : σ × Outcome Unit :=
  match Entry.firstUnwritable? x.entries with
  | none => (new, x)
  | some (written, e, f) => (if e.announces then old else new, ⟨written, .error f⟩)

end Outcome

end ScatteringData
