import ScatteringData.Value.Reading

/-!
# Tables

A table keeps contents under labels in the order of their first insertion. Labels are the same when
their keys are; a label that is put again keeps its first form and its place.
-/

namespace ScatteringData

/-- A value that can be a key, with its canonical form. -/
structure Label where
  shown : Value
  key : Key
  key_shown : shown.key? = some key

namespace Label

def ofValue (v : Value) : Except Fault Label :=
  match h : v.key? with
  | some k => .ok ⟨v, k, h⟩
  | none => .error .wrongType

end Label

structure Table (α : Type) where
  entries : List (Label × α)

namespace Table

variable {α β σ : Type}

def empty : Table α := ⟨[]⟩

instance : Inhabited (Table α) := ⟨empty⟩

def isEmpty (t : Table α) : Bool := t.entries.isEmpty

def size (t : Table α) : Nat := t.entries.length

def get? (t : Table α) (k : Key) : Option α :=
  (t.entries.find? fun e => e.1.key == k).map (·.2)

def find (t : Table α) (v : Value) : Except Fault (Option α) := do
  let k ← v.key
  pure (t.get? k)

def contains (t : Table α) (k : Key) : Bool := (t.get? k).isSome

def putIn (l : Label) (a : α) : List (Label × α) → List (Label × α)
  | [] => [(l, a)]
  | e :: es => if e.1.key = l.key then (e.1, a) :: es else e :: putIn l a es

def put (t : Table α) (l : Label) (a : α) : Table α := ⟨putIn l a t.entries⟩

def erase (t : Table α) (k : Key) : Table α := ⟨t.entries.filter fun e => e.1.key ≠ k⟩

def labels (t : Table α) : List Value := t.entries.map (·.1.shown)

def contents (t : Table α) : List α := t.entries.map (·.2)

def rebuildIn (f : σ → α → σ × β) : σ → List (Label × α) → σ × List (Label × β)
  | s, [] => (s, [])
  | s, e :: es =>
    let (s, b) := f s e.2
    let (s, es) := rebuildIn f s es
    (s, (e.1, b) :: es)

def rebuild (f : σ → α → σ × β) (s : σ) (t : Table α) : σ × Table β :=
  let (s, es) := rebuildIn f s t.entries
  (s, ⟨es⟩)

theorem get?_empty (k : Key) : (empty : Table α).get? k = none := rfl

theorem get?_put (t : Table α) (l : Label) (a : α) (k : Key) :
    (t.put l a).get? k = if l.key = k then some a else t.get? k := by
  obtain ⟨es⟩ := t
  simp only [put, get?]
  induction es with
  | nil => by_cases h : l.key = k <;> simp [putIn, h]
  | cons e es ih =>
    by_cases he : e.1.key = l.key
    · by_cases h : l.key = k <;> simp [putIn, he, h]
    · by_cases hk : e.1.key = k
      · subst hk
        simp [putIn, he, Ne.symm he]
      · simpa [putIn, he, hk] using ih

end Table

end ScatteringData
