import ScatteringData.RecordMap.Temperature

/-!
# Records by name

A map with temperatures for each name. Its category is the one of the whole with the name in
parentheses, so that messages tell the maps apart.
-/

namespace ScatteringData

structure NamedMap where
  category : String
  maps : Table TemperatureMap

namespace NamedMap

def empty (category : String) : NamedMap := ⟨category, Table.empty⟩

def subcategory (category : String) (name : Value) : Except Fault String := do
  let shown ← name.written
  pure s!"{category} ({shown})"

def inner (m : NamedMap) (name : Label) : Except Fault TemperatureMap :=
  match m.maps.get? name.key with
  | some inner => .ok inner
  | none => (subcategory m.category name.shown).map TemperatureMap.empty

def set (m : NamedMap) (ref : RecordRef) (r : Record) : NamedMap × Outcome Unit :=
  match r.name with
  | none => (m, .fail .noAttribute)
  | some name =>
    match Label.ofValue name with
    | .error f => (m, .fail f)
    | .ok label =>
      match m.inner label with
      | .error f => (m, .fail f)
      | .ok inner =>
        let (inner, outcome) := inner.set ref r
        ({ m with maps := m.maps.put label inner }, outcome)

/-- What setting a value that has a name but is no record leaves behind: the name was entered before
the value turned out to be unusable. -/
def setUnusable (m : NamedMap) (name : Value) : NamedMap × Outcome Unit :=
  match Label.ofValue name with
  | .error f => (m, .fail f)
  | .ok label =>
    match m.inner label with
    | .error f => (m, .fail f)
    | .ok inner => ({ m with maps := m.maps.put label inner }, .fail .noAttribute)

theorem inner_eq_ok {m : NamedMap} {l : Label} {x : TemperatureMap} (h : m.inner l = .ok x) :
    m.maps.get? l.key = some x ∨
      m.maps.get? l.key = none ∧ ∃ category, x = TemperatureMap.empty category := by
  unfold inner at h
  split at h
  · rename_i y hy
    cases h
    exact Or.inl hy
  · rename_i hnone
    cases hcategory : subcategory m.category l.shown with
    | error f => rw [hcategory] at h; cases h
    | ok category => rw [hcategory] at h; cases h; exact Or.inr ⟨hnone, category, rfl⟩

theorem set_cases (m : NamedMap) (ref : RecordRef) (r : Record) :
    (∃ f, m.set ref r = (m, .fail f)) ∨
      ∃ name l x, r.name = some name ∧ Label.ofValue name = .ok l ∧ m.inner l = .ok x ∧
        m.set ref r = ({ m with maps := m.maps.put l (x.set ref r).1 }, (x.set ref r).2) := by
  unfold set
  split
  · exact Or.inl ⟨_, rfl⟩
  · rename_i name hname
    split
    · exact Or.inl ⟨_, rfl⟩
    · rename_i l hl
      split
      · exact Or.inl ⟨_, rfl⟩
      · rename_i x hx
        exact Or.inr ⟨name, l, x, hname, hl, hx, rfl⟩

theorem setUnusable_cases (m : NamedMap) (name : Value) :
    (∃ f, m.setUnusable name = (m, .fail f)) ∨
      ∃ l x, Label.ofValue name = .ok l ∧ m.inner l = .ok x ∧
        m.setUnusable name = ({ m with maps := m.maps.put l x }, .fail .noAttribute) := by
  unfold setUnusable
  split
  · exact Or.inl ⟨_, rfl⟩
  · rename_i l hl
    split
    · exact Or.inl ⟨_, rfl⟩
    · rename_i x hx
      exact Or.inr ⟨l, x, hl, hx, rfl⟩

def names (m : NamedMap) : List Value := m.maps.labels

def under (m : NamedMap) (name : Value) : Except Fault TemperatureMap := do
  match ← m.maps.find name with
  | some inner => pure inner
  | none => .error (.raised (.request (.unknownName m.category name)))

/-- Whether a record with the given keys is set; a null stands for any. Without a name nothing else
is looked at. -/
def available (m : NamedMap) (name fileType version temperature : Value) :
    Except Fault Bool := do
  if name.isNull then pure !m.maps.isEmpty
  else
    match ← m.maps.find name with
    | none => pure false
    | some inner => inner.available fileType version temperature

def fileTypes (m : NamedMap) (name : Value) : Except Fault (List Value) := do
  match ← m.maps.find name with
  | none => pure []
  | some inner => pure inner.fileTypes

def versions (m : NamedMap) (name fileType : Value) : Except Fault (List Value) := do
  match ← m.maps.find name with
  | none => pure []
  | some inner => inner.versions fileType

def recommendedVersion (m : NamedMap) (name fileType : Value) : Except Fault Value := do
  (← m.under name).recommendedVersion fileType

def energies (m : NamedMap) (name fileType version : Value) : Except Fault (List Energy) := do
  match ← m.maps.find name with
  | none => pure []
  | some inner => inner.energies fileType version

def temperatures (m : NamedMap) (name fileType version : Value) :
    Except Fault (List Temperature) := do
  match ← m.maps.find name with
  | none => pure []
  | some inner => inner.temperatures fileType version

def get (m : NamedMap) (name fileType version temperature : Value) (exact : Bool) :
    Outcome RecordRef := do
  let inner ← m.under name
  inner.get fileType version temperature exact

def records (m : NamedMap) : List RecordRef := m.maps.contents.flatMap TemperatureMap.records

def rebuild {σ : Type} (f : σ → RecordRef → σ × RecordRef) (s : σ) (m : NamedMap) : σ × NamedMap :=
  let (s, maps) := m.maps.rebuild (TemperatureMap.rebuild f) s
  (s, { m with maps })

end NamedMap

end ScatteringData
