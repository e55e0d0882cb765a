import ScatteringData.Store.Operation

/-!
# Rows

The contents of a map as its queries tell them: one row for each key that is listed, with the
record that an exact look-up of the key finds. Names and versions are listed in ascending order,
file types by their texts.
-/

namespace ScatteringData

structure Row where
  key : List Value
  record : RecordRef

def Value.sortedByText (vs : List Value) : List Value :=
  vs.mergeSort fun v w => v.plain ≤ w.plain

section

variable {β : Type}

/-- Goes through the rows in order with an action. Each row is listed only when it is reached, so
the first fault of a listing or of the action ends it. -/
def VersionedMap.forRows (m : VersionedMap) (f : Row → Except Fault β) : Except Fault (List β) :=
  (Value.sortedByText m.fileTypes).flatMapM fun t => do
    (← Value.sorted (← m.versions t)).mapM fun v => do
      f ⟨[t, v], ← m.get t v⟩

@[inherit_doc VersionedMap.forRows]
def TemperatureMap.forRows (m : TemperatureMap) (f : Row → Except Fault β) :
    Except Fault (List β) :=
  (Value.sortedByText m.fileTypes).flatMapM fun t => do
    (← Value.sorted (← m.versions t)).flatMapM fun v => do
      (← m.energies t v).mapM fun e => do
        let e := Value.energy e .shared
        f ⟨[t, v, e], ← (m.get t v e true).result⟩

@[inherit_doc VersionedMap.forRows]
def NamedMap.forRows (m : NamedMap) (f : Row → Except Fault β) : Except Fault (List β) := do
  (← Value.sorted m.names).flatMapM fun name => do
    (← m.under name).forRows fun row => f { row with key := name :: row.key }

end

namespace RecordMap

@[inherit_doc VersionedMap.forRows]
def forRows {β : Type} (m : RecordMap) (f : Row → Except Fault β) : Except Fault (List β) :=
  match m with
  | versioned m => m.forRows f
  | temperature m => m.forRows f
  | named m => m.forRows f

def rows (m : RecordMap) : Except Fault (List Row) := m.forRows pure

def lookup (m : RecordMap) (key : List Value) : Except Fault (Option RecordRef) :=
  match (m.ask .get key).result with
  | .ok (.record r) => .ok (some r)
  | .ok _ | .error (.request _) | .error (.unsatisfiable ..) => .ok none
  | .error f => .error f

end RecordMap

namespace Store

def rows (s : Store) (c : CenterRef) (k : Category) : Except Fault (List Row) :=
  match s.centerMap? c k with
  | some m => m.rows
  | none => .ok []

/-- For each row of a center, whether another center finds the same record under its key; none
where it finds none. The other center is asked about a row before the next one is listed. -/
def sharing (s : Store) (a b : CenterRef) (k : Category) : Except Fault (List (Option Bool)) :=
  match s.centerMap? a k with
  | none => .ok []
  | some own =>
    own.forRows fun row =>
      match s.centerMap? b k with
      | none => pure none
      | some m => do
        let found ← m.lookup row.key
        pure (found.map (· == row.record))

end Store

end ScatteringData
