import ScatteringData.Heap.Setting
import ScatteringData.Store.Operation
import ScatteringData.World.Copying

/-!
# Operations on a world

Sets change containers in place, and copies make new ones. All other operations leave the containers as
they are and are those of the store that is seen.
-/

namespace ScatteringData

namespace World

def followed (w : World) (change : Heap × Outcome Unit) : World × Outcome Unit :=
  let (heap, outcome) := w.objects.followed w.heap change
  ({ w with heap }, outcome)

def set (w : World) (m : MapRef) (v : Value) : World × Outcome Unit :=
  match w.objects.at? (.map m), v with
  | none, _ => (w, .fail .noAttribute)
  | some x, .object (.record _ r) => w.followed (w.heap.set x r (w.objects.record r))
  | some x, v =>
    match w.store.nameOf? v with
    | none => (w, .fail .noAttribute)
    | some name =>
      let (heap, outcome) := w.heap.setUnusable x name
      ({ w with heap }, outcome)

def setOn (w : World) (c : CenterRef) (k : Category) (v : Value) : World × Outcome Unit :=
  match (w.store.seat? c k).bind w.objects.at? with
  | none => (w, .fail .noAttribute)
  | some x =>
    match w.store.accepted c k v with
    | .error f => (w, .fail f)
    | .ok r => w.followed (w.heap.set x r (w.objects.record r))

def copyObject (w : World) : Value → World × Outcome Object
  | .object (.center c _) =>
    let (w, entries, copy) := w.copyCenter c .maps
    (w, ⟨entries, .ok (w.store.centerObject copy)⟩)
  | .object (.record kind r) =>
    let (w, r) := w.cloneRecord r
    (w, .ok (.record kind r))
  | _ => (w, .fail .noAttribute)

def putCache (w : World) (c : CacheRef) (cache : Cache) : World :=
  { w with objects := w.objects.putCache c cache }

def addToCache (w : World) (c : CacheRef) (v : Value) : World × Outcome Unit :=
  match w.store.nameOf? v with
  | none => (w, .fail .noAttribute)
  | some name =>
    match (w.objects.cache c).admits name with
    | .error f => (w, .fail f)
    | .ok (label, present) =>
      let (w, copy) := w.copyObject v
      let before := (if present then [.replacingCached name] else []) ++ copy.entries
      match copy.result with
      | .error f => (w, ⟨before, .error f⟩)
      | .ok o =>
        (w.putCache c ((w.objects.cache c).keep label o), ⟨before ++ [.cached name], .ok ()⟩)

@[inherit_doc Store.perform]
def perform (w : World) : Operation → World × Outcome Value
  | .set m v => let (t, o) := w.set m v; (t, o.map fun _ => .null)
  | .setOn c k v => let (t, o) := w.setOn c k v; (t, o.map fun _ => .null)
  | .copyMap m deep =>
    let (t, copy) := w.copyMap m deep
    (t, .ok (.object (.map (t.store.map copy).shape copy)))
  | .copyCenter c depth =>
    let (t, entries, copy) := w.copyCenter c depth
    (t, ⟨entries, .ok (.object (t.store.centerObject copy))⟩)
  | .addToCache c v => let (t, o) := w.addToCache c v; (t, o.map fun _ => .null)
  | op =>
    let (t, o) := w.store.perform op
    (w.renew t, o)

end World

end ScatteringData
