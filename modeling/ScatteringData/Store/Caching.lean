import ScatteringData.Store.Copying

/-!
# Caching

A cache takes a copy of what is added to it, under the name that it has.
-/

namespace ScatteringData

namespace Store

def copyObject (s : Store) : Value → Store × Outcome Object
  | .object (.center c _) =>
    let (s, entries, copy) := s.copyCenter c .maps
    (s, ⟨entries, .ok (s.centerObject copy)⟩)
  | .object (.record kind r) =>
    let (s, r) := s.cloneRecord r
    (s, .ok (.record kind r))
  | _ => (s, .fail .noAttribute)

def addToCache (s : Store) (c : CacheRef) (v : Value) : Store × Outcome Unit :=
  match s.nameOf? v with
  | none => (s, .fail .noAttribute)
  | some name =>
    match (s.cache c).admits name with
    | .error f => (s, .fail f)
    | .ok (label, present) =>
      let (s, copy) := s.copyObject v
      let before := (if present then [.replacingCached name] else []) ++ copy.entries
      match copy.result with
      | .error f => (s, ⟨before, .error f⟩)
      | .ok o =>
        (s.putCache c ((s.cache c).keep label o), ⟨before ++ [.cached name], .ok ()⟩)

def changeCache (s : Store) (c : CacheRef) (change : Except Fault Cache) : Store × Outcome Unit :=
  match change with
  | .ok cache => (s.putCache c cache, .ok ())
  | .error f => (s, .fail f)

def removeFromCache (s : Store) (c : CacheRef) (name : Value) : Store × Outcome Unit :=
  let (cache, outcome) := (s.cache c).remove name
  (s.putCache c cache, outcome)

end Store

end ScatteringData
