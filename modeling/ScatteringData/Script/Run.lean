import ScatteringData.Script.Attribute
import ScatteringData.Script.Method
import ScatteringData.Store.Equality
import ScatteringData.World.Operation

/-!
# Running scripts

A script is a row of steps on one world. A step that fails leaves a report and the script goes on.
A step that changes an object reports the state of the object afterwards, also when it failed.
-/

namespace ScatteringData.Script

inductive Step
  | record (c : Category) (fields : List (String × Expression))
  /-- A record of no category, which is always refused. -/
  | bareRecord (shape : Shape) (fields : List (String × Expression))
  | atom (zaid ratio name : Expression)
  | nuclide (zaid ratio atom name : Expression)
  | cache
  | map (shape : Shape) (category : Expression)
  | call (on method : String) (args : List Expression)
  | attribute (on name : String)
  | size (on : String)
  | same (a b : String)
  | equal (a b : String)
  | assign (on field : String) (value : Expression)
  | dump (on : String)
  | sharing (a b : String)

structure Line where
  step : Step
  handle : Option String

structure Session where
  world : World
  handles : Handles

/-- What a step did: its result as it is shown, the state of the object it was to change, and the
entries written. -/
structure Report where
  result : Except Failure Shown
  state : Option (Except Fault Shown)
  entries : List Entry

/-- What a step leaves behind: the world, the entries, and the result as a value or as something
that is only shown. -/
structure Effect where
  world : World
  entries : List Entry
  result : Except Failure (Value ⊕ Shown)

namespace Effect

def ofOutcome (w : World) (o : Outcome Value) : Effect :=
  ⟨w, o.entries, lifted (o.result.map .inl)⟩

def perform (w : World) (op : Operation) : Effect :=
  let (t, o) := w.perform op
  ofOutcome t o

def ofResult (w : World) (x : Except Fault Value) : Effect := ofOutcome w (.ofExcept x)

def ofShown (w : World) (x : Except Fault Shown) : Effect := ⟨w, [], lifted (x.map .inr)⟩

def fail (w : World) (f : Failure) : Effect := ⟨w, [], .error f⟩

end Effect

section

variable (w : World)

def callCenter (c : CenterRef) (m : Method) (args : List Value) : Effect :=
  match m, args with
  | .isNuclide, [] =>
    .ofResult w (.ok (.bool (match c with | .atom _ => false | .nuclide _ => true)))
  | .copy depth, [] => .perform w (.copyCenter c depth)
  | .setOn k, [v] => .perform w (.setOn c k v)
  | .askOn k q, args => .perform w (.askOn c k q args)
  | _, _ => .ofResult w (.error .wrongType)

def callMap (r : MapRef) (m : Method) (args : List Value) : Effect :=
  match m, args with
  | .set, [v] => .perform w (.set r v)
  | .ask q, args => .perform w (.ask r q args)
  | .records, [] =>
    .ofResult w (.ok (.list ((w.store.map r).records.map w.store.recordValue) w.store.mark))
  | .copy depth, [] => .perform w (.copyMap r (depth ≠ .maps))
  | _, _ => .ofResult w (.error .wrongType)

def callRecord (r : RecordRef) (m : Method) (args : List Value) : Effect :=
  match m, args with
  | .copy _, [] => .perform w (.copyRecord r)
  | .evaluationTemperature, [] =>
    .ofResult w (.ok ((w.store.record r).evaluationTemperature.getD .null))
  | .covers, [v] =>
    .ofResult w do
      let z ← Zaid.ofValue v
      let b ← (w.store.record r).covers z
      pure (.bool b)
  | _, _ => .ofResult w (.error .wrongType)

def callCache (r : CacheRef) (m : Method) (args : List Value) : Effect :=
  let c := w.store.cache r
  match m, args with
  | .add, [v] => .perform w (.addToCache r v)
  | .remove, [name] => .perform w (.removeFromCache r name)
  | .knows, [name] => .ofResult w ((c.knows name).map .bool)
  | .fetch, [name] => .perform w (.fetch r name)
  | .count, [] => .ofResult w (.ok (.int c.kept.size w.store.mark))
  | .link, [other, name] => .perform w (.link r other name)
  | .links, [other] => .ofResult w ((c.links other).map .bool)
  | .unlink, [other] => .perform w (.unlink r other)
  | .countLinks, [] => .ofResult w (.ok (.int c.aliases.size w.store.mark))
  | .clear, [] => .perform w (.clear r)
  | .listNames, [] => .ofResult w (c.nameList.map fun t => .text t w.store.mark)
  | .listLinks, [] => .ofResult w (c.aliasList.map fun t => .text t w.store.mark)
  | _, _ => .ofResult w (.error .wrongType)

def call (on : Value) (m : Method) (args : List Value) : Effect :=
  match on with
  | .object (.center c _) => callCenter w c m args
  | .object (.map _ r) => callMap w r m args
  | .object (.record _ r) => callRecord w r m args
  | .object (.cache r) => callCache w r m args
  | _ => .ofResult w (.error .noAttribute)

def stateAfter (on : Value) (m : Method) : Option (Except Fault Shown) :=
  match on, m with
  | .object (.center c _), .setOn k => some (w.store.shownRows c k)
  | .object (.map _ r), .set => some (w.store.shownMap r)
  | .object (.cache r), .add | .object (.cache r), .remove | .object (.cache r), .link
  | .object (.cache r), .unlink | .object (.cache r), .clear => some (w.store.shownCache r)
  | _, _ => none

def sizeOf? (v : Value) : Option Nat :=
  match v with
  | .object (.map _ r) => some (w.store.map r).size
  | .list vs _ | .set vs _ => some vs.length
  | .zaids zs _ => some zs.length
  | v => v.chars?.map String.length

def assign (on : Value) (field : String) (v : Value) : Effect :=
  match on with
  | .object (.record _ r) => .perform w (.assign r (Field.ofText field) v)
  | _ => .ofResult w (.error .noAttribute)

end

def Effect.using {α : Type} (w : World) (x : Except Failure α) (f : α → Effect) : Effect :=
  match x with
  | .ok a => f a
  | .error e => .fail w e

def withCenter (w : World) (v : Value) (f : CenterRef → Effect) : Effect :=
  match v with
  | .object (.center c _) => f c
  | _ => .ofResult w (.error .noAttribute)

def runCall (w : World) (hs : Handles) (on method : String) (args : List Expression) :
    Effect × Option (Except Fault Shown) :=
  match hs.get on with
  | .error e => (.fail w e, none)
  | .ok v =>
    let args := Expression.evalAll hs w.store.writtenMark args
    match args, findMethod v method with
    | .ok args, .ok m =>
      let effect := call w v m args
      (effect, stateAfter effect.world v m)
    | .error e, .ok m => (.fail w e, stateAfter w v m)
    | .ok _, .error e => (.fail w e, none)
    | .error e, .error _ => (.fail w e, none)

def runStep (w : World) (hs : Handles) : Step → Effect × Option (Except Fault Shown)
  | .record c fields =>
    (.using w (evalFields hs w.store.writtenMark fields) fun given =>
      .perform w (.buildRecord c given), none)
  | .bareRecord shape fields =>
    (.using w (evalFields hs w.store.writtenMark fields) fun given =>
      .ofResult w (.error (Record.refusal shape given)), none)
  | .atom zaid ratio name =>
    (.using w (Expression.evalAll hs w.store.writtenMark [zaid, ratio, name]) fun
      | [zaid, ratio, name] => .perform w (.buildAtom zaid ratio name)
      | _ => .ofResult w (.error .wrongType), none)
  | .nuclide zaid ratio atom name =>
    (.using w (Expression.evalAll hs w.store.writtenMark [zaid, ratio, atom, name]) fun
      | [zaid, ratio, atom, name] => .perform w (.buildNuclide zaid ratio atom name)
      | _ => .ofResult w (.error .wrongType), none)
  | .cache => (.perform w .buildCache, none)
  | .map shape category =>
    (.using w (category.eval hs w.store.writtenMark) fun v => .perform w (.buildMap shape v), none)
  | .call on method args => runCall w hs on method args
  | .attribute on name =>
    (.using w (hs.get on) fun v =>
      match attribute? w.store v name with
      | some u => .ofResult w (.ok u)
      | none => .ofResult w (.error .noAttribute), none)
  | .size on =>
    (.using w (hs.get on) fun v =>
      match sizeOf? w v with
      | some n => .ofResult w (.ok (.int n w.store.mark))
      | none => .ofResult w (.error .wrongType), none)
  | .same a b =>
    (.using w (hs.get a) fun v =>
      .using w (hs.get b) fun u => .ofResult w (.ok (.bool (v.same u))), none)
  | .equal a b =>
    (.using w (hs.get a) fun v =>
      .using w (hs.get b) fun u => .ofResult w ((w.store.equals v u).map .bool), none)
  | .assign on field value =>
    (.using w (hs.get on) fun v =>
      .using w (value.eval hs w.store.writtenMark) fun u => assign w v field u, none)
  | .dump on =>
    (.using w (hs.get on) fun v =>
      withCenter w v fun c => .ofShown w (w.store.shownCenter c), none)
  | .sharing a b =>
    (.using w (hs.get a) fun v =>
      .using w (hs.get b) fun u =>
        withCenter w v fun a => withCenter w u fun b => .ofShown w (w.store.shownSharing a b), none)

def Session.step (x : Session) (line : Line) : Session × Report :=
  let (effect, state) := runStep x.world x.handles line.step
  let handles :=
    match effect.result, line.handle with
    | .ok (.inl v), some h => (h, v) :: x.handles
    | _, _ => x.handles
  let result := effect.result.bind fun
    | .inl v => lifted (effect.world.store.shown v)
    | .inr shown => .ok shown
  (⟨effect.world.tick, handles⟩, ⟨result, state, effect.entries⟩)

def Session.start (listening : Bool) : Session :=
  ⟨{ World.empty with objects := { Store.empty with listening } }, []⟩

def Session.run : Session → List Line → List Report
  | _, [] => []
  | x, line :: lines =>
    let (x, report) := x.step line
    report :: run x lines

def run (listening : Bool) (lines : List Line) : List Report := (Session.start listening).run lines

end ScatteringData.Script
