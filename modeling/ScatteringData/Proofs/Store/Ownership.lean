import Mathlib
import ScatteringData.Proofs.Fault
import ScatteringData.Proofs.Store.Orderly

/-!
# Records belong to their centers

As long as no field of a record is overwritten, every record that a center holds in a category is of
that category and belongs to the center, and every record stands under the keys that its own fields
are. Setters check the one and take the keys from the record.
-/

namespace ScatteringData

/-- Whether an operation overwrites a field of a record. -/
def Operation.assigns : Operation → Bool
  | .assign .. => true
  | _ => false

/-- Whether an operation puts clones of records into maps whose keys stay. -/
def Operation.clonesUnderKeys : Operation → Bool
  | .copyMap _ deep => deep
  | .copyCenter _ depth => depth ≠ .maps
  | _ => false

namespace Store

/-- A record that is set on a center is described by its category. -/
def Describes (s : Store) : Operation → Prop
  | .setOn _ _ (.object (.record kind r)) => (s.record r).category = kind
  | _ => True

/-- The stores that runs reach in which no field of a record is overwritten. Where keys have to be the
names whatever these refer to, no record is cloned under a key that stays. -/
inductive Untouched (allNames : Prop) : Store → Prop
  | start (listening : Bool) : Untouched allNames { Store.empty with listening }
  | perform {s : Store} (hs : Untouched allNames s) (op : Operation) (hop : s.Admits op)
    (hdescribes : s.Describes op) (hassigns : op.assigns = false)
    (hclones : op.clonesUnderKeys = true → ¬ allNames) : Untouched allNames (s.perform op).1
  | tick {s : Store} (hs : Untouched allNames s) : Untouched allNames s.tick

/-- The identifier that decides what belongs to a center in a category: its own, or that of its
atom. -/
def owner (s : Store) (x : CenterRef) : Category → Zaid
  | .atomic _ => (s.atom (s.atomOf x)).identity.zaid
  | .nuclide _ => (s.identity x).zaid

variable {s : Store} {allNames : Prop} {c : Category} {z : Zaid} {m : RecordMap}

/-! ## Building -/

theorem AllOrderly.buildRecord (h : s.AllOrderly allNames) (hs : s.Closed) (c : Category)
    (fields : List (Field × Value)) : (s.buildRecord c fields).1.AllOrderly allNames := by
  unfold Store.buildRecord
  split
  · rename_i r hr
    exact h.addRecord hs (Record.BuiltIn.complete ⟨_, _, hr⟩)
  · exact h

theorem AllOrderly.addAtom (h : s.AllOrderly allNames) (i : Identity) :
    (s.addAtom ⟨i, .empty⟩).1.AllOrderly allNames := by
  refine h.add (i := .atom ⟨i, .empty⟩) (fun x hx => by cases hx) fun k => ?_
  have hget : AtomicMaps.empty.get k = (Category.atomic k).emptyMap := by cases k <;> rfl
  change s.Keeps allNames _ _ (AtomicMaps.empty.get k)
  rw [hget]
  exact Keeps.empty _ _

theorem AllOrderly.addNuclide (h : s.AllOrderly allNames) (i : Identity) (a : AtomRef) :
    (s.addNuclide ⟨i, a, .empty⟩).1.AllOrderly allNames := by
  refine h.add (i := .nuclide ⟨i, a, .empty⟩) (fun x hx => by cases hx) fun k => ?_
  have hget : NuclideMaps.empty.get k = (Category.nuclide k).emptyMap := by cases k <;> rfl
  change s.Keeps allNames _ _ (NuclideMaps.empty.get k)
  rw [hget]
  exact Keeps.empty _ _

theorem AllOrderly.buildAtom (h : s.AllOrderly allNames) (zaid ratio name : Value) :
    (s.buildAtom zaid ratio name).1.AllOrderly allNames := by
  unfold Store.buildAtom
  dsimp only
  split
  · exact h.addAtom _
  · exact h

theorem AllOrderly.buildNuclide (h : s.AllOrderly allNames) (zaid ratio atom name : Value) :
    (s.buildNuclide zaid ratio atom name).1.AllOrderly allNames := by
  unfold Store.buildNuclide
  dsimp only
  split
  · exact h
  · split
    · exact (h.addAtom _).addNuclide _ _
    · exact h.addNuclide _ _
    · exact h

/-! ## Setting -/

theorem AllOrderly.putMap (h : s.AllOrderly allNames) {m : MapRef} {x : RecordMap}
    (hx : s.Arranged allNames x) : (s.putMap m x).AllOrderly allNames :=
  h.put (k := .map m) (i := .map { s.mapObject m with content := x }) trivial
    (fun y hy => by cases hy) hx

theorem AllOrderly.set (h : s.AllOrderly allNames) {m : MapRef} {v : Value}
    (hop : s.Admits (.set m v)) : (s.set m v).1.AllOrderly allNames := by
  have hm : s.Arranged allNames (s.map m) := h _ (hop _ (List.mem_cons_self ..))
  unfold Store.set
  split
  · rename_i kind r
    obtain ⟨c, hr⟩ := h.complete (hop _ (List.mem_cons_of_mem _ (List.mem_singleton_self _)))
    refine h.putMap ?_
    rcases s.followed_cases (s.map m) ((s.map m).set r (s.record r)) with heq | heq
    · rw [heq]
      exact hm
    · rw [heq]
      exact hm.set hr
  · split
    · rename_i map name hmap hname
      rw [hmap] at hm
      refine h.putMap fun p hp => hm p ?_
      exact NamedMap.mem_placements_setUnusable hp
    · exact h

variable {x : CenterRef} {r : RecordRef}

theorem checkElement_cases {k : AtomicCategory} (hr : (s.record r).Complete (.atomic k)) :
    (s.record r).BelongsTo (.atomic k) (s.owner x (.atomic k)) ∧
      s.checkElement x (.atomic k) (s.record r) = .ok () ∨
    ¬ (s.record r).BelongsTo (.atomic k) (s.owner x (.atomic k)) ∧
      s.checkElement x (.atomic k) (s.record r) =
        .error (.data (.foreignElement (.atomic k) (s.record r).zaid (s.owner x (.atomic k)).atom)) := by
  obtain ⟨y, mark, hy⟩ := hr.zaid
  unfold checkElement
  rw [hy]
  dsimp only
  by_cases helement : y.atom = (s.owner x (.atomic k)).atom
  · exact Or.inl ⟨⟨y, mark, hy, helement⟩, if_pos helement⟩
  · refine Or.inr ⟨?_, if_neg helement⟩
    rintro ⟨z, mark', hz, heq⟩
    cases hy.symm.trans hz
    exact helement heq

theorem checkNuclide_cases {k : NuclideCategory} (hr : (s.record r).Complete (.nuclide k)) :
    (s.record r).BelongsTo (.nuclide k) (s.owner x (.nuclide k)) ∧
      s.checkNuclide x (.nuclide k) (s.record r) = .ok () ∨
    ¬ (s.record r).BelongsTo (.nuclide k) (s.owner x (.nuclide k)) ∧
      s.checkNuclide x (.nuclide k) (s.record r) =
        .error (.data (.foreignNuclide (.nuclide k) (s.record r).zaid (s.owner x (.nuclide k)))) := by
  obtain ⟨b, hb, hcheck⟩ : ∃ b : Bool,
      (b = true ↔ (s.record r).BelongsTo (.nuclide k) (s.owner x (.nuclide k))) ∧
      s.checkNuclide x (.nuclide k) (s.record r) = if b then .ok () else .error
        (Fault.data (.foreignNuclide (.nuclide k) (s.record r).zaid (s.owner x (.nuclide k)))).raised := by
    have hown : (s.record r).zaid.equals (.zaid (s.owner x (.nuclide k)) .shared) = true ↔
        ∃ mark, (s.record r).zaid = .zaid (s.owner x (.nuclide k)) mark := by
      obtain ⟨y, mark, hy⟩ := hr.zaid
      rw [hy, Zaid.equals_iff]
      constructor
      · intro h
        exact ⟨mark, by rw [h]⟩
      · rintro ⟨mark', h⟩
        cases h
        rfl
    unfold checkNuclide Record.BelongsTo Category.shape
    dsimp only
    cases hshape : k.shape with
    | named =>
      obtain ⟨-, zs, mark', hzs⟩ := hr.named hshape
      refine ⟨zs.any fun w => w.1 == s.owner x (.nuclide k), ?_, by rw [Record.covers, hzs]; rfl⟩
      rw [List.any_eq_true]
      constructor
      · rintro ⟨w, hw, heq⟩
        exact ⟨zs, mark', hzs, List.mem_map.mpr ⟨w, hw, eq_of_beq heq⟩⟩
      · rintro ⟨ys, mark, hys, hmem⟩
        cases hzs.symm.trans hys
        obtain ⟨w, hw, heq⟩ := List.mem_map.mp hmem
        exact ⟨w, hw, beq_iff_eq.mpr heq⟩
    | versioned => exact ⟨_, hown, rfl⟩
    | temperature => exact ⟨_, hown, rfl⟩
  cases b with
  | true => exact Or.inl ⟨hb.mp rfl, hcheck⟩
  | false =>
    obtain ⟨y, mark, hy⟩ := hr.zaid
    refine Or.inr ⟨fun h => absurd (hb.mpr h) (by decide), hcheck.trans (congrArg Except.error ?_)⟩
    refine Fault.raised_eq_self fun v hv => ?_
    rw [List.mem_singleton.mp hv, hy]
    rfl

theorem Keeps.followed (h : s.Keeps allNames c z m)
    (hset : s.Keeps allNames c z (m.set r (s.record r)).1) :
    s.Keeps allNames c z (s.followed m (m.set r (s.record r))).1 := by
  rcases s.followed_cases m (m.set r (s.record r)) with heq | heq
  · rw [heq]
    exact h
  · rw [heq]
    exact hset

def rejection (s : Store) (x : CenterRef) (k kind : Category) (r : Record) : DataFault :=
  if kind = k then
    match k with
    | .atomic _ => .foreignElement k r.zaid (s.owner x k).atom
    | .nuclide _ => .foreignNuclide k r.zaid (s.owner x k)
  else .unexpectedKind k.recordKind kind.recordKind

theorem accepted_cases {k kind : Category} (hr : (s.record r).Complete kind) :
    (kind = k ∧ (s.record r).BelongsTo k (s.owner x k) ∧
      s.accepted x k (.object (.record kind r)) = .ok r) ∨
    (¬ (kind = k ∧ (s.record r).BelongsTo k (s.owner x k)) ∧
      s.accepted x k (.object (.record kind r)) =
        .error (.data (s.rejection x k kind (s.record r)))) := by
  unfold accepted rejection
  dsimp only
  by_cases hkind : kind = k
  · subst hkind
    rw [if_pos rfl, if_pos rfl]
    cases kind with
    | atomic k =>
      rcases checkElement_cases (x := x) hr with ⟨hbelongs, hcheck⟩ | ⟨hforeign, hcheck⟩
      · exact Or.inl ⟨rfl, hbelongs, by rw [hcheck]; rfl⟩
      · exact Or.inr ⟨fun h => hforeign h.2, by rw [hcheck]; rfl⟩
    | nuclide k =>
      rcases checkNuclide_cases (x := x) hr with ⟨hbelongs, hcheck⟩ | ⟨hforeign, hcheck⟩
      · exact Or.inl ⟨rfl, hbelongs, by rw [hcheck]; rfl⟩
      · exact Or.inr ⟨fun h => hforeign h.2, by rw [hcheck]; rfl⟩
  · rw [if_neg hkind, if_neg hkind]
    exact Or.inr ⟨fun h => hkind h.1, rfl⟩

theorem AllOrderly.setOn (h : s.AllOrderly allNames) (hs : s.Closed) {k : Category} {v : Value}
    (hop : s.Admits (.setOn x k v)) (hdescribes : s.Describes (.setOn x k v)) :
    (s.setOn x k v).1.AllOrderly allNames := by
  have hx : s.Holds (.center x) := hop _ (List.mem_cons_self ..)
  unfold Store.setOn
  split
  · exact h
  · rename_i m hm
    split
    · exact h
    · rename_i r hr
      cases accepted_eq hr
      have hcategory : (s.record r).category = k := hdescribes
      obtain ⟨c, hcomplete⟩ :=
        h.complete (hop _ (List.mem_cons_of_mem _ (List.mem_singleton_self _)))
      cases hcomplete.category.symm.trans hcategory
      -- an accepted record belongs to what owns the map, which may be the atom of the center
      have howned : (s.record r).BelongsTo k (s.owner x k) := by
        rcases accepted_cases (x := x) (k := k) hcomplete with ⟨-, hbelongs, -⟩ | ⟨-, herror⟩
        · exact hbelongs
        · rw [herror] at hr
          cases hr
      cases k with
      | atomic k =>
        cases hm
        have hatom := h _ (holds_atomOf hs hx)
        have hset := (hatom k).followed ((hatom k).set hcomplete hcategory howned)
        refine h.put (k := .center (.atom _)) (i := .atom _) trivial (fun y hy => by cases hy) fun j => ?_
        dsimp only
        rw [AtomicMaps.get_put]
        split
        · rename_i hj
          cases hj
          exact hset
        · exact hatom j
      | nuclide k =>
        cases x with
        | atom a => cases hm
        | nuclide n =>
          cases hm
          have hnuclide := h _ hx
          have hset := (hnuclide k).followed ((hnuclide k).set hcomplete hcategory howned)
          refine h.put (k := .center (.nuclide _)) (i := .nuclide _) trivial (fun y hy => by cases hy)
            fun j => ?_
          dsimp only
          rw [NuclideMaps.get_put]
          split
          · rename_i hj
            cases hj
            exact hset
          · exact hnuclide j

/-! ## Runs -/

theorem AllOrderly.putCache (h : s.AllOrderly allNames) (c : CacheRef) (x : Cache) :
    (s.putCache c x).AllOrderly allNames :=
  h.put (k := .cache c) (i := .cache x) trivial (fun y hy => by cases hy) trivial

theorem AllOrderly.changeCache (h : s.AllOrderly allNames) (c : CacheRef)
    (change : Except Fault Cache) : (s.changeCache c change).1.AllOrderly allNames := by
  unfold Store.changeCache
  split
  · exact h.putCache c _
  · exact h

theorem AllOrderly.addToCache (h : s.AllOrderly allNames) (hs : s.Closed) {c : CacheRef} {v : Value}
    (hv : ∀ n ∈ v.nodes, s.Holds n) : (s.addToCache c v).1.AllOrderly allNames := by
  have hcopy := h.copyObject hs hv
  unfold Store.addToCache
  split
  · exact h
  · split
    · exact h
    · dsimp only
      split
      · exact hcopy
      · exact hcopy.putCache c _

theorem AllOrderly.perform (h : s.AllOrderly allNames) (hs : s.Closed) {op : Operation}
    (hop : s.Admits op) (hdescribes : s.Describes op) (hassigns : op.assigns = false)
    (hclones : op.clonesUnderKeys = true → ¬ allNames) : (s.perform op).1.AllOrderly allNames := by
  have hfirst : ∀ n ns, op.nodes = n :: ns → s.Holds n := fun n ns heq =>
    hop n (heq ▸ List.mem_cons_self ..)
  cases op with
  | buildRecord c fields => exact h.buildRecord hs c fields
  | buildAtom zaid ratio name => exact h.buildAtom zaid ratio name
  | buildNuclide zaid ratio atom name => exact h.buildNuclide zaid ratio atom name
  | buildMap shape category =>
    exact h.add (i := .map _) (fun x hx => by cases hx) (Arranged.empty shape _)
  | buildCache => exact h.add (i := .cache .empty) (fun x hx => by cases hx) trivial
  | assign r f v => cases hassigns
  | set m v => exact h.set hop
  | setOn x k v => exact h.setOn hs hop hdescribes
  | ask m q args => exact h
  | askOn x k q args => exact h
  | copyRecord r => exact h.cloneRecord hs (hfirst _ _ rfl)
  | copyMap m deep => exact h.copyMap hs (hfirst _ _ rfl) hclones
  | copyCenter x depth =>
    exact h.copyCenter hs (hfirst _ _ rfl) fun hdepth => hclones (decide_eq_true hdepth)
  | addToCache c v => exact h.addToCache hs fun n hn => hop n (List.mem_cons_of_mem _ hn)
  | removeFromCache c name => exact h.putCache c _
  | link c other name => exact h.changeCache c _
  | unlink c other => exact h.changeCache c _
  | clear c => exact h.putCache c _
  | fetch c name => exact h

theorem Untouched.allOrderly (hs : s.Untouched allNames) : s.Closed ∧ s.AllOrderly allNames := by
  induction hs with
  | start listening =>
    refine ⟨(Reachable.start listening).closed, fun n hn => ?_⟩
    rcases n with r | (a | x) | m | c <;> exact absurd hn (Nat.not_lt_zero _)
  | perform _ op hop hdescribes hassigns hclones ih =>
    obtain ⟨hclosed, horderly⟩ := ih
    exact ⟨hclosed.perform hop, horderly.perform hclosed hop hdescribes hassigns hclones⟩
  | tick _ ih =>
    obtain ⟨hclosed, horderly⟩ := ih
    exact ⟨hclosed, fun n hn => (horderly n hn).congr fun _ _ => rfl⟩

/-- As long as no field of a record is overwritten, all records that a center holds in a category are
of that category and belong to the center, or to the element of its atom, and all records in maps
stand under their fields. A name that refers to an object need not be the key once records were
cloned under the keys of their originals. -/
theorem Untouched.owned (hs : s.Untouched allNames) :
    (∀ x, s.Holds (.center x) → ∀ k m, s.centerMap? x k = some m →
      s.Keeps allNames k (s.owner x k) m) ∧
    ∀ m, s.Holds (.map m) → s.Arranged allNames (s.map m) := by
  obtain ⟨hclosed, horderly⟩ := hs.allOrderly
  refine ⟨fun x hx k m hm => ?_, fun m hm => horderly _ hm⟩
  cases k with
  | atomic k =>
    cases hm
    exact horderly _ (holds_atomOf hclosed hx) k
  | nuclide k =>
    cases x with
    | atom a => cases hm
    | nuclide n =>
      cases hm
      exact horderly _ hx k

def bound (name : Value) : Store :=
  Store.empty.run [
    .buildNuclide (.int 1001 .shared) (.float 1.0 .shared) .null .null,
    .buildRecord (.nuclide .thermalNuclear) [(.zaid, .int 1001 .shared),
      (.fileType, .text "ACE" .shared), (.fileVersion, .int 0 .shared),
      (.evaluationTemperature, .float 1.0 .shared), (.name, name)],
    .setOn (.nuclide ⟨0⟩) (.nuclide .thermalNuclear)
      (.object (.record (.nuclide .thermalNuclear) ⟨0⟩)),
    .copyCenter (.nuclide ⟨0⟩) .records]

theorem bound_untouched {name : Value} (hname : ∀ n ∈ name.nodes, n = .center (.atom ⟨0⟩)) :
    (bound name).Untouched False := by
  have h₀ : Untouched False { Store.empty with listening := false } := .start false
  have h₁ := h₀.perform (.buildNuclide (.int 1001 .shared) (.float 1.0 .shared) .null .null)
    (fun n hn => by cases hn) trivial rfl fun _ => id
  have h₂ := h₁.perform (.buildRecord (.nuclide .thermalNuclear) [(.zaid, .int 1001 .shared),
    (.fileType, .text "ACE" .shared), (.fileVersion, .int 0 .shared),
    (.evaluationTemperature, .float 1.0 .shared), (.name, name)])
    (fun n hn => by
      have hmem : n ∈ name.nodes ++ [] := hn
      rw [List.append_nil] at hmem
      rw [hname n hmem]
      with_unfolding_all exact Nat.one_pos) trivial rfl fun _ => id
  have h₃ := h₂.perform (.setOn (.nuclide ⟨0⟩) (.nuclide .thermalNuclear)
    (.object (.record (.nuclide .thermalNuclear) ⟨0⟩)))
    (fun n hn => by
      rcases List.mem_cons.mp hn with rfl | hn
      · with_unfolding_all exact Nat.one_pos
      · cases List.mem_singleton.mp hn
        with_unfolding_all exact Nat.one_pos)
    (by with_unfolding_all rfl) rfl fun _ => id
  exact h₃.perform (.copyCenter (.nuclide ⟨0⟩) .records)
    (fun n hn => by
      cases List.mem_singleton.mp hn
      with_unfolding_all exact Nat.one_pos) trivial rfl fun _ => id

/-- Data under a text belong to the copy, and they stand under their fields there too. -/
theorem bound_owned :
    let s := bound (.text "H in H2O" .shared)
    s.Untouched False ∧ ∃ m, s.centerMap? (.nuclide ⟨1⟩) (.nuclide .thermalNuclear) = some m ∧
      m.placements =
        [⟨some (.text "H in H2O"), .text "ACE", .number (.int 0), some ⟨1.0, by decide⟩, ⟨1⟩⟩] ∧
      s.Keeps False (.nuclide .thermalNuclear) ⟨1001, by decide⟩ m := by
  intro s
  have hs : s.Untouched False := bound_untouched fun n hn => by cases hn
  have hmap : (s.centerMap? (.nuclide ⟨1⟩) (.nuclide .thermalNuclear)).map RecordMap.placements =
      some [⟨some (.text "H in H2O"), .text "ACE", .number (.int 0), some ⟨1.0, by decide⟩, ⟨1⟩⟩] := by
    with_unfolding_all rfl
  obtain ⟨m, hm, hplacements⟩ := Option.map_eq_some_iff.mp hmap
  refine ⟨hs, m, hm, hplacements, ?_⟩
  exact (Untouched.owned hs).1 (.nuclide ⟨1⟩) (by with_unfolding_all exact Nat.one_lt_two) _ m hm

/-- A record whose name is an atom is cloned with the atom, but the clone stands under the old one. -/
theorem bound_misplaced :
    let s := bound (.object (.center (.atom ⟨0⟩) ""))
    s.Untouched False ∧ s.Holds (.center (.nuclide ⟨1⟩)) ∧
      ∃ m, s.centerMap? (.nuclide ⟨1⟩) (.nuclide .thermalNuclear) = some m ∧
        ∃ p ∈ m.placements, p.name = some (.object (.center (.atom ⟨0⟩))) ∧
          (s.record p.record).name.bind Value.key? = some (.object (.center (.atom ⟨1⟩))) := by
  intro s
  have hs : s.Untouched False := bound_untouched fun n hn => List.mem_singleton.mp hn
  have hmap : (s.centerMap? (.nuclide ⟨1⟩) (.nuclide .thermalNuclear)).map RecordMap.placements =
      some [⟨some (.object (.center (.atom ⟨0⟩))), .text "ACE", .number (.int 0),
        some ⟨1.0, by decide⟩, ⟨1⟩⟩] := by
    with_unfolding_all rfl
  obtain ⟨m, hm, hplacements⟩ := Option.map_eq_some_iff.mp hmap
  refine ⟨hs, by with_unfolding_all exact Nat.one_lt_two, m, hm, ?_⟩
  rw [hplacements]
  exact ⟨_, List.mem_singleton_self _, rfl, by with_unfolding_all rfl⟩

end Store

end ScatteringData
