import Mathlib
import ScatteringData.Proofs.Outcome
import ScatteringData.Proofs.RecordMap.Related

/-!
# Related maps answer alike

Maps with the same keys and related records give the same answers to all queries, up to the records
in them: they list the same keys, fail alike, and find related records.
-/

namespace ScatteringData

/-! ## Tables -/

namespace Table.Related

variable {α β : Type} {Q : α → β → Prop} {t : Table α} {u : Table β} (h : t.Related Q u)
include h

theorem labels : t.labels = u.labels := by
  obtain ⟨es⟩ := t
  obtain ⟨ds⟩ := u
  unfold Table.labels
  unfold Table.Related at h
  dsimp only at h ⊢
  induction h with
  | nil => rfl
  | cons hed _ ih => rw [List.map_cons, List.map_cons, hed.1, ih]

theorem contents : List.Forall₂ Q t.contents u.contents := by
  unfold Table.contents
  rw [List.forall₂_map_left_iff, List.forall₂_map_right_iff]
  exact List.Forall₂.imp (fun _ _ hed => hed.2) h

theorem isEmpty : t.isEmpty = u.isEmpty := by
  obtain ⟨es⟩ := t
  obtain ⟨ds⟩ := u
  unfold Table.Related at h
  dsimp only at h
  cases h with
  | nil => rfl
  | cons _ _ => rfl

theorem get? (k : Key) : Option.Rel Q (t.get? k) (u.get? k) := by
  obtain ⟨es⟩ := t
  obtain ⟨ds⟩ := u
  unfold Table.get?
  unfold Table.Related at h
  dsimp only at h ⊢
  induction h with
  | nil => exact .none
  | @cons e d es ds hed _ ih =>
    rw [List.find?_cons, List.find?_cons, ← hed.1]
    cases e.1.key == k with
    | true => exact .some hed.2
    | false => exact ih

theorem find (v : Value) : SameResult (Option.Rel Q) (t.find v) (u.find v) := by
  refine SameResult.bind (SameResult.of_eq (rfl : v.key = v.key)) ?_
  rintro k _ rfl
  exact h.get? k

end Table.Related

/-! ## Shelves -/

namespace Shelves

variable {α β : Type} {Q : α → β → Prop} {s : Shelves α} {u : Shelves β}
  (h : Table.Related (Table.Related Q) s u)
include h

theorem versions_eq (fileType : Value) : s.versions fileType = u.versions fileType := by
  refine SameResult.eq ((Table.Related.find h fileType).bind fun a b hab => ?_)
  cases hab with
  | none => exact SameResult.of_eq rfl
  | some hab => exact SameResult.ok (Table.Related.labels hab)

theorem recommendedVersion_eq (category : String) (fileType : Value) :
    s.recommendedVersion category fileType = u.recommendedVersion category fileType := by
  refine SameResult.eq ((Table.Related.find h fileType).bind fun a b hab => ?_)
  cases hab with
  | none => exact SameResult.of_eq rfl
  | some hab =>
    dsimp only
    rw [Table.Related.isEmpty hab, Table.Related.labels hab]
    exact SameResult.of_eq rfl

theorem available_eq (fileType version : Value) :
    s.available fileType version = u.available fileType version := by
  unfold Shelves.available
  by_cases hnull : fileType.isNull = true
  · rw [if_pos hnull, if_pos hnull, Table.Related.isEmpty h]
  · rw [if_neg hnull, if_neg hnull]
    refine SameResult.eq ((Table.Related.find h fileType).bind fun a b hab => ?_)
    cases hab with
    | none => exact SameResult.of_eq rfl
    | some hab =>
      dsimp only
      by_cases hversion : version.isNull = true
      · rw [if_pos hversion, if_pos hversion]
        exact SameResult.of_eq rfl
      · rw [if_neg hversion, if_neg hversion]
        refine (Table.Related.find hab version).bind fun c d hcd => ?_
        cases hcd with
        | none => exact SameResult.of_eq rfl
        | some _ => exact SameResult.of_eq rfl

theorem get_related (category : String) (fileType version : Value) :
    SameResult Q (s.get category fileType version) (u.get category fileType version) := by
  refine (Table.Related.find h fileType).bind fun a b hab => ?_
  cases hab with
  | none => exact rfl
  | some hab =>
    refine (Table.Related.find hab version).bind fun c d hcd => ?_
    cases hcd with
    | none => exact rfl
    | some hcd => exact SameResult.ok hcd

end Shelves

/-! ## Buckets -/

section
variable {R : RecordRef → RecordRef → Prop}

theorem Bucket.energies_eq {es fs : List (Energy × RecordRef)}
    (h : List.Forall₂ (fun x y => x.1 = y.1 ∧ R x.2 y.2) es fs) :
    es.map (·.1) = fs.map (·.1) := by
  induction h with
  | nil => rfl
  | cons hxy _ ih => rw [List.map_cons, List.map_cons, hxy.1, ih]

namespace Bucket.Related

variable {b c : Bucket} (h : b.Related R c)
include h

theorem energies : b.energies = c.energies := by
  cases h with
  | lone _ => rfl
  | graded h => exact congrArg Except.ok (energies_eq h)

theorem temperatures : b.temperatures = c.temperatures := by
  cases h with
  | lone _ => rfl
  | @graded es fs h =>
    have hmap := congrArg (fun xs => xs.mapM (m := Except Fault) Energy.toTemperature) (energies_eq h)
    rw [List.mapM_map, List.mapM_map] at hmap
    exact hmap

theorem isEmpty : b.isEmpty = c.isEmpty := by
  cases h with
  | lone _ => rfl
  | graded h =>
    cases h with
    | nil => rfl
    | cons _ _ => rfl

theorem hasMatch (query : Float) : b.hasMatch query = c.hasMatch query := by
  unfold Bucket.hasMatch
  rw [h.energies]

theorem resolve? (query : Float) (exact : Bool) :
    SameResult (Option.Rel fun x y => x.1 = y.1 ∧ R x.2 y.2) (b.resolve? query exact)
      (c.resolve? query exact) := by
  cases h with
  | lone _ => exact rfl
  | @graded es fs h =>
    have hgrid : Bucket.grid es = Bucket.grid fs := by
      have hmap := congrArg (List.map Energy.mev) (energies_eq h)
      rw [List.map_map, List.map_map] at hmap
      exact hmap
    unfold Bucket.resolve?
    dsimp only
    rw [hgrid]
    cases Grid.find? (Bucket.grid fs) query exact with
    | none => exact Option.Rel.none
    | some i =>
      change Option.Rel _ es[i]? fs[i]?
      clear hgrid
      induction h generalizing i with
      | nil => exact .none
      | cons hxy _ ih =>
        cases i with
        | zero => exact .some hxy
        | succ i => exact ih i

end Bucket.Related

/-! ## Maps with temperatures -/

theorem anyM_congr {α β : Type} {Q : α → β → Prop} {xs : List α} {ys : List β}
    {f : α → Except Fault Bool} {g : β → Except Fault Bool} (h : List.Forall₂ Q xs ys)
    (hfg : ∀ a b, Q a b → f a = g b) : xs.anyM f = ys.anyM g := by
  induction h with
  | nil => rfl
  | cons hab _ ih =>
    unfold List.anyM
    rw [hfg _ _ hab, ih]

theorem filterMap_id_related {α β : Type} {Q : α → β → Prop} {xs : List (Option α)}
    {ys : List (Option β)} (h : List.Forall₂ (Option.Rel Q) xs ys) :
    List.Forall₂ Q (xs.filterMap id) (ys.filterMap id) := by
  induction h with
  | nil => exact .nil
  | cons hab _ ih =>
    cases hab with
    | none => exact ih
    | some hab => exact .cons hab ih

namespace TemperatureMap.Related

variable {m n : TemperatureMap} (h : m.Related R n)
include h

theorem buckets (fileType version : Value) :
    SameResult (List.Forall₂ (Bucket.Related R)) (m.buckets fileType version)
      (n.buckets fileType version) := by
  have hrest : ∀ as bs : List (Table Bucket), List.Forall₂ (Table.Related (Bucket.Related R)) as bs →
      SameResult (List.Forall₂ (Bucket.Related R))
        (if version.isNull then pure (as.flatMap Table.contents)
          else do pure ((← as.mapM fun shelf => shelf.find version).filterMap id))
        (if version.isNull then pure (bs.flatMap Table.contents)
          else do pure ((← bs.mapM fun shelf => shelf.find version).filterMap id)) := by
    intro as bs hab
    by_cases hversion : version.isNull = true
    · rw [if_pos hversion, if_pos hversion]
      refine SameResult.ok ?_
      induction hab with
      | nil => exact .nil
      | cons hab _ ih =>
        rw [List.flatMap_cons, List.flatMap_cons]
        exact List.rel_append (Table.Related.contents hab) ih
    · rw [if_neg hversion, if_neg hversion]
      refine (SameResult.mapM hab fun a b hab => Table.Related.find hab version).bind ?_
      exact fun cs ds hcd => SameResult.ok (filterMap_id_related hcd)
  -- the shelves that are searched are related, whether all of them are or one
  unfold TemperatureMap.buckets
  by_cases hnull : fileType.isNull = true
  · rw [if_pos hnull, if_pos hnull]
    exact hrest _ _ h.shelves.contents
  · rw [if_neg hnull, if_neg hnull]
    refine (h.shelves.find fileType).bind fun a b hab => ?_
    cases hab with
    | none => exact hrest _ _ .nil
    | some hab => exact hrest _ _ (.cons hab .nil)

theorem available_eq (fileType version temperature : Value) :
    m.available fileType version temperature = n.available fileType version temperature := by
  unfold TemperatureMap.available
  by_cases hnull : temperature.isNull = true
  · rw [if_pos hnull, if_pos hnull, Shelves.available_eq h.shelves]
  · rw [if_neg hnull, if_neg hnull]
    refine SameResult.eq ?_
    refine SameResult.bind (SameResult.of_eq (rfl : temperature.toMev = _)) ?_
    rintro query _ rfl
    refine (h.buckets fileType version).bind fun as bs hab => ?_
    exact SameResult.of_eq (anyM_congr hab fun a b hab => hab.hasMatch query)

theorem bucket (fileType version : Value) :
    SameResult (Bucket.Related R) (m.bucket fileType version) (n.bucket fileType version) := by
  refine (h.shelves.find fileType).bind fun a b hab => ?_
  have hshelf : Table.Related (Bucket.Related R) (a.getD Table.empty) (b.getD Table.empty) := by
    cases hab with
    | none => exact List.Forall₂.nil
    | some hab => exact hab
  refine (hshelf.find version).bind fun c d hcd => ?_
  cases hcd with
  | none => exact Bucket.Related.graded .nil
  | some hcd => exact hcd

theorem energies_eq (fileType version : Value) :
    m.energies fileType version = n.energies fileType version := by
  refine SameResult.eq ((h.bucket fileType version).bind fun b c hbc => ?_)
  exact SameResult.of_eq hbc.energies

theorem temperatures_eq (fileType version : Value) :
    m.temperatures fileType version = n.temperatures fileType version := by
  refine SameResult.eq ((h.bucket fileType version).bind fun b c hbc => ?_)
  exact SameResult.of_eq hbc.temperatures

theorem recommendedVersion_eq (fileType : Value) :
    m.recommendedVersion fileType = n.recommendedVersion fileType := by
  unfold TemperatureMap.recommendedVersion
  rw [h.category]
  exact Shelves.recommendedVersion_eq h.shelves _ fileType

theorem get (fileType version temperature : Value) (exact : Bool) :
    Outcome.Related R (m.get fileType version temperature exact)
      (n.get fileType version temperature exact) := by
  unfold TemperatureMap.get
  rw [← h.category]
  have hfound := Shelves.get_related h.shelves m.category fileType version
  refine (Outcome.Related.lift hfound).bind fun b c hbc => ?_
  rw [hbc.isEmpty]
  by_cases hempty : c.isEmpty = true
  · rw [if_pos hempty, if_pos hempty]
    exact ⟨rfl, rfl⟩
  · rw [if_neg hempty, if_neg hempty]
    refine (Outcome.Related.lift (SameResult.of_eq rfl)).bind ?_
    rintro query _ rfl
    refine (Outcome.Related.lift (hbc.resolve? query exact)).bind fun x y hxy => ?_
    cases hxy with
    | none => exact ⟨rfl, rfl⟩
    | @some x y hxy =>
      obtain ⟨e, r⟩ := x
      obtain ⟨f, q⟩ := y
      obtain ⟨rfl, hR⟩ : e = f ∧ R r q := hxy
      dsimp only
      split
      · exact ⟨rfl, hR⟩
      · exact ⟨rfl, hR⟩

end TemperatureMap.Related

/-! ## Maps with names -/

namespace NamedMap

variable {m n : NamedMap} (hcategory : m.category = n.category)
  (h : Table.Related (TemperatureMap.Related R) m.maps n.maps)
include h

theorem find_bind {α : Type} {name : Value} {f g : Option TemperatureMap → Except Fault α}
    (hnone : f none = g none) (hsome : ∀ a b, a.Related R b → f (some a) = g (some b)) :
    (m.maps.find name >>= f) = n.maps.find name >>= g := by
  refine SameResult.eq ((h.find name).bind fun a b hab => ?_)
  cases hab with
  | none => exact SameResult.of_eq hnone
  | some hab => exact SameResult.of_eq (hsome _ _ hab)

theorem available_eq (name fileType version temperature : Value) :
    m.available name fileType version temperature =
      n.available name fileType version temperature := by
  unfold NamedMap.available
  by_cases hnull : name.isNull = true
  · rw [if_pos hnull, if_pos hnull, h.isEmpty]
  · rw [if_neg hnull, if_neg hnull]
    exact find_bind h rfl fun a b hab => hab.available_eq fileType version temperature

theorem fileTypes_eq (name : Value) : m.fileTypes name = n.fileTypes name :=
  find_bind h rfl fun _ _ hab => congrArg Except.ok hab.shelves.labels

theorem versions_eq (name fileType : Value) : m.versions name fileType = n.versions name fileType :=
  find_bind h rfl fun _ _ hab => Shelves.versions_eq hab.shelves fileType

theorem energies_eq (name fileType version : Value) :
    m.energies name fileType version = n.energies name fileType version :=
  find_bind h rfl fun _ _ hab => hab.energies_eq fileType version

theorem temperatures_eq (name fileType version : Value) :
    m.temperatures name fileType version = n.temperatures name fileType version :=
  find_bind h rfl fun _ _ hab => hab.temperatures_eq fileType version

include hcategory

theorem under_related (name : Value) :
    SameResult (TemperatureMap.Related R) (m.under name) (n.under name) := by
  unfold NamedMap.under
  rw [hcategory]
  refine (h.find name).bind fun a b hab => ?_
  cases hab with
  | none => exact rfl
  | some hab => exact SameResult.ok hab

theorem recommendedVersion_eq (name fileType : Value) :
    m.recommendedVersion name fileType = n.recommendedVersion name fileType := by
  refine SameResult.eq ((under_related hcategory h name).bind fun a b hab => ?_)
  exact SameResult.of_eq (hab.recommendedVersion_eq fileType)

theorem get_related (name fileType version temperature : Value) (exact : Bool) :
    Outcome.Related R (m.get name fileType version temperature exact)
      (n.get name fileType version temperature exact) :=
  (Outcome.Related.lift (under_related hcategory h name)).bind fun _ _ hab =>
    hab.get fileType version temperature exact

end NamedMap

/-! ## All maps -/

theorem Bucket.Related.records {b c : Bucket} (h : b.Related R c) :
    List.Forall₂ R b.records c.records := by
  cases h with
  | lone h => exact .cons h .nil
  | graded h =>
    unfold Bucket.records
    rw [List.forall₂_map_left_iff, List.forall₂_map_right_iff]
    exact h.imp fun _ _ hxy => hxy.2

theorem Table.Related.flatMap {α β : Type} {Q : α → β → Prop} {t : Table α} {u : Table β}
    (h : t.Related Q u) {f : α → List RecordRef} {g : β → List RecordRef}
    (hfg : ∀ a b, Q a b → List.Forall₂ R (f a) (g b)) :
    List.Forall₂ R (t.contents.flatMap f) (u.contents.flatMap g) :=
  List.rel_flatMap h.contents fun a b hab => hfg a b hab

theorem TemperatureMap.Related.records {m n : TemperatureMap} (h : m.Related R n) :
    List.Forall₂ R m.records n.records := by
  unfold TemperatureMap.records Shelves.items
  rw [List.flatMap_assoc, List.flatMap_assoc]
  exact h.shelves.flatMap fun _ _ hs => hs.flatMap fun _ _ hb => hb.records

theorem RecordMap.Related.records {m n : RecordMap} (h : m.Related R n) :
    List.Forall₂ R m.records n.records := by
  cases h with
  | versioned _ h => exact h.flatMap fun _ _ hs => hs.contents
  | temperature h => exact h.records
  | named _ h => exact h.flatMap fun _ _ hm => hm.records

theorem RecordMap.Related.exists_of_mem {m n : RecordMap} (h : m.Related R n) {q : RecordRef}
    (hq : q ∈ n.records) : ∃ r ∈ m.records, R r q :=
  forall₂_exists_of_mem h.records hq

/-- The same answer, or related records. -/
def Answer.Related (R : RecordRef → RecordRef → Prop) : Answer → Answer → Prop
  | .record r, .record q => R r q
  | a, b => a = b

theorem answered_eq {α : Type} {f : α → Answer} {x y : Except Fault α} (h : x = y)
    (hf : ∀ a, Answer.Related R (f a) (f a)) :
    Outcome.Related (Answer.Related R) (answered f x) (answered f y) := by
  subst h
  cases x with
  | ok a => exact ⟨rfl, hf a⟩
  | error e => exact ⟨rfl, rfl⟩

theorem answered_record {x y : Except Fault RecordRef} (h : SameResult R x y) :
    Outcome.Related (Answer.Related R) (answered .record x) (answered .record y) := by
  cases x <;> cases y
  · exact ⟨rfl, h⟩
  · exact h.elim
  · exact h.elim
  · exact ⟨rfl, h⟩

theorem Answer.Related.fail (f : Fault) :
    Outcome.Related (Answer.Related R) (Outcome.fail f) (Outcome.fail f) :=
  ⟨rfl, rfl⟩

theorem VersionedMap.ask_related {m n : VersionedMap} (hcategory : m.category = n.category)
    (h : Table.Related (Table.Related R) m.shelves n.shelves) (q : Query) (args : List Value) :
    Outcome.Related (Answer.Related R) (m.ask q args) (n.ask q args) := by
  cases q with
  | available => exact answered_eq (Shelves.available_eq h _ _) fun _ => rfl
  | get =>
    refine answered_record ?_
    unfold VersionedMap.get
    rw [hcategory]
    exact Shelves.get_related h _ _ _
  | fileTypes => exact answered_eq (congrArg Except.ok h.labels) fun _ => rfl
  | versions => exact answered_eq (Shelves.versions_eq h _) fun _ => rfl
  | recommendedVersion =>
    refine answered_eq ?_ fun _ => rfl
    unfold VersionedMap.recommendedVersion
    rw [hcategory]
    exact Shelves.recommendedVersion_eq h _ _
  | energies => exact Answer.Related.fail _
  | temperatures => exact Answer.Related.fail _
  | names => exact Answer.Related.fail _

theorem TemperatureMap.Related.ask {m n : TemperatureMap} (h : m.Related R n) (q : Query)
    (args : List Value) : Outcome.Related (Answer.Related R) (m.ask q args) (n.ask q args) := by
  cases q with
  | available => exact answered_eq (h.available_eq _ _ _) fun _ => rfl
  | get => exact (h.get _ _ _ _).map fun _ _ hR => hR
  | fileTypes => exact answered_eq (congrArg Except.ok h.shelves.labels) fun _ => rfl
  | versions => exact answered_eq (Shelves.versions_eq h.shelves _) fun _ => rfl
  | recommendedVersion => exact answered_eq (h.recommendedVersion_eq _) fun _ => rfl
  | energies => exact answered_eq (h.energies_eq _ _) fun _ => rfl
  | temperatures => exact answered_eq (h.temperatures_eq _ _) fun _ => rfl
  | names => exact Answer.Related.fail _

theorem NamedMap.ask_related {m n : NamedMap} (hcategory : m.category = n.category)
    (h : Table.Related (TemperatureMap.Related R) m.maps n.maps) (q : Query) (args : List Value) :
    Outcome.Related (Answer.Related R) (m.ask q args) (n.ask q args) := by
  cases q with
  | available => exact answered_eq (NamedMap.available_eq h _ _ _ _) fun _ => rfl
  | get => exact (NamedMap.get_related hcategory h _ _ _ _ _).map fun _ _ hR => hR
  | fileTypes => exact answered_eq (NamedMap.fileTypes_eq h _) fun _ => rfl
  | versions => exact answered_eq (NamedMap.versions_eq h _ _) fun _ => rfl
  | recommendedVersion =>
    exact answered_eq (NamedMap.recommendedVersion_eq hcategory h _ _) fun _ => rfl
  | energies => exact answered_eq (NamedMap.energies_eq h _ _ _) fun _ => rfl
  | temperatures => exact answered_eq (NamedMap.temperatures_eq h _ _ _) fun _ => rfl
  | names => exact answered_eq (congrArg Except.ok h.labels) fun _ => rfl

/-- Related maps answer every query alike. -/
theorem RecordMap.Related.ask {m n : RecordMap} (h : m.Related R n) (q : Query) (args : List Value) :
    Outcome.Related (Answer.Related R) (m.ask q args) (n.ask q args) := by
  unfold RecordMap.ask
  rw [h.shape]
  split
  · exact Answer.Related.fail _
  · rename_i least most _
    by_cases hargs : args.length < least ∨ most < args.length
    · rw [if_pos hargs, if_pos hargs]
      exact Answer.Related.fail _
    · rw [if_neg hargs, if_neg hargs]
      cases h with
      | versioned hcategory h => exact VersionedMap.ask_related hcategory h q args
      | temperature h => exact h.ask q args
      | named hcategory h => exact NamedMap.ask_related hcategory h q args

end

end ScatteringData
