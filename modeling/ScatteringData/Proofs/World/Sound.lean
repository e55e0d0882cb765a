import Mathlib
import ScatteringData.Proofs.Heap.Setting
import ScatteringData.Proofs.World.Seats

/-!
# No container is shared

In a sound world every container belongs to one seat at most, and once to the map there. Containers that
were made for a map that is not in its seat yet are pending. New containers keep a world sound, and a
change of the containers of one map changes what is seen in the seat of that map only.
-/

namespace ScatteringData

namespace Heap

variable {h k : Heap} {x : Root} {m n : RecordMap} {within own : List Location}

theorem read?_lt (hx : h.read? x = some (m, within)) : ∀ a ∈ within, a < h.size :=
  (Layout.ofShape_lawful x.shape).held hx

theorem read?_congr (hx : h.read? x = some (m, within)) (hk : ∀ a ∈ within, k.get? a = h.get? a) :
    k.read? x = some (m, within) :=
  (Layout.ofShape_lawful x.shape).congr hx hk

theorem read?_grows (hx : h.read? x = some (m, within)) (hk : h.Grows k) :
    k.read? x = some (m, within) :=
  (Layout.ofShape_lawful x.shape).grows hx hk

theorem read?_inj (hm : h.read? x = some (m, within)) (hn : h.read? x = some (n, own)) :
    n = m ∧ own = within :=
  Prod.mk.inj (Option.some.inj (hn.symm.trans hm))

theorem mapAt_eq (hx : h.read? x = some (m, within)) : h.mapAt x = m := by
  rw [mapAt, hx]
  rfl

end Heap

namespace World

/-- In a seat there is a map that is made of certain containers. -/
def Seated (w : World) (p : Seat) (m : RecordMap) (within : List Location) : Prop :=
  ∃ x, w.objects.at? p = some x ∧ w.heap.read? x = some (m, within)

structure Sound (w : World) (pending : List Location) : Prop where
  seated : ∀ {p x}, w.objects.at? p = some x → ∃ m within, w.heap.read? x = some (m, within)
  once : ∀ {p m within}, w.Seated p m within → within.Nodup
  apart : ∀ {p q m n within own}, p ≠ q → w.Seated p m within → w.Seated q n own → within.Disjoint own
  free : ∀ {p m within}, w.Seated p m within → within.Disjoint pending
  nodup : pending.Nodup
  held : ∀ a ∈ pending, a < w.heap.size

variable {w : World} {P within : List Location} {k : Heap} {t : Store Root} {p : Seat} {x : Root}
  {m : RecordMap}

theorem Seated.unique {n : RecordMap} {own : List Location} (hm : w.Seated p m within)
    (hn : w.Seated p n own) : n = m ∧ own = within := by
  obtain ⟨x, hx, hm⟩ := hm
  obtain ⟨y, hy, hn⟩ := hn
  obtain rfl := Option.some.inj (hx.symm.trans hy)
  exact Heap.read?_inj hm hn

theorem Sound.of_seats {v : World} (hw : w.Sound P) (hsize : w.heap.size ≤ v.heap.size)
    (hat : ∀ q, v.objects.at? q = w.objects.at? q)
    (hread : ∀ q y m within, w.objects.at? q = some y → w.heap.read? y = some (m, within) →
      v.heap.read? y = some (m, within)) : v.Sound P := by
  have hback : ∀ {q n own}, v.Seated q n own → w.Seated q n own := by
    rintro q n own ⟨y, hy, hn⟩
    rw [hat] at hy
    obtain ⟨m, within, hm⟩ := hw.seated hy
    obtain ⟨rfl, rfl⟩ := Heap.read?_inj (hread q y m within hy hm) hn
    exact ⟨y, hy, hm⟩
  refine ⟨fun {q y} hy => ?_, fun hm => hw.once (hback hm), fun hne hm hn => ?_,
    fun hm => hw.free (hback hm), hw.nodup, fun a ha => (hw.held a ha).trans_le hsize⟩
  · rw [hat] at hy
    obtain ⟨m, within, hm⟩ := hw.seated hy
    exact ⟨m, within, hread q y m within hy hm⟩
  · exact hw.apart hne (hback hm) (hback hn)

/-! ## New containers -/

theorem Sound.grows (hw : w.Sound P) (hk : w.heap.Grows k) : ({ w with heap := k } : World).Sound P :=
  hw.of_seats hk.size (fun _ => rfl) fun _ _ _ _ _ hm => Heap.read?_grows hm hk

theorem Sound.store_grows (hw : w.Sound P) (hk : w.heap.Grows k) :
    ({ w with heap := k } : World).store = w.store := by
  refine Store.mapMaps_congr fun q y hy => ?_
  obtain ⟨n, own, hn⟩ := hw.seated hy
  rw [Heap.mapAt_eq hn, Heap.mapAt_eq (Heap.read?_grows hn hk)]

theorem Sound.new (hw : w.Sound (P ++ within)) (c : Cell) :
    (w.new c).1.Sound (P ++ w.heap.size :: within) := by
  have hgrown := hw.grows (w.heap.grows_new c)
  have hnot : ∀ {q n own}, ({ w with heap := (w.heap.new c).1 } : World).Seated q n own →
      w.heap.size ∉ own := by
    rintro q n own ⟨y, hy, hn⟩ hin
    obtain ⟨n', own', hn'⟩ := hw.seated hy
    obtain ⟨rfl, rfl⟩ := Heap.read?_inj (Heap.read?_grows hn' (w.heap.grows_new c)) hn
    exact lt_irrefl _ (Heap.read?_lt hn' _ hin)
  refine ⟨hgrown.seated, hgrown.once, hgrown.apart, fun hn => ?_, ?_, fun a ha => ?_⟩
  · rw [List.disjoint_append_right, List.disjoint_cons_right, and_left_comm]
    exact ⟨hnot hn, List.disjoint_append_right.mp (hgrown.free hn)⟩
  · exact List.nodup_middle.mpr
      (List.nodup_cons.mpr ⟨fun hin => lt_irrefl _ (hw.held _ hin), hw.nodup⟩)
  · rw [show (w.new c).1.heap.size = w.heap.size + 1 from Heap.size_new ..]
    rcases List.mem_cons.mp (List.perm_middle.mem_iff.mp ha) with rfl | ha
    · exact Nat.lt_succ_self _
    · exact Nat.lt_succ_of_lt (hw.held a ha)

/-! ## Changes in place -/

section
variable {v : RecordMap} {after : List Location} (hw : w.Sound P) (hx : w.objects.at? p = some x)
  (hm : w.heap.read? x = some (m, within))
  (hk : (Layout.ofShape x.shape).Rewrites x.ref w.heap within k v after)
include hw hx hm hk

theorem Sound.kept {q : Seat} {y : Root} {n : RecordMap} {own : List Location} (hq : q ≠ p)
    (hy : w.objects.at? q = some y) (hn : w.heap.read? y = some (n, own)) :
    k.read? y = some (n, own) :=
  Heap.read?_congr hn fun a ha => hk.others a (Heap.read?_lt hn a ha) fun hin =>
    hw.apart hq ⟨y, hy, hn⟩ ⟨x, hx, hm⟩ ha hin

theorem Sound.rewrites : ({ w with heap := k } : World).Sound P := by
  have hback : ∀ {q n own}, q ≠ p → ({ w with heap := k } : World).Seated q n own →
      w.Seated q n own := by
    rintro q n own hq ⟨y, hy, hn⟩
    obtain ⟨n', own', hn'⟩ := hw.seated hy
    obtain ⟨rfl, rfl⟩ := Heap.read?_inj (hw.kept hx hm hk hq hy hn') hn
    exact ⟨y, hy, hn'⟩
  have hseat : ({ w with heap := k } : World).Seated p v after := ⟨x, hx, hk.shows.1⟩
  -- what the changed map is made of now belonged to it before, or is new
  have haway : ∀ {own : List Location}, own.Disjoint within → (∀ a ∈ own, a < w.heap.size) →
      after.Disjoint own := by
    intro own hown hlt a ha hin
    rcases hk.own a ha with hold | hnew
    · exact hown hin hold
    · exact (hlt a hin).not_ge hnew
  have hother : ∀ {q n own}, q ≠ p → ({ w with heap := k } : World).Seated q n own →
      after.Disjoint own := by
    intro q n own hq hn
    obtain ⟨y, hy, hn⟩ := hback hq hn
    exact haway (hw.apart hq ⟨y, hy, hn⟩ ⟨x, hx, hm⟩) (Heap.read?_lt hn)
  refine ⟨fun {q y} hy => ?_, fun {q n own} hn => ?_, fun {q r n o own own'} hne hn ho => ?_,
    fun {q n own} hn => ?_, hw.nodup, fun a ha => (hw.held a ha).trans_le hk.size⟩
  · by_cases hq : q = p
    · subst hq
      obtain rfl := Option.some.inj (hx.symm.trans hy)
      exact ⟨v, after, hk.shows.1⟩
    · obtain ⟨n, own, hn⟩ := hw.seated hy
      exact ⟨n, own, hw.kept hx hm hk hq hy hn⟩
  · by_cases hq : q = p
    · subst hq
      obtain ⟨rfl, rfl⟩ := hseat.unique hn
      exact hk.shows.2
    · exact hw.once (hback hq hn)
  · by_cases hq : q = p
    · subst hq
      obtain ⟨rfl, rfl⟩ := hseat.unique hn
      exact hother hne.symm ho
    · by_cases hr : r = p
      · subst hr
        obtain ⟨rfl, rfl⟩ := hseat.unique ho
        exact (hother hq hn).symm
      · exact hw.apart hne (hback hq hn) (hback hr ho)
  · by_cases hq : q = p
    · subst hq
      obtain ⟨rfl, rfl⟩ := hseat.unique hn
      exact haway (hw.free ⟨x, hx, hm⟩).symm hw.held
    · exact hw.free (hback hq hn)

/-- A change of the containers of one map is seen in its seat and nowhere else. -/
theorem Sound.store_rewrites : ({ w with heap := k } : World).store = w.store.putAt v p := by
  refine Store.mapMaps_putAt hx (Heap.mapAt_eq hk.shows.1) fun q y hq hy => ?_
  obtain ⟨n, own, hn⟩ := hw.seated hy
  rw [Heap.mapAt_eq hn, Heap.mapAt_eq (hw.kept hx hm hk hq hy hn)]

end

/-! ## New seats -/

/-- Maps that were pending get seats of their own. -/
theorem Sound.adopt {ι : Type} {all : List ι} {own : ι → List Location} (seat : ι → Seat)
    (root : ι → Root) {content : ι → RecordMap} (hw : w.Sound (P ++ all.flatMap own))
    (hall : ∀ i, i ∈ all) (hnew : ∀ i, t.at? (seat i) = some (root i))
    (hold : ∀ q, (∀ i, q ≠ seat i) → t.at? q = w.objects.at? q)
    (hread : ∀ i, w.heap.read? (root i) = some (content i, own i)) :
    ({ w with objects := t } : World).Sound P := by
  obtain ⟨hP, hown, hapart⟩ := List.nodup_append'.mp hw.nodup
  obtain ⟨honce, hpairwise⟩ := List.nodup_flatMap.mp hown
  have : Std.Symm (Function.onFun List.Disjoint own) := ⟨fun _ _ h => h.symm⟩
  have hdisjoint : ∀ i j, i ≠ j → (own i).Disjoint (own j) := fun i j hij =>
    hpairwise.forall (hall i) (hall j) hij
  have hin : ∀ i, own i ⊆ all.flatMap own := fun i a ha => List.mem_flatMap.mpr ⟨i, hall i, ha⟩
  have hfree : ∀ {q n o} i, w.Seated q n o → o.Disjoint (own i) := fun i hn a ha hai =>
    hw.free hn ha (List.mem_append_right P (hin i hai))
  -- a map is in a new seat, or it is in the seat that it had
  have hback : ∀ {q n o}, ({ w with objects := t } : World).Seated q n o →
      (∃ i, q = seat i ∧ o = own i) ∨ w.Seated q n o := by
    rintro q n o ⟨y, hy, hn⟩
    by_cases hq : ∃ i, q = seat i
    · obtain ⟨i, rfl⟩ := hq
      obtain rfl := Option.some.inj ((hnew i).symm.trans hy)
      exact Or.inl ⟨i, rfl, (Heap.read?_inj (hread i) hn).2⟩
    · exact Or.inr ⟨y, (hold q fun i hi => hq ⟨i, hi⟩) ▸ hy, hn⟩
  refine ⟨fun {q y} hy => ?_, fun {q n o} hn => ?_, fun {q r n n' o o'} hne hn hn' => ?_,
    fun {q n o} hn => ?_, hP, fun a ha => hw.held a (List.mem_append_left _ ha)⟩
  · by_cases hq : ∃ i, q = seat i
    · obtain ⟨i, rfl⟩ := hq
      obtain rfl := Option.some.inj ((hnew i).symm.trans hy)
      exact ⟨content i, own i, hread i⟩
    · exact hw.seated ((hold q fun i hi => hq ⟨i, hi⟩) ▸ hy)
  · rcases hback hn with ⟨i, rfl, rfl⟩ | hn
    · exact honce i (hall i)
    · exact hw.once hn
  · rcases hback hn with ⟨i, rfl, rfl⟩ | hn
    · rcases hback hn' with ⟨j, rfl, rfl⟩ | hn'
      · exact hdisjoint i j fun h => hne (congrArg seat h)
      · exact (hfree i hn').symm
    · rcases hback hn' with ⟨j, rfl, rfl⟩ | hn'
      · exact hfree j hn
      · exact hw.apart hne hn hn'
  · rcases hback hn with ⟨i, rfl, rfl⟩ | hn
    · exact fun a ha hin' => hapart hin' (hin i ha)
    · exact fun a ha hin' => hw.free hn ha (List.mem_append_left _ hin')

end World

end ScatteringData
