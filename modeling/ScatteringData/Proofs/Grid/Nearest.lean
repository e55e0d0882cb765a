import Mathlib
import ScatteringData.Proofs.Bucket.Nearest
import ScatteringData.Proofs.Outcome
import ScatteringData.Proofs.Double.Difference

/-!
# The nearest energy in exact distances

The search for the nearest energy compares distances as they come out of the subtraction of doubles.
Rounding keeps their order but can make different distances equal; the lowest of the energies at the
least rounded distance is then not always the nearest one. If an energy is nearer to the query than half
of the query, no two distances that matter are made equal.
-/

namespace ScatteringData

open Double

/-! ## Rows of cells -/

namespace Nest

variable {α : Type}

theorem detectedAll_cell (as : List α) :
    detectedAll (as.map .cell) = List.replicate as.length ([], true) := by
  induction as with
  | nil => rfl
  | cons a as ih =>
    rw [List.map_cons, detectedAll, ih]
    rfl

theorem cellsAll_cell (as : List α) : cellsAll (as.map .cell) = as := by
  induction as with
  | nil => rfl
  | cons a as ih =>
    rw [List.map_cons, cellsAll, ih]
    rfl

theorem agreement_replicate (n : ℕ) :
    Dimensions.agreement (List.replicate n ([], true)) = ([], true) := by
  cases n with
  | zero => rfl
  | succ n =>
    rw [List.replicate_succ, Dimensions.agreement]
    induction n with
    | zero => rfl
    | succ n ih => exact ih

theorem lattice_row (as : List α) :
    (row (as.map cell)).lattice = .ok ⟨[as.length], as⟩ := by
  have hdetected : (row (as.map cell)).detected = ([as.length], true) := by
    rw [detected, detectedAll_cell, agreement_replicate, List.length_map]
  have hcells : (row (as.map cell)).cells = as := cellsAll_cell as
  rw [lattice, hdetected, hcells]
  rfl

end Nest

namespace Lattice

variable {α β : Type}

theorem flatten_take (as : List α) :
    ((List.range as.length).map fun i => (as.drop i).take 1).flatten = as := by
  induction as with
  | nil => rfl
  | cons a as ih =>
    rw [List.length_cons, List.range_succ_eq_map, List.map_cons, List.map_map, List.flatten_cons]
    exact congrArg (a :: ·) ih

theorem pairs_single (as : List α) (b : β) :
    pairs ⟨[as.length], as⟩ (single b) = .ok (as.map fun a => (a, b)) := by
  have hrow : stretchedTo ⟨[as.length], as⟩ [as.length] = as := by
    have hflatten := flatten_take as
    simpa [stretchedTo, repeated, Dimensions.count] using hflatten
  have hsingle : stretchedTo (single b) [as.length] = List.replicate as.length b := by
    by_cases h : as.length = 1
    · simp [stretchedTo, single, repeated, Dimensions.count, h]
    · simp [stretchedTo, single, repeated, Dimensions.count, Ne.symm h, List.flatten_replicate_singleton]
  have hdimensions : Dimensions.stretched? [as.length] (single b).dimensions = some [as.length] := rfl
  rw [pairs, hdimensions]
  simp only [hrow, hsingle]
  rw [← List.map_const', ← List.map_prod_left_eq_zip]

end Lattice

namespace Grid

def row (gs : List (Float × Mark)) (m : Mark) : Value :=
  .list (gs.map fun g => .float g.1 g.2) m

section
variable (gs : List (Float × Mark)) (m : Mark)

theorem lattice_floats :
    (row gs m).lattice = .ok ⟨[gs.length], gs.map fun g => .float g.1 g.2⟩ := by
  have hnest : Value.nestAll (gs.map fun g => .float g.1 g.2) =
      (gs.map fun g => Value.float g.1 g.2).map .cell := by
    induction gs with
    | nil => rfl
    | cons g gs ih =>
      rw [List.map_cons, Value.nestAll, ih]
      rfl
  have hlattice := Nest.lattice_row (gs.map fun g => Value.float g.1 g.2)
  rw [← hnest, List.length_map] at hlattice
  change Except.mapError Fault.lattice _ = _
  rw [row, Value.nest, hlattice]
  rfl

theorem ofValue_floats : ofValue (row gs m) = .ok ⟨[gs.length], gs.map (·.1)⟩ := by
  have hcells : (gs.map fun g => Value.float g.1 g.2).mapM
      (fun v => if v.isNull then pure (0.0 / 0.0) else v.toDouble) =
        (.ok (gs.map (·.1)) : Except Fault (List Float)) := by
    induction gs with
    | nil => rfl
    | cons g gs ih =>
      rw [List.map_cons, List.mapM_cons, ih]
      rfl
  rw [ofValue, except_bind_eq_ok]
  exact ⟨_, lattice_floats gs m, except_bind_eq_ok.mpr ⟨_, hcells, rfl⟩⟩

theorem findValue?_floats (q : Float) (m' : Mark) (exact : Bool) :
    findValue? (row gs m) (.float q m') (.bool exact) = .ok (find? (gs.map (·.1)) q exact) := by
  have hqueries : queriesOf (Value.bool exact).truthy (.float q m') = .ok (.doubles (.single q)) := rfl
  have hpaired : paired ⟨[gs.length], gs.map (·.1)⟩ (.single q) =
      .ok ((gs.map (·.1)).map fun g => (g, q)) := by
    have hpairs := Lattice.pairs_single (gs.map (·.1)) q
    rw [List.length_map] at hpairs
    rw [paired, hpairs]
    rfl
  rw [findValue?, except_bind_eq_ok]
  refine ⟨_, ofValue_floats gs m, ?_⟩
  cases gs with
  | nil => cases exact <;> rfl
  | cons g gs =>
    rw [if_neg (by simp), except_bind_eq_ok]
    refine ⟨_, hqueries, ?_⟩
    cases exact with
    | true =>
      refine except_bind_eq_ok.mpr ⟨_, hpaired, ?_⟩
      rw [List.findIdx?_map]
      rfl
    | false =>
      have hne : ((g :: gs).map (·.1)).map (fun g => distance g q) ≠ [] := by simp
      obtain ⟨i, d, hleast, -⟩ := exists_least? hne
      have hdistances : (((g :: gs).map (·.1)).map fun g => (g, q)).map (fun p => distance p.1 p.2) =
          ((g :: gs).map (·.1)).map fun g => distance g q := by
        rw [List.map_map]
        rfl
      refine except_bind_eq_ok.mpr ⟨_, hpaired, ?_⟩
      rw [find?, if_neg Bool.false_ne_true, nearest?, hdistances, hleast]
      rfl

end

/-! ## Exact and computed distances -/

def apart (g q : Float) : ℚ := |value g - value q|

section
variable {g q : Float} (hg : isMagnitude g = true) (hq : isMagnitude q = true)
include hg hq

theorem isRounded_distance : IsRounded (distance g q) (apart g q) :=
  (isRounded_sub (isFinite_of_isMagnitude hg) (isFinite_of_isMagnitude hq)).abs (isFinite_sub hg hq)

theorem value_distance_of_comparable (hgq : value g ≤ 2 * value q) (hqg : value q ≤ 2 * value g) :
    value (distance g q) = apart g q := by
  rw [value_distance hg hq, value_sub hg hq hgq hqg]
  rfl

theorem value_distance_of_small (h : apart g q < 2 ^ 53 * 2 ^ (-1074 : ℤ)) :
    value (distance g q) = apart g q := by
  have hgf := isFinite_of_isMagnitude hg
  have hqf := isFinite_of_isMagnitude hq
  obtain ⟨y, hy⟩ := exists_value_eq_mul hgf
  obtain ⟨z, hz⟩ := exists_value_eq_mul hqf
  have hdifference : value g - value q = (y - z : ℤ) * 2 ^ (-1074 : ℤ) := by
    rw [hy, hz, ← sub_mul, Int.cast_sub]
  rw [apart, hdifference] at h
  obtain ⟨f, hf, hvalue⟩ := exists_value_of_small h
  rw [← hdifference] at hvalue
  rw [value_distance hg hq, (isRounded_sub hgf hqf).value_eq (isFinite_sub hg hq) hf hvalue]
  rfl

theorem value_distance_of_zero (h : value q = 0) : value (distance g q) = apart g q := by
  have hgvalue : value g = apart g q := by
    rw [apart, h, sub_zero, abs_of_nonneg (value_nonneg hg)]
  exact (isRounded_distance hg hq).value_eq (isFinite_distance hg hq) (isFinite_of_isMagnitude hg) hgvalue

theorem le_distance_of_far (h : 2 * value q < value g) : value q ≤ value (distance g q) := by
  have hqf := isFinite_of_isMagnitude hq
  have hapart : value q < apart g q := by
    rw [apart, lt_abs]
    left
    linarith
  exact (isRounded_exact hqf rfl).le_of_lt hqf (isFinite_distance hg hq) (isRounded_distance hg hq) hapart

theorem distance_of_below (h : 2 * value g < value q) :
    value (distance g q) = apart g q ∨ value q / 2 ≤ value (distance g q) := by
  have hqf := isFinite_of_isMagnitude hq
  have hg0 := value_nonneg hg
  have hapart : apart g q = value q - value g := by
    rw [apart, abs_sub_comm, abs_of_pos (by linarith)]
  rcases exists_half hqf with ⟨half, hhalf, hvalue⟩ | hsmall
  · right
    rw [← hvalue]
    exact (isRounded_exact hhalf rfl).le_of_lt hhalf (isFinite_distance hg hq)
      (isRounded_distance hg hq) (by linarith)
  · left
    rw [abs_of_nonneg (value_nonneg hq)] at hsmall
    exact value_distance_of_small hg hq (by linarith)

theorem distance_close : |value (distance g q) - apart g q| ≤ apart g q / 2 ^ 53 := by
  have hapart : 0 ≤ apart g q := abs_nonneg _
  by_cases hsmall : apart g q < 2 ^ 53 * 2 ^ (-1074 : ℤ)
  · rw [value_distance_of_small hg hq hsmall, sub_self, abs_zero]
    positivity
  · have hclose := (isRounded_distance hg hq).close (isFinite_distance hg hq)
    have hleast : (0 : ℚ) < 2 ^ (-1075 : ℤ) := by positivity
    rw [zpow_least] at hsmall
    have hmax : (2 : ℚ) ^ (-1075 : ℤ) ≤ apart g q / 2 ^ 53 := by
      rw [le_div_iff₀ (by positivity)]
      linarith
    rwa [abs_of_nonneg hapart, max_eq_left hmax] at hclose

end

section
variable {x y q : Float} (hx : isMagnitude x = true) (hy : isMagnitude y = true)
  (hq : isMagnitude q = true)
include hx hy hq

theorem distance_le_of_apart_lt (h : apart x q < apart y q) :
    value (distance x q) ≤ value (distance y q) :=
  (isRounded_distance hx hq).le_of_lt (isFinite_distance hx hq) (isFinite_distance hy hq)
    (isRounded_distance hy hq) h

theorem distance_eq_of_apart_eq (hlt : value x < value y) (h : apart x q = apart y q) :
    value (distance x q) = value (distance y q) := by
  have hx0 := value_nonneg hx
  have hmiddle : value y - value q = value q - value x := by
    rcases abs_eq_abs.mp h with heq | heq <;> linarith
  have hexact : value (distance y q) = apart y q :=
    value_distance_of_comparable hy hq (by linarith) (by linarith)
  rw [← h] at hexact
  rw [hexact]
  exact (isRounded_distance hx hq).value_eq (isFinite_distance hx hq) (isFinite_distance hy hq) hexact

theorem apart_le_of_distance_le (h : value (distance x q) ≤ value (distance y q)) :
    apart x q ≤ (1 + 1 / 2 ^ 51) * apart y q := by
  have hy0 : 0 ≤ apart y q := abs_nonneg _
  obtain ⟨hxlow, -⟩ := abs_le.mp (distance_close hx hq)
  obtain ⟨-, hyhigh⟩ := abs_le.mp (distance_close hy hq)
  linarith

/-- What is nearer than half of the query is nearer than all that is farther away, after rounding,
too. -/
theorem distance_lt_of_near (hnear : 2 * apart y q < value q) (h : apart y q < apart x q) :
    value (distance y q) < value (distance x q) := by
  obtain ⟨hlow, hhigh⟩ := abs_le.mp (le_refl (apart y q))
  have hexact : value (distance y q) = apart y q :=
    value_distance_of_comparable hy hq (by linarith) (by linarith)
  have hy0 : 0 ≤ apart y q := abs_nonneg _
  have hx0 := value_nonneg hx
  rw [hexact]
  by_cases hfar : 2 * value q < value x
  · linarith [le_distance_of_far hx hq hfar]
  · by_cases hbelow : 2 * value x < value q
    · rcases distance_of_below hx hq hbelow with hx' | hx'
      · rw [hx']
        exact h
      · linarith
    · rw [value_distance_of_comparable hx hq (by linarith) (by linarith)]
      exact h

end

/-- The least computed distance is the least exact one if an energy is nearer than half of the query, or
the query is zero. -/
theorem apart_le_of_near {gs : List Float} {g q : Float} (hgs : ∀ c ∈ gs, isMagnitude c = true)
    (hg : isMagnitude g = true) (hq : isMagnitude q = true)
    (hfirst : ∀ c ∈ gs, value (distance g q) ≤ value (distance c q)) :
    (value q = 0 ∨ ∃ c ∈ gs, 2 * apart c q < value q) → ∀ c ∈ gs, apart g q ≤ apart c q := by
  rintro (hzero | ⟨z, hz, hnear⟩) c hc
  · rw [← value_distance_of_zero hg hq hzero, ← value_distance_of_zero (hgs c hc) hq hzero]
    exact hfirst c hc
  · by_contra hlt
    rw [not_le] at hlt
    -- whichever of the two is nearer than the result, it is nearer than half of the query
    obtain ⟨y, hy, hynear, hyg⟩ : ∃ y ∈ gs, 2 * apart y q < value q ∧ apart y q < apart g q := by
      by_cases hzg : apart z q < apart g q
      · exact ⟨z, hz, hnear, hzg⟩
      · exact ⟨c, hc, by linarith, hlt⟩
    have hcomputed := distance_lt_of_near hg (hgs y hy) hq hynear hyg
    exact absurd (hfirst y hy) (not_le.mpr hcomputed)

/-! ## The search -/

/-- A grid as the search expects it. -/
structure IsGrid (gs : List Float) : Prop where
  admissible : ∀ g ∈ gs, isMagnitude g = true
  ascending : gs.Pairwise fun g h => value g < value h

/-- What is certain, in exact distances, of the energy between lower and upper ones at which the search
ends. An upper energy can be nearer only if rounding gives both the same distance. -/
structure IsResolved (q : Float) (lower : List Float) (g : Float) (upper : List Float) : Prop where
  before : ∀ c ∈ lower, apart g q < apart c q
  rounded : ∀ c ∈ upper, apart c q < apart g q → value (distance c q) = value (distance g q)
  close : ∀ c ∈ upper, apart g q ≤ (1 + 1 / 2 ^ 51) * apart c q
  least : (value q = 0 ∨ ∃ c ∈ lower ++ g :: upper, 2 * apart c q < value q) →
    ∀ c ∈ lower ++ g :: upper, apart g q ≤ apart c q
  highest : (∀ c ∈ lower ++ g :: upper, value c ≤ value q) →
    (∃ c ∈ lower ++ g :: upper, value q < 2 * value c) → upper = []

theorem IsGrid.isResolved {q g : Float} {lower upper : List Float}
    (h : IsGrid (lower ++ g :: upper)) (hq : isMagnitude q = true)
    (hbefore : ∀ c ∈ lower, value (distance g q) < value (distance c q))
    (hafter : ∀ c ∈ upper, value (distance g q) ≤ value (distance c q)) :
    IsResolved q lower g upper := by
  obtain ⟨-, hg, hcross⟩ := List.pairwise_append.mp h.ascending
  have hbelow : ∀ c ∈ lower, value c < value g := fun c hc => hcross c hc g (by simp)
  have habove : ∀ c ∈ upper, value g < value c := (List.pairwise_cons.mp hg).1
  have hadmissible := h.admissible
  have hgm : isMagnitude g = true := hadmissible g (by simp)
  have hlower : ∀ c ∈ lower, isMagnitude c = true := fun c hc => hadmissible c (by simp [hc])
  have hupper : ∀ c ∈ upper, isMagnitude c = true := fun c hc => hadmissible c (by simp [hc])
  have hfirst : ∀ c ∈ lower ++ g :: upper, value (distance g q) ≤ value (distance c q) := by
    intro c hc
    rcases List.mem_append.mp hc with hc | hc
    · exact (hbefore c hc).le
    · rcases List.mem_cons.mp hc with rfl | hc
      · exact le_rfl
      · exact hafter c hc
  have hleast := apart_le_of_near hadmissible hgm hq hfirst
  refine ⟨?_, ?_, ?_, hleast, ?_⟩
  · intro c hc
    by_contra hle
    rcases lt_or_eq_of_le (not_lt.mp hle) with hlt | heq
    · exact absurd (distance_le_of_apart_lt (hlower c hc) hgm hq hlt) (not_le.mpr (hbefore c hc))
    · exact absurd (distance_eq_of_apart_eq (hlower c hc) hgm hq (hbelow c hc) heq) (hbefore c hc).ne'
  · intro c hc hlt
    exact le_antisymm (distance_le_of_apart_lt (hupper c hc) hgm hq hlt) (hafter c hc)
  · intro c hc
    exact apart_le_of_distance_le hgm (hupper c hc) hq (hafter c hc)
  · rintro hall ⟨z, hz, hnear⟩
    by_contra hne
    -- an upper energy that is not above the query would be nearer, even in exact distances
    obtain ⟨c, hc⟩ := List.exists_mem_of_ne_nil upper hne
    have hcq := hall c (by simp [hc])
    have hgc := habove c hc
    have hzq := hall z hz
    have hznear : 2 * apart z q < value q := by
      rw [apart, abs_of_nonpos (by linarith)]
      linarith
    have hle := hleast (Or.inr ⟨z, hz, hznear⟩) c (by simp [hc])
    rw [apart, apart, abs_of_nonpos (by linarith), abs_of_nonpos (by linarith)] at hle
    linarith

/-- On a grid of doubles the search ends at an energy that is exactly the nearest one, and the lowest
such one, up to rounding. -/
theorem findValue?_resolved (gs : List (Float × Mark)) (m m' : Mark) (q : Float)
    (h : IsGrid (gs.map (·.1))) (hne : gs ≠ []) (hq : isMagnitude q = true) :
    ∃ lower g upper, gs.map (·.1) = lower ++ g :: upper ∧
      findValue? (row gs m) (.float q m') (.bool false) = .ok (some lower.length) ∧
      IsResolved q lower g upper := by
  obtain ⟨lower, g, upper, hsplit, hnearest, hbefore, hafter⟩ :=
    exists_nearest? h.admissible (mt List.map_eq_nil_iff.mp hne) hq
  refine ⟨lower, g, upper, hsplit, ?_, ?_⟩
  · rw [findValue?_floats, find?, if_neg Bool.false_ne_true, hnearest]
  · rw [hsplit] at h
    exact h.isResolved hq hbefore hafter

def warming : List (Float × Mark) := [(0.0, .shared), (2.5301e-08, .shared), (2.1543e-07, .shared)]

def spread : List (Float × Mark) := [(0.24999999999999997, .shared), (2.75, .shared)]

theorem isGrid_warming : IsGrid (warming.map (·.1)) := by
  constructor <;> decide +kernel

theorem isGrid_spread : IsGrid (spread.map (·.1)) := by
  constructor <;> decide +kernel

theorem findValue?_resolved_warming :
    (IsGrid (warming.map (·.1)) ∧ warming ≠ [] ∧ isMagnitude 1.27e-08 = true) ∧
    ∃ lower g upper, warming.map (·.1) = lower ++ g :: upper ∧
      findValue? (row warming .shared) (.float 1.27e-08 .shared) (.bool false) =
        .ok (some lower.length) ∧
      IsResolved 1.27e-08 lower g upper :=
  ⟨⟨isGrid_warming, List.cons_ne_nil _ _, by decide +kernel⟩,
    findValue?_resolved warming .shared .shared 1.27e-08 isGrid_warming (List.cons_ne_nil _ _)
      (by decide +kernel)⟩

/-- Seen from far above, all energies of a grid are at one rounded distance, and the search ends at the
lowest of them. Between two energies, too, the lower one can be taken for the nearer one. -/
theorem findValue?_not_nearest :
    (findValue? (row warming .shared) (.float 1e10 .shared) (.bool false) = .ok (some 0) ∧
      IsGrid (warming.map (·.1)) ∧ isMagnitude 1e10 = true ∧
      (∀ g ∈ warming.map (·.1), value g < value 1e10) ∧ apart 2.1543e-07 1e10 < apart 0.0 1e10) ∧
    findValue? (row spread .shared) (.float 1.5 .shared) (.bool false) = .ok (some 0) ∧
      IsGrid (spread.map (·.1)) ∧ isMagnitude 1.5 = true ∧
      apart 2.75 1.5 < apart 0.24999999999999997 1.5 := by
  refine ⟨⟨?_, isGrid_warming, by decide +kernel, by decide +kernel, by decide +kernel⟩, ?_,
    isGrid_spread, by decide +kernel, by decide +kernel⟩
  · rw [findValue?_floats]
    exact congrArg Except.ok (by decide +kernel)
  · rw [findValue?_floats]
    exact congrArg Except.ok (by decide +kernel)

end Grid

end ScatteringData
