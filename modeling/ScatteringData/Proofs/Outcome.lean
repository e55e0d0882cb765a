import Mathlib
import ScatteringData.Outcome

/-!
# Results of outcomes in sequence

An outcome in sequence has a result if and only if every part has one. The entries do not matter for
the result. Sequences of parts that are related step by step have related results.
-/

namespace ScatteringData

variable {α β : Type}

theorem except_bind_eq_ok {ε : Type} {x : Except ε α} {f : α → Except ε β} {b : β} :
    (x >>= f) = .ok b ↔ ∃ a, x = .ok a ∧ f a = .ok b := by
  cases x with
  | error e =>
    refine ⟨fun h => (by cases h), ?_⟩
    rintro ⟨a, h, -⟩
    cases h
  | ok a =>
    refine ⟨fun h => ⟨a, rfl, h⟩, ?_⟩
    rintro ⟨a', h, hf⟩
    cases h
    exact hf

theorem forall₂_of_mapM_eq_ok {ε : Type} {f : α → Except ε β} {xs : List α} {ys : List β}
    (h : xs.mapM f = .ok ys) : List.Forall₂ (fun x y => f x = .ok y) xs ys := by
  induction xs generalizing ys with
  | nil =>
    cases h
    exact List.Forall₂.nil
  | cons x xs ih =>
    rw [List.mapM_cons] at h
    simp only [except_bind_eq_ok] at h
    obtain ⟨y, hy, rest, hrest, h⟩ := h
    cases h
    exact List.Forall₂.cons hy (ih hrest)

namespace Outcome

theorem bind_result (x : Outcome α) (f : α → Outcome β) :
    (x >>= f).result = x.result >>= fun a => (f a).result := by
  obtain ⟨es, r⟩ := x
  cases r with
  | error e => rfl
  | ok a => rfl

@[simp] theorem pure_result (a : α) : (pure a : Outcome α).result = .ok a := rfl

@[simp] theorem fail_result (f : Fault) : (fail f : Outcome α).result = .error f := rfl

@[simp] theorem lift_result (x : Except Fault α) : (liftM x : Outcome α).result = x := rfl

theorem map_eq_ok {x : Outcome α} {f : α → β} {b : β} (h : (x.map f).result = .ok b) :
    ∃ a, x.result = .ok a ∧ f a = b := by
  obtain ⟨es, r⟩ := x
  cases r with
  | error e => cases h
  | ok a =>
    cases h
    exact ⟨a, rfl, rfl⟩

theorem exists_map_ok {x : Outcome α} {a : α} (h : x.result = .ok a) (f : α → β) :
    ∃ b, (x.map f).result = .ok b := by
  obtain ⟨es, r⟩ := x
  cases h
  exact ⟨f a, rfl⟩

end Outcome

/-! ## Related results -/

def SameResult (related : α → β → Prop) : Except Fault α → Except Fault β → Prop
  | .ok a, .ok b => related a b
  | .error f, .error g => f = g
  | _, _ => False

section
variable {γ δ : Type} {Q : α → β → Prop} {P : γ → δ → Prop}

theorem SameResult.ok {a : α} {b : β} (h : Q a b) : SameResult Q (.ok a) (.ok b) := h

theorem SameResult.of_eq {x y : Except Fault α} (h : x = y) : SameResult Eq x y := by
  subst h
  cases x with
  | ok a => exact rfl
  | error f => exact rfl

theorem SameResult.eq {x y : Except Fault α} (h : SameResult Eq x y) : x = y := by
  cases x <;> cases y
  · exact congrArg _ h
  · exact h.elim
  · exact h.elim
  · exact congrArg _ h

theorem SameResult.bind {x : Except Fault α} {y : Except Fault β} {f : α → Except Fault γ}
    {g : β → Except Fault δ} (h : SameResult Q x y) (hfg : ∀ a b, Q a b → SameResult P (f a) (g b)) :
    SameResult P (x >>= f) (y >>= g) := by
  cases x <;> cases y
  · exact h
  · exact h.elim
  · exact h.elim
  · exact hfg _ _ h

theorem SameResult.mapM {xs : List α} {ys : List β} {f : α → Except Fault γ} {g : β → Except Fault δ}
    (h : List.Forall₂ Q xs ys) (hfg : ∀ a b, Q a b → SameResult P (f a) (g b)) :
    SameResult (List.Forall₂ P) (xs.mapM f) (ys.mapM g) := by
  induction h with
  | nil => exact List.Forall₂.nil
  | cons hab _ ih =>
    rw [List.mapM_cons, List.mapM_cons]
    refine (hfg _ _ hab).bind fun c d hcd => ih.bind fun cs ds hrest => ?_
    exact List.Forall₂.cons hcd hrest

/-- The same entries, and results that are related. -/
def Outcome.Related (Q : α → β → Prop) (x : Outcome α) (y : Outcome β) : Prop :=
  x.entries = y.entries ∧ SameResult Q x.result y.result

theorem Outcome.Related.bind {x : Outcome α} {y : Outcome β} {f : α → Outcome γ} {g : β → Outcome δ}
    (h : Outcome.Related Q x y) (hfg : ∀ a b, Q a b → Outcome.Related P (f a) (g b)) :
    Outcome.Related P (x >>= f) (y >>= g) := by
  obtain ⟨es, x⟩ := x
  obtain ⟨ds, y⟩ := y
  obtain ⟨hentries, hresult⟩ := h
  cases hentries
  cases x <;> cases y
  · exact ⟨rfl, hresult⟩
  · exact hresult.elim
  · exact hresult.elim
  · obtain ⟨hentries, hresult⟩ := hfg _ _ hresult
    exact ⟨congrArg (es ++ ·) hentries, hresult⟩

theorem Outcome.Related.lift {x : Except Fault α} {y : Except Fault β} (h : SameResult Q x y) :
    Outcome.Related Q (liftM x) (liftM y) :=
  ⟨rfl, h⟩

theorem Outcome.Related.map {x : Outcome α} {y : Outcome β} {f : α → γ} {g : β → δ}
    (h : Outcome.Related Q x y) (hfg : ∀ a b, Q a b → P (f a) (g b)) :
    Outcome.Related P (x.map f) (y.map g) := by
  obtain ⟨es, x⟩ := x
  obtain ⟨ds, y⟩ := y
  obtain ⟨hentries, hresult⟩ := h
  refine ⟨hentries, ?_⟩
  cases x <;> cases y
  · exact hresult
  · exact hresult.elim
  · exact hresult.elim
  · exact hfg _ _ hresult

end

end ScatteringData
