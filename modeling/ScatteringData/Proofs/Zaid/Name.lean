import Mathlib
import ScatteringData.Zaid

/-!
# Names of identifiers

A name is the symbol of an element, followed by a numeral unless the identifier is an atom's. No two
elements have one symbol and no symbol has a digit in it, so a name tells where its symbol ends, and
the symbol and the numeral tell the identifier.
-/

namespace ScatteringData

namespace Element

theorem nodup_symbols : symbols.Nodup := by decide +kernel

theorem symbols_without_digits : (symbols.all fun s => s.toList.all fun c => !c.isDigit) = true := by
  decide +kernel

variable {n : ℕ}

theorem exists_symbol (h : minNumber ≤ n ∧ n ≤ maxNumber) :
    ∃ (k : ℕ) (hk : k < symbols.length), n = k + 1 ∧ symbol n = symbols[k] := by
  obtain ⟨k, rfl⟩ := Nat.exists_eq_add_of_le' h.1
  have hk : k < symbols.length := by
    rw [length_symbols]
    exact h.2
  exact ⟨k, hk, rfl, List.getD_eq_getElem _ _ hk⟩

theorem number?_symbol (h : minNumber ≤ n ∧ n ≤ maxNumber) : number? (symbol n) = some n := by
  obtain ⟨k, hk, rfl, hsymbol⟩ := exists_symbol h
  have hfirst : symbols.idxOf? symbols[k] = some k := by
    refine List.idxOf?_eq_some_iff.mpr ⟨hk, rfl, fun j hj heq => ?_⟩
    exact absurd (nodup_symbols.getElem_inj_iff.mp heq) hj.ne
  rw [number?, hsymbol, hfirst]
  rfl

end Element

namespace Zaid

variable {z w : Zaid}

def digits (z : Zaid) : List Char := if z.isAtom then [] else Nat.toDigits 10 z.massNumber

theorem toList_name (z : Zaid) : z.name.toList = z.symbol.toList ++ z.digits := by
  unfold name digits
  split
  · rw [List.append_nil]
  · rw [String.toList_append, Nat.toString_eq_ofList_toDigits, String.toList_ofList]

theorem number?_symbol (z : Zaid) : Element.number? z.symbol = some z.atomicNumber :=
  Element.number?_symbol z.element_known

theorem not_isDigit_of_mem_symbol (z : Zaid) : ∀ c ∈ z.symbol.toList, (!c.isDigit) = true := by
  obtain ⟨k, hk, -, hsymbol⟩ := Element.exists_symbol z.element_known
  rw [symbol, atomicNumber, hsymbol]
  have hall := List.all_eq_true.mp Element.symbols_without_digits _ (List.getElem_mem hk)
  exact List.all_eq_true.mp hall

theorem isDigit_of_mem_digits (z : Zaid) : ∀ c ∈ z.digits, c.isDigit = true := by
  intro c hc
  unfold digits at hc
  split at hc
  · cases hc
  · exact Nat.isDigit_of_mem_toDigits (by decide) (by decide) hc

theorem takeWhile_name (z : Zaid) :
    z.name.toList.takeWhile (fun c => !c.isDigit) = z.symbol.toList := by
  have hnone : z.digits.takeWhile (fun c => !c.isDigit) = [] := by
    cases hdigits : z.digits with
    | nil => rfl
    | cons c cs =>
      have hc := z.isDigit_of_mem_digits c (hdigits ▸ List.mem_cons_self ..)
      exact List.takeWhile_cons_of_neg (by simp [hc])
  rw [toList_name, List.takeWhile_append_of_pos z.not_isDigit_of_mem_symbol, hnone, List.append_nil]

theorem ofDigitChars_digits (z : Zaid) : Nat.ofDigitChars 10 z.digits 0 = z.massNumber := by
  unfold digits
  split
  · rename_i hatom
    exact (eq_of_beq hatom).symm
  · exact Nat.ofDigitChars_ten_toDigits

/-- No two identifiers have one name. -/
theorem eq_of_name_eq (h : z.name = w.name) : z = w := by
  have hsymbol : z.symbol = w.symbol := by
    rw [← String.toList_inj, ← takeWhile_name, ← takeWhile_name, h]
  have hdigits : z.digits = w.digits := by
    have hlist := congrArg String.toList h
    rw [toList_name, toList_name, hsymbol] at hlist
    exact List.append_cancel_left hlist
  have hatomic : z.atomicNumber = w.atomicNumber := by
    rw [← Option.some_inj, ← number?_symbol, ← number?_symbol, hsymbol]
  have hmass : z.massNumber = w.massNumber := by
    rw [← ofDigitChars_digits, ← ofDigitChars_digits, hdigits]
  have hraw : z.raw = w.raw := by rw [raw_eq, raw_eq, hatomic, hmass]
  cases z
  cases w
  cases hraw
  rfl

end Zaid

end ScatteringData
