import Mathlib
import ScatteringData.DataPath

/-!
# Paths as texts

The path of a text has one of three roots, and parts that are neither empty nor single dots and hold no
slash. Such a path is the path of its own text.
-/

namespace ScatteringData.DataPath

variable {p : DataPath} {cs : List Char}

/-! ## Pieces between slashes -/

theorem split_slash (cs : List Char) : split ('/' :: cs) = [] :: split cs := rfl

theorem split_ne_nil (cs : List Char) : split cs ≠ [] := by
  cases cs with
  | nil => simp [split]
  | cons c cs =>
    unfold split
    split <;> simp

theorem split_cons {c : Char} (hc : c ≠ '/') (cs : List Char) :
    split (c :: cs) = (split cs).modifyHead (c :: ·) := by
  rw [split.eq_def]
  cases hsplit : split cs with
  | nil => exact absurd hsplit (split_ne_nil cs)
  | cons piece pieces => simp [hsplit]

theorem split_eq_splitOn (cs : List Char) : split cs = cs.splitOn '/' := by
  induction cs with
  | nil => rfl
  | cons c cs ih =>
    rw [List.splitOn, List.splitOnP_cons_eq_if_modifyHead, ← List.splitOn, ← ih]
    by_cases hc : c = '/'
    · rw [hc]
      rfl
    · rw [if_neg (by simpa using hc), split_cons hc]

theorem slash_notMem_of_mem_split {piece : List Char} (h : piece ∈ split cs) : '/' ∉ piece := by
  induction cs generalizing piece with
  | nil =>
    rw [List.mem_singleton.mp h]
    exact List.not_mem_nil
  | cons c cs ih =>
    by_cases hc : c = '/'
    · rw [hc, split_slash, List.mem_cons] at h
      rcases h with rfl | h
      · exact List.not_mem_nil
      · exact ih h
    · rw [split_cons hc] at h
      obtain ⟨first, pieces, hsplit⟩ := List.exists_cons_of_ne_nil (split_ne_nil cs)
      rw [hsplit] at h ih
      rcases List.mem_cons.mp h with rfl | h
      · exact List.not_mem_cons_of_ne_of_not_mem (Ne.symm hc) (ih List.mem_cons_self)
      · exact ih (List.mem_cons_of_mem _ h)

/-! ## Paths of texts -/

structure Normal (p : DataPath) : Prop where
  root : p.root = "" ∨ p.root = "/" ∨ p.root = "//"
  parts : ∀ s ∈ p.parts, s ≠ "" ∧ s ≠ "." ∧ '/' ∉ s.toList

theorem normal_ofText (s : String) : (ofText s).Normal := by
  constructor
  · simp only [ofText]
    unfold rootOf
    split <;> simp
  · intro t ht
    simp only [ofText, List.mem_map, List.mem_filter, decide_eq_true_eq] at ht
    obtain ⟨piece, ⟨hpiece, hempty, hdot⟩, rfl⟩ := ht
    refine ⟨mt String.ofList_eq_empty_iff.mp hempty, fun h => hdot (String.ofList_inj.mp h), ?_⟩
    rw [String.toList_ofList]
    exact slash_notMem_of_mem_split hpiece

theorem rootOf_append {root : String} (h : root = "" ∨ root = "/" ∨ root = "//") {c : Char}
    (hc : c ≠ '/') (cs : List Char) : rootOf (root.toList ++ c :: cs) = root := by
  rcases h with rfl | rfl | rfl <;> simp [rootOf, hc]

theorem split_append {root : String} (h : root = "" ∨ root = "/" ∨ root = "//") (cs : List Char) :
    ∃ n, split (root.toList ++ cs) = List.replicate n [] ++ split cs := by
  rcases h with rfl | rfl | rfl
  · exact ⟨0, rfl⟩
  · exact ⟨1, rfl⟩
  · exact ⟨2, rfl⟩

/-- Parts that are joined with slashes are split off again. -/
theorem split_joined {parts : List String} (hne : parts ≠ []) (h : ∀ s ∈ parts, '/' ∉ s.toList) :
    split ("/".intercalate parts).toList = parts.map String.toList := by
  rw [split_eq_splitOn, String.toList_intercalate]
  refine List.splitOn_intercalate '/' ?_ (by simpa using hne)
  simpa using h

theorem Normal.filter_parts (h : p.Normal) :
    (p.parts.map String.toList).filter (fun q => q ≠ [] ∧ q ≠ ['.']) = p.parts.map String.toList := by
  rw [List.filter_eq_self]
  intro q hq
  obtain ⟨s, hs, rfl⟩ := List.mem_map.mp hq
  obtain ⟨hempty, hdot, -⟩ := h.parts s hs
  rw [decide_eq_true_iff]
  exact ⟨mt String.toList_eq_nil_iff.mp hempty, fun heq => hdot (String.toList_inj.mp heq)⟩

theorem Normal.joined_eq_cons (h : p.Normal) (hne : p.parts ≠ []) :
    ∃ c cs, c ≠ '/' ∧ ("/".intercalate p.parts).toList = c :: cs := by
  obtain ⟨s, parts, hparts⟩ := List.exists_cons_of_ne_nil hne
  obtain ⟨hempty, -, hslash⟩ := h.parts s (hparts ▸ List.mem_cons_self)
  obtain ⟨c, cs, hs⟩ := List.exists_cons_of_ne_nil (mt String.toList_eq_nil_iff.mp hempty)
  have hc : c ≠ '/' := by
    rintro rfl
    exact hslash (hs ▸ List.mem_cons_self)
  rw [hparts, String.toList_intercalate, List.map_cons, hs]
  cases parts with
  | nil => exact ⟨c, cs, hc, by simp⟩
  | cons t parts => exact ⟨c, _, hc, List.intercalate_cons_cons⟩

theorem Normal.ofText_text (h : p.Normal) : ofText p.text = p := by
  by_cases hne : p.parts = []
  · obtain ⟨root, parts⟩ := p
    obtain rfl : parts = [] := hne
    rcases h.root with rfl | rfl | rfl <;> rfl
  · obtain ⟨c, cs, hc, hjoined⟩ := h.joined_eq_cons hne
    have htext : p.text = p.root ++ "/".intercalate p.parts := by
      rw [text, if_neg]
      rw [String.isEmpty_iff, ← String.toList_eq_nil_iff, String.toList_append, hjoined]
      simp
    obtain ⟨n, hsplit⟩ := split_append h.root (c :: cs)
    rw [htext, ofText, String.toList_append, hjoined, rootOf_append h.root hc, hsplit, ← hjoined,
      split_joined hne fun s hs => (h.parts s hs).2.2, List.filter_append, h.filter_parts]
    simp

theorem ofText_text (s : String) : ofText (ofText s).text = ofText s := (normal_ofText s).ofText_text

end ScatteringData.DataPath
