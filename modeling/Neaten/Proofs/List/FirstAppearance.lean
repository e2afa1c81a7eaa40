import Mathlib.Data.List.Induction
import Mathlib.Data.List.Nodup

/-! # In order of first appearance

    `List.eraseDups` leaves each element of a list where it first appears.  So
    the list may grow at its end: an element that has appeared already changes
    nothing, and a new one comes last. -/

namespace Neaten

variable {α : Type*} [BEq α] [LawfulBEq α]

/-- An element at the end is left out if it has appeared before. -/
theorem eraseDups_concat (l : List α) (a : α) :
    (l ++ [a]).eraseDups = if a ∈ l then l.eraseDups else l.eraseDups ++ [a] := by
  rw [List.eraseDups_append]
  by_cases h : a ∈ l
  · simp [List.removeAll, h]
  · simp [List.removeAll, h, List.eraseDups_cons]

theorem nodup_eraseDups (l : List α) : l.eraseDups.Nodup := by
  induction l using List.reverseRecOn with
  | nil => simp
  | append_singleton l a ih =>
    rw [eraseDups_concat]
    by_cases h : a ∈ l
    · rw [if_pos h]
      exact ih
    · rw [if_neg h, List.nodup_append_comm]
      simp [ih, h]

/-- Leaving elements out first makes no difference. -/
theorem filter_eraseDups (p : α → Bool) (l : List α) :
    l.eraseDups.filter p = (l.filter p).eraseDups := by
  induction l using List.reverseRecOn with
  | nil => simp
  | append_singleton l a ih =>
    rw [eraseDups_concat, List.filter_append]
    by_cases hp : p a = true
    · have hmem : a ∈ l.filter p ↔ a ∈ l := by simp [hp]
      have hlast : [a].filter p = [a] := by simp [hp]
      rw [hlast, eraseDups_concat]
      by_cases h : a ∈ l
      · rw [if_pos h, if_pos (hmem.mpr h), ih]
      · rw [if_neg h, if_neg (mt hmem.mp h), List.filter_append, hlast, ih]
    · have hlast : [a].filter p = [] := by simp [hp]
      by_cases h : a ∈ l
      · rw [if_pos h, hlast, List.append_nil, ih]
      · rw [if_neg h, List.filter_append, hlast, List.append_nil, List.append_nil, ih]

end Neaten
