/-! # Text

    Text is a list of characters and a byte string a list of bytes, so every
    law about either is an induction.  Literals are written as strings and
    read as their characters.

    `split` and `intercalate` are inverse to each other, `beforeLast` and
    `afterLast` cut at the last occurrence of a separator, and `contains`
    searches for a piece. -/

namespace Neaten

/-- A sequence of Unicode characters. -/
abbrev Text : Type := List Char

/-- A sequence of bytes. -/
abbrev Bytes : Type := List UInt8

/-- A string literal is read as its characters. -/
instance : Coe String Text := ⟨String.toList⟩

namespace Text

/-! ## Pieces between separators -/

/-- The pieces of a text between the occurrences of `sep`.  There is always at
    least one piece, and pieces may be empty. -/
def split (sep : Char) : Text → List Text
  | [] => [[]]
  | c :: rest =>
    if c = sep then [] :: split sep rest
    else (split sep rest).modifyHead (c :: ·)

@[simp] theorem split_nil (sep : Char) : split sep [] = [[]] := rfl

@[simp] theorem split_cons_self (sep : Char) (t : Text) :
    split sep (sep :: t) = [] :: split sep t := by simp [split]

theorem split_cons_of_ne {sep c : Char} (h : c ≠ sep) (t : Text) :
    split sep (c :: t) = (split sep t).modifyHead (c :: ·) := by simp [split, h]

theorem split_ne_nil (sep : Char) : (t : Text) → split sep t ≠ []
  | [] => by simp
  | c :: rest => by
    by_cases h : c = sep
    · subst h; simp
    · rw [split_cons_of_ne h]
      cases hs : split sep rest with
      | nil => exact absurd hs (split_ne_nil sep rest)
      | cons _ _ => simp

/-- No piece holds the separator. -/
theorem not_mem_of_mem_split (sep : Char) : (t : Text) → ∀ p ∈ split sep t, sep ∉ p
  | [] => by simp
  | c :: rest => by
    intro p hp
    by_cases h : c = sep
    · subst h
      rw [split_cons_self, List.mem_cons] at hp
      rcases hp with rfl | hp
      · simp
      · exact not_mem_of_mem_split _ rest p hp
    · rw [split_cons_of_ne h] at hp
      have ih := not_mem_of_mem_split sep rest
      cases hs : split sep rest with
      | nil => exact absurd hs (split_ne_nil sep rest)
      | cons q qs =>
        rw [hs] at hp ih
        simp only [List.modifyHead_cons, List.mem_cons] at hp
        rcases hp with rfl | hp
        · have := ih q (by simp)
          simp [Ne.symm h, this]
        · exact ih p (by simp [hp])

/-- Putting the separators back gives the text again. -/
theorem intercalate_split (sep : Char) : (t : Text) → [sep].intercalate (split sep t) = t
  | [] => by simp [List.intercalate]
  | c :: rest => by
    have ih := intercalate_split sep rest
    cases hs : split sep rest with
    | nil => exact absurd hs (split_ne_nil sep rest)
    | cons q qs =>
      rw [hs] at ih
      by_cases h : c = sep
      · subst h
        rw [split_cons_self, hs]
        simp [List.intercalate, List.intersperse] at ih ⊢
        exact ih
      · rw [split_cons_of_ne h, hs]
        cases qs <;> simp_all [List.intercalate, List.intersperse]

/-! ## Cutting at the last separator -/

/-- What stands before and after the last `sep`, if there is one. -/
def cutLast (sep : Char) : Text → Option (Text × Text)
  | [] => none
  | c :: rest =>
    match cutLast sep rest with
    | some (before, after) => some (c :: before, after)
    | none => if c = sep then some ([], rest) else none

/-- The text after the last `sep`, or all of it. -/
def lastPiece (sep : Char) (t : Text) : Text :=
  match cutLast sep t with
  | some (_, after) => after
  | none => t

theorem cutLast_eq_none_iff (sep : Char) (t : Text) : cutLast sep t = none ↔ sep ∉ t := by
  induction t with
  | nil => simp [cutLast]
  | cons c rest ih =>
    rw [cutLast]
    split
    · next h =>
      have : ¬ sep ∉ rest := fun hn => by rw [ih.mpr hn] at h; cases h
      simp at this
      simp [this]
    · next h =>
      have hr := ih.mp h
      by_cases hc : c = sep
      · simp [hc]
      · simp [hc, hr, Ne.symm hc]

/-- A cut gives back the text, and nothing after it holds the separator. -/
theorem of_cutLast_eq_some {sep : Char} {t before after : Text}
    (h : cutLast sep t = some (before, after)) :
    t = before ++ sep :: after ∧ sep ∉ after := by
  induction t generalizing before with
  | nil => simp [cutLast] at h
  | cons c rest ih =>
    rw [cutLast] at h
    split at h
    · next b a hr =>
      obtain ⟨rfl, rfl⟩ : c :: b = before ∧ a = after := by simpa using h
      obtain ⟨h₁, h₂⟩ := ih hr
      exact ⟨by simp [h₁], h₂⟩
    · next hr =>
      split at h
      · next hc =>
        obtain ⟨rfl, rfl⟩ : [] = before ∧ rest = after := by simpa using h
        exact ⟨by simp [hc], (cutLast_eq_none_iff _ _).mp hr⟩
      · cases h

/-! ## Searching -/

/-- Whether `piece` occurs somewhere in the text. -/
def occursIn (piece : Text) : Text → Bool
  | [] => piece.isEmpty
  | c :: rest => piece.isPrefixOf (c :: rest) || occursIn piece rest

/-- `occursIn` finds exactly the contiguous pieces. -/
theorem occursIn_iff (piece : Text) (t : Text) : occursIn piece t = true ↔ piece <:+: t := by
  induction t with
  | nil => simp [occursIn, List.isEmpty_iff]
  | cons c rest ih => simp [occursIn, ih, List.infix_cons_iff]

/-! ## Numbers -/

/-- A number in decimal, without leading zeros. -/
def decimal (n : Nat) : Text := Nat.toDigits 10 n

end Text

end Neaten
