import Neaten.Text.Blank

/-! # Trimmed text

    A text is trimmed if it neither starts nor ends with a blank.  Trimming
    gives a trimmed text, changes no text that is trimmed already, and takes
    away whatever blanks were put in front.  It never touches the characters
    that are not blank, so whatever is counted among them stays the same. -/

namespace Neaten.Text

/-- A text that neither starts nor ends with a blank. -/
structure IsTrimmed (t : Text) : Prop where
  head : ∀ c ∈ t.head?, isBlank c = false
  last : ∀ c ∈ t.getLast?, isBlank c = false

/-! ## One end -/

/-- What is left once blanks are dropped at the start does not start with one. -/
theorem head?_dropBlanks (t : Text) : ∀ c ∈ (t.dropWhile isBlank).head?, isBlank c = false := by
  intro c hc
  have hnot := List.head?_dropWhile_not isBlank t
  rwa [Option.mem_def.mp hc] at hnot

/-- Nothing is dropped at the start of a text that does not start with a blank. -/
theorem dropBlanks_eq_self {t : Text} (h : ∀ c ∈ t.head?, isBlank c = false) :
    t.dropWhile isBlank = t := by
  cases t with
  | nil => rfl
  | cons c rest => rw [List.dropWhile_cons, if_neg (by simp [h c rfl])]

theorem trimEnd_isPrefix (t : Text) : trimEnd t <+: t := by
  have hsuffix := List.dropWhile_suffix isBlank (l := t.reverse)
  rw [← List.reverse_prefix, List.reverse_reverse] at hsuffix
  exact hsuffix

theorem trimStart_suffix (t : Text) : trimStart t <:+ t := List.dropWhile_suffix isBlank

/-! ## Both ends -/

theorem isTrimmed_trim (t : Text) : IsTrimmed (trim t) where
  head := by
    intro c hc
    -- The end is trimmed last, which leaves the start unless nothing is left.
    obtain ⟨rest, hrest⟩ := trimEnd_isPrefix (trimStart t)
    have hhead := head?_dropBlanks t c
    rw [show t.dropWhile isBlank = trim t ++ rest from hrest.symm, List.head?_append] at hhead
    exact hhead (by simp [Option.mem_def.mp hc])
  last := by
    intro c hc
    have hhead := head?_dropBlanks (trimStart t).reverse c
    rw [trim, trimEnd, List.getLast?_reverse] at hc
    exact hhead hc

theorem IsTrimmed.trim_eq {t : Text} (h : IsTrimmed t) : trim t = t := by
  have hend : t.reverse.dropWhile isBlank = t.reverse := by
    apply dropBlanks_eq_self
    intro c hc
    rw [List.head?_reverse] at hc
    exact h.last c hc
  rw [trim, trimStart, dropBlanks_eq_self h.head, trimEnd, hend, List.reverse_reverse]

/-- Blanks in front make no difference. -/
theorem trim_append {front : Text} (h : ∀ c ∈ front, isBlank c = true) (t : Text) :
    trim (front ++ t) = trim t := by
  unfold trim trimStart
  rw [List.dropWhile_append_of_pos h]

/-- Trimming adds no characters. -/
theorem trim_sublist (t : Text) : (trim t).Sublist t :=
  (trimEnd_isPrefix (trimStart t)).sublist.trans (trimStart_suffix t).sublist

/-! ## Characters that are not blank -/

/-- The characters of a text that are not blank, in order. -/
def visible (t : Text) : Text := t.filter (!isBlank ·)

/-- Whether there are only blanks in a text. -/
def allBlank (t : Text) : Bool := t.all isBlank

theorem allBlank_iff {t : Text} : allBlank t = true ↔ ∀ c ∈ t, isBlank c = true :=
  List.all_eq_true

@[simp] theorem visible_append (s t : Text) : visible (s ++ t) = visible s ++ visible t :=
  List.filter_append _ _

theorem visible_eq_nil_iff {t : Text} : visible t = [] ↔ allBlank t = true := by
  rw [allBlank_iff, visible, List.filter_eq_nil_iff]
  simp

theorem visible_trimStart (t : Text) : visible (trimStart t) = visible t := by
  have hblank : visible (t.takeWhile isBlank) = [] :=
    visible_eq_nil_iff.mpr List.all_takeWhile
  calc visible (trimStart t)
      = visible (t.takeWhile isBlank) ++ visible (t.dropWhile isBlank) := by
        rw [hblank, List.nil_append, trimStart]
    _ = visible t := by rw [← visible_append, List.takeWhile_append_dropWhile]

theorem visible_reverse (t : Text) : visible t.reverse = (visible t).reverse :=
  List.filter_reverse

/-- Trimming takes away blanks alone. -/
@[simp] theorem visible_trim (t : Text) : visible (trim t) = visible t := by
  -- Trimming the end is trimming the start of the text read backwards.
  have hend : ∀ s : Text, visible (trimEnd s) = visible s := by
    intro s
    show visible (trimStart s.reverse).reverse = visible s
    rw [visible_reverse, visible_trimStart, visible_reverse, List.reverse_reverse]
  rw [trim, hend, visible_trimStart]

/-- Nothing is left just if there were only blanks. -/
theorem trim_eq_nil_iff (t : Text) : trim t = [] ↔ allBlank t = true := by
  constructor
  · intro h
    rw [← visible_eq_nil_iff, ← visible_trim, h]
    rfl
  · intro h
    have happend := trim_append (allBlank_iff.mp h) []
    rwa [List.append_nil, trim_nil] at happend

/-- A character that is not blank occurs as often after trimming as before. -/
theorem count_trim {c : Char} (hc : isBlank c = false) (t : Text) :
    (trim t).count c = t.count c := by
  have hcount : ∀ s : Text, (visible s).count c = s.count c := by
    intro s
    exact List.count_filter (by rw [hc]; rfl)
  rw [← hcount, visible_trim, hcount]

end Neaten.Text
