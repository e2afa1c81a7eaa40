import Neaten.Path

/-! # Pieces between separators

    A text is its pieces with separators between them, and its last piece is
    what stands after the last separator. -/

namespace Neaten.Text

/-! ## Putting pieces together -/

theorem split_append_cons (sep : Char) (front back : Text) :
    split sep (front ++ sep :: back) = split sep front ++ split sep back := by
  induction front with
  | nil => simp
  | cons c rest ih =>
    by_cases h : c = sep
    · subst h
      simp [ih]
    · rw [List.cons_append, split_cons_of_ne h, ih, split_cons_of_ne h]
      cases hs : split sep rest with
      | nil => exact absurd hs (split_ne_nil sep rest)
      | cons p ps => rfl

theorem split_of_not_mem {sep : Char} {t : Text} (h : sep ∉ t) : split sep t = [t] := by
  induction t with
  | nil => rfl
  | cons c rest ih =>
    have hc : c ≠ sep := fun e => h (by simp [e])
    rw [split_cons_of_ne hc, ih fun hm => h (List.mem_cons_of_mem _ hm)]
    rfl

/-- Pieces without separator are the pieces again once separators stand between
    them. -/
theorem split_intercalate {sep : Char} {pieces : List Text} (hne : pieces ≠ [])
    (h : ∀ p ∈ pieces, sep ∉ p) : split sep ([sep].intercalate pieces) = pieces := by
  induction pieces with
  | nil => exact absurd rfl hne
  | cons p rest ih =>
    have hp := split_of_not_mem (h p List.mem_cons_self)
    cases rest with
    | nil => simpa [List.intercalate] using hp
    | cons q more =>
      rw [Path.intercalate_cons_cons, Text.split_append_cons, hp,
        ih (List.cons_ne_nil q more) fun r hr => h r (List.mem_cons_of_mem p hr)]
      rfl

/-- Some pieces and then others are one text, a separator, and another text. -/
theorem intercalate_append (sep : Char) {front back : List Text} (hfront : front ≠ [])
    (hback : back ≠ []) :
    [sep].intercalate (front ++ back) =
      [sep].intercalate front ++ sep :: [sep].intercalate back := by
  obtain ⟨next, more, rfl⟩ := List.exists_cons_of_ne_nil hback
  induction front with
  | nil => exact absurd rfl hfront
  | cons p rest ih =>
    cases rest with
    | nil =>
      rw [List.singleton_append, Path.intercalate_cons_cons]
      simp [List.intercalate]
    | cons q others =>
      have hrest := ih (List.cons_ne_nil q others)
      rw [List.cons_append] at hrest
      rw [List.cons_append, List.cons_append, Path.intercalate_cons_cons, hrest,
        Path.intercalate_cons_cons]
      simp

/-- Pieces at the front make the beginning of a text. -/
theorem intercalate_prefix (sep : Char) (front back : List Text) :
    [sep].intercalate front <+: [sep].intercalate (front ++ back) := by
  by_cases hfront : front = []
  · rw [hfront]
    exact List.nil_prefix
  · by_cases hback : back = []
    · simp [hback]
    · rw [intercalate_append sep hfront hback]
      exact List.prefix_append _ _

section

variable {sep : Char} {t : Text} {front back : List Text} (h : split sep t = front ++ back)

include h

/-- The first pieces of a text make the beginning of it. -/
theorem intercalate_prefix_of_split : [sep].intercalate front <+: t := by
  have hfront := intercalate_prefix sep front back
  rwa [← h, intercalate_split] at hfront

theorem not_mem_of_split_eq_append {p : Text} (hp : p ∈ front) : sep ∉ p := by
  refine not_mem_of_mem_split sep t p ?_
  rw [h]
  exact List.mem_append_left back hp

end

/-- Pieces that are not empty only give the empty text if there are none. -/
theorem intercalate_eq_nil_iff {sep : Char} {pieces : List Text} (h : ∀ p ∈ pieces, p ≠ []) :
    [sep].intercalate pieces = [] ↔ pieces = [] := by
  cases pieces with
  | nil => simp [List.intercalate]
  | cons p rest =>
    have hp : p ≠ [] := h p List.mem_cons_self
    cases rest with
    | nil => simp [List.intercalate, hp]
    | cons q more => simp

/-- There is one piece more than there are separators. -/
theorem length_split (sep : Char) (t : Text) : (split sep t).length = t.count sep + 1 := by
  induction t with
  | nil => rfl
  | cons c rest ih =>
    by_cases hc : c = sep
    · subst hc
      simp [ih]
    · simp [split_cons_of_ne hc, ih, List.count_cons_of_ne hc]

/-- A text with enough separators has one with so many before it. -/
theorem exists_eq_append_of_lt_count {sep : Char} {t : Text} {n : Nat} (h : n < t.count sep) :
    ∃ front rest, t = front ++ sep :: rest ∧ front.count sep = n := by
  induction t generalizing n with
  | nil => simp at h
  | cons c t ih =>
    by_cases hc : c = sep
    · subst hc
      rw [List.count_cons_self] at h
      by_cases hn : n = 0
      · exact ⟨[], t, rfl, hn.symm⟩
      · obtain ⟨front, rest, rfl, hfront⟩ := ih (n := n - 1) (by omega)
        refine ⟨c :: front, rest, rfl, ?_⟩
        rw [List.count_cons_self]
        omega
    · rw [List.count_cons_of_ne hc] at h
      obtain ⟨front, rest, rfl, hfront⟩ := ih h
      refine ⟨c :: front, rest, rfl, ?_⟩
      rw [List.count_cons_of_ne hc, hfront]

/-! ## What occurs in the pieces -/

/-- What has no separator does not start at one, unless it is empty. -/
theorem eq_nil_of_prefix_cons {sep : Char} {piece t : Text} (h : sep ∉ piece)
    (hstart : piece <+: sep :: t) : piece = [] := by
  cases piece with
  | nil => rfl
  | cons c rest =>
    obtain ⟨rfl, -⟩ := List.cons_prefix_cons.mp hstart
    exact absurd List.mem_cons_self h

/-- What has no separator occurs on one of the two sides of a separator. -/
theorem infix_append_cons_iff {sep : Char} {piece : Text} (h : sep ∉ piece) (front back : Text) :
    piece <:+: front ++ sep :: back ↔ piece <:+: front ∨ piece <:+: back := by
  constructor
  · intro hin
    rcases List.infix_append_iff.mp hin with hfront | hback | ⟨left, right, rfl, hleft, hright⟩
    · exact .inl hfront
    · rcases List.infix_cons_iff.mp hback with hstart | hback
      · rw [eq_nil_of_prefix_cons h hstart]
        exact .inl List.nil_infix
      · exact .inr hback
    · -- Of a piece that reaches the separator nothing is left beyond the front.
      have hnone : sep ∉ right := fun hmem => h (List.mem_append_right left hmem)
      rw [eq_nil_of_prefix_cons hnone hright, List.append_nil]
      exact .inl hleft.isInfix
  · rintro (hfront | hback)
    · exact hfront.trans (List.prefix_append _ _).isInfix
    · have htail : back <:+: sep :: back := (List.suffix_cons sep back).isInfix
      exact hback.trans (htail.trans (List.suffix_append front _).isInfix)

/-- What has no separator occurs in a text just if it occurs in a piece. -/
theorem infix_intercalate_iff {sep : Char} {piece : Text} (hne : piece ≠ []) (h : sep ∉ piece)
    (pieces : List Text) :
    piece <:+: [sep].intercalate pieces ↔ ∃ p ∈ pieces, piece <:+: p := by
  induction pieces with
  | nil => simp [List.intercalate, hne]
  | cons p rest ih =>
    cases rest with
    | nil => simp [List.intercalate]
    | cons q more =>
      rw [Path.intercalate_cons_cons, infix_append_cons_iff h, ih]
      simp

/-! ## The last piece -/

/-- What stands after the last separator is the last of the pieces. -/
theorem getLast?_split (sep : Char) (t : Text) :
    (split sep t).getLast? = some (lastPiece sep t) := by
  unfold lastPiece
  split
  · next before after hcut =>
    obtain ⟨rfl, hafter⟩ := of_cutLast_eq_some hcut
    rw [split_append_cons, split_of_not_mem hafter, List.getLast?_concat]
  · next hnone =>
    rw [split_of_not_mem ((cutLast_eq_none_iff sep t).mp hnone)]
    rfl

theorem not_mem_lastPiece (sep : Char) (t : Text) : sep ∉ lastPiece sep t :=
  not_mem_of_mem_split sep t _ (List.mem_of_getLast? (getLast?_split sep t))

/-- A text without separator is its own last piece. -/
theorem lastPiece_of_not_mem {sep : Char} {t : Text} (h : sep ∉ t) : lastPiece sep t = t := by
  unfold lastPiece
  rw [(cutLast_eq_none_iff sep t).mpr h]

theorem lastPiece_lastPiece (sep : Char) (t : Text) :
    lastPiece sep (lastPiece sep t) = lastPiece sep t :=
  lastPiece_of_not_mem (not_mem_lastPiece sep t)

/-- Nothing stands after the last separator just if the text ends in it, or if
    there is no text. -/
theorem lastPiece_eq_nil_iff (sep : Char) (t : Text) :
    lastPiece sep t = [] ↔ t = [] ∨ t.getLast? = some sep := by
  unfold lastPiece
  split
  · next before after hcut =>
    obtain ⟨rfl, hafter⟩ := of_cutLast_eq_some hcut
    constructor
    · rintro rfl
      exact .inr List.getLast?_concat
    · rintro (hnil | hlast)
      · cases before <;> cases hnil
      · cases after with
        | nil => rfl
        | cons c rest =>
          -- The last character is one after the last separator, so not itself one.
          have hlast : (c :: rest).getLast? = some sep := by
            rw [List.getLast?_append, List.getLast?_cons_cons] at hlast
            simpa using hlast
          exact absurd (List.mem_of_getLast? hlast) hafter
  · next hnone =>
    have hnot : sep ∉ t := (cutLast_eq_none_iff sep t).mp hnone
    refine ⟨.inl, ?_⟩
    rintro (hnil | hlast)
    · exact hnil
    · exact absurd (List.mem_of_getLast? hlast) hnot

end Neaten.Text
