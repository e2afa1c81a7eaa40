import Mathlib.Data.List.Induction
import Neaten.Text.Case

/-! # What lower case leaves visible

    In lower case some characters outside ASCII become letters or end in a
    combining dot, and others become one or more characters outside ASCII.  Of a
    lower case of either kind a comparison with an ASCII text sees the same.

    An ending that has none of the characters that come up in this way is there in
    lower case just if the letters at the end are these, in whatever case. -/

namespace Neaten

/-! ## Letters -/

/-- The capitals of ASCII have another character for their lower case, and no
    others have. -/
theorem toNat_toLower (c : Char) :
    c.toLower.toNat = if 65 ≤ c.toNat ∧ c.toNat ≤ 90 then c.toNat + 32 else c.toNat := by
  unfold Char.toLower
  split
  · next h =>
    have hc : 65 ≤ c.toNat ∧ c.toNat ≤ 90 := h
    rw [if_pos hc]
    show (c.val + 32).toNat = c.toNat + 32
    rw [UInt32.toNat_add]
    show (c.toNat + 32) % 4294967296 = c.toNat + 32
    omega
  · next h =>
    have hc : ¬ (65 ≤ c.toNat ∧ c.toNat ≤ 90) := h
    rw [if_neg hc]

/-- A small letter is the lower case of itself and of its capital. -/
theorem toLower_eq_iff {c small capital : Char} (hcapital : 65 ≤ capital.toNat ∧ capital.toNat ≤ 90)
    (hsmall : small.toNat = capital.toNat + 32) :
    c.toLower = small ↔ c = small ∨ c = capital := by
  rw [← Char.toNat_inj, ← Char.toNat_inj, ← Char.toNat_inj, toNat_toLower]
  split
  · omega
  · omega

/-- Anything but a letter is the lower case of itself alone. -/
theorem toLower_eq_iff_of_not_letter {c x : Char} (hx : ¬ (65 ≤ x.toNat ∧ x.toNat ≤ 122)) :
    c.toLower = x ↔ c = x := by
  rw [← Char.toNat_inj, ← Char.toNat_inj, toNat_toLower]
  split
  · omega
  · omega

namespace Text

/-! ## Lower case beyond ASCII -/

/-- What a character may become in lower case.  Of the characters that have ASCII
    in their lower case it is known which these are.  Any other becomes one or
    more characters outside ASCII, and at different places these may be
    different ones. -/
inductive BecomesLower (c : Char) : Text → Prop
  | known (hc : c.toNat < 128 ∨ c = '\u212A' ∨ c = '\u0130') : BecomesLower c (lowerChar c)
  | beyond {image : Text} (hc : 128 ≤ c.toNat) (hkelvin : c ≠ '\u212A') (hdotted : c ≠ '\u0130')
      (hne : image ≠ []) (himage : ∀ x ∈ image, 128 ≤ x.toNat) : BecomesLower c image

/-- A text in lower case, one character after another. -/
inductive IsLowerCase : Text → Text → Prop
  | nil : IsLowerCase [] []
  | cons {c : Char} {image t lowered : Text} (hc : BecomesLower c image)
      (ht : IsLowerCase t lowered) : IsLowerCase (c :: t) (image ++ lowered)

/-- What is taken for lower case outside ASCII is outside ASCII as well. -/
theorem lowerChar_beyond {c : Char} (hc : 128 ≤ c.toNat) (hkelvin : c ≠ '\u212A')
    (hdotted : c ≠ '\u0130') : lowerChar c ≠ [] ∧ ∀ x ∈ lowerChar c, 128 ≤ x.toNat := by
  have hsame : c.toLower = c := (toLower_eq_iff_of_not_letter (by omega)).mpr rfl
  rw [lowerChar, if_neg hkelvin, if_neg hdotted, hsame]
  exact ⟨List.cons_ne_nil c [], List.forall_mem_singleton.mpr hc⟩

/-- What is taken for the lower case of a text is one. -/
theorem isLowerCase_lower (t : Text) : IsLowerCase t (lower t) := by
  induction t with
  | nil => exact .nil
  | cons c t ih =>
    rw [lower_cons]
    refine .cons ?_ ih
    by_cases hknown : c.toNat < 128 ∨ c = '\u212A' ∨ c = '\u0130'
    · exact .known hknown
    · simp only [not_or, Nat.not_lt] at hknown
      obtain ⟨hc, hkelvin, hdotted⟩ := hknown
      obtain ⟨hne, himage⟩ := lowerChar_beyond hc hkelvin hdotted
      exact .beyond hc hkelvin hdotted hne himage

/-! ## What ASCII sees of it -/

theorem suffix_append_iff {a front back : Text} :
    a <:+ front ++ back ↔ a <:+ back ∨ ∃ l, a = l ++ back ∧ l <:+ front := by
  constructor
  · intro h
    obtain ⟨u, hu⟩ := h
    rcases List.append_eq_append_iff.mp hu with ⟨l, hfront, ha⟩ | ⟨l, -, hback⟩
    · exact .inr ⟨l, ha, u, hfront.symm⟩
    · exact .inl ⟨l, hback.symm⟩
  · rintro (h | ⟨l, rfl, u, rfl⟩)
    · exact h.trans (List.suffix_append front back)
    · exact ⟨u, by rw [List.append_assoc]⟩

section

variable {a image t lowered : Text} (hascii : ∀ x ∈ a, x.toNat < 128)

include hascii

/-- No ASCII text reaches into what is beyond ASCII. -/
theorem suffix_append_of_beyond (himage : ∀ x ∈ image, 128 ≤ x.toNat) :
    a <:+ image ++ t ↔ a <:+ t := by
  rw [suffix_append_iff]
  constructor
  · rintro (h | ⟨l, rfl, hl⟩)
    · exact h
    · cases l with
      | nil => exact List.suffix_rfl
      | cons x rest =>
        have hx : x.toNat < 128 := hascii x (List.mem_append_left _ List.mem_cons_self)
        have hbeyond : 128 ≤ x.toNat := himage x (hl.mem List.mem_cons_self)
        omega
  · exact .inl

theorem ne_append_of_beyond (hne : image ≠ []) (himage : ∀ x ∈ image, 128 ≤ x.toNat) :
    image ++ t ≠ a := by
  intro h
  obtain ⟨x, rest, rfl⟩ := List.exists_cons_of_ne_nil hne
  have hx : x.toNat < 128 := hascii x (h ▸ List.mem_cons_self)
  have hbeyond : 128 ≤ x.toNat := himage x List.mem_cons_self
  omega

/-- Texts that are the same ASCII texts are so behind another one. -/
theorem append_eq_iff_of_ascii {l s other : Text}
    (h : ∀ b : Text, (∀ x ∈ b, x.toNat < 128) → (s = b ↔ other = b)) :
    l ++ s = a ↔ l ++ other = a := by
  constructor
  · rintro rfl
    rw [(h s fun x hx => hascii x (List.mem_append_right l hx)).mp rfl]
  · rintro rfl
    rw [(h other fun x hx => hascii x (List.mem_append_right l hx)).mpr rfl]

end

namespace IsLowerCase

variable {t lowered : Text} (h : IsLowerCase t lowered)

include h

/-- An ASCII text is a text in lower case in every way or in none. -/
theorem eq_iff (a : Text) (hascii : ∀ x ∈ a, x.toNat < 128) : lowered = a ↔ lower t = a := by
  induction h generalizing a with
  | nil => exact Iff.rfl
  | cons hc ht ih =>
    rw [lower_cons]
    cases hc with
    | known hknown => exact append_eq_iff_of_ascii hascii ih
    | beyond hc hkelvin hdotted hne himage =>
      obtain ⟨hne', himage'⟩ := lowerChar_beyond hc hkelvin hdotted
      exact iff_of_false (ne_append_of_beyond hascii hne himage)
        (ne_append_of_beyond hascii hne' himage')

/-- **Every lower case of a text ends in the same ASCII texts.** -/
theorem suffix_iff {a : Text} (hascii : ∀ x ∈ a, x.toNat < 128) :
    a <:+ lowered ↔ a <:+ lower t := by
  induction h with
  | nil => exact Iff.rfl
  | cons hc ht ih =>
    rw [lower_cons]
    cases hc with
    | known hknown =>
      rw [suffix_append_iff, suffix_append_iff, ih]
      -- An ending that reaches into the first character has all the rest in it.
      refine or_congr_right (exists_congr fun l => and_congr_left fun _ => ?_)
      rw [eq_comm, append_eq_iff_of_ascii hascii ht.eq_iff, eq_comm]
    | beyond hc hkelvin hdotted hne himage =>
      obtain ⟨-, himage'⟩ := lowerChar_beyond hc hkelvin hdotted
      rw [suffix_append_of_beyond hascii himage, suffix_append_of_beyond hascii himage', ih]

end IsLowerCase

/-! ## Endings in lower case -/

/-- Whether a character comes up in lower case for the letters of ASCII alone. -/
def isPlain (x : Char) : Bool :=
  x != 'k' && x != '\u0307' && x != '\u212A' && x != '\u0130'

/-- The lower case of a character ends in a plain one just if it is that one. -/
theorem exists_lowerChar_eq {x : Char} (hx : isPlain x = true) (c : Char) :
    ∃ front y, lowerChar c = front ++ [y] ∧ (y = x ↔ c.toLower = x) ∧ (y = x → front = []) := by
  obtain ⟨hk, hdot, hkelvin, hdotted⟩ :
      x ≠ 'k' ∧ x ≠ '\u0307' ∧ x ≠ '\u212A' ∧ x ≠ '\u0130' := by
    simpa [isPlain, and_assoc] using hx
  unfold lowerChar
  by_cases hc : c = '\u212A'
  · -- The Kelvin sign, which is no ASCII letter itself.
    subst hc
    refine ⟨[], 'k', rfl, ?_, fun _ => rfl⟩
    constructor
    · intro h
      exact absurd h.symm hk
    · intro h
      exact absurd h.symm hkelvin
  by_cases hd : c = '\u0130'
  · -- The capital I with a dot, which becomes two characters.
    subst hd
    refine ⟨['i'], '\u0307', rfl, ?_, fun h => absurd h.symm hdot⟩
    constructor
    · intro h
      exact absurd h.symm hdot
    · intro h
      exact absurd h.symm hdotted
  · rw [if_neg hc, if_neg hd]
    exact ⟨[], c.toLower, rfl, Iff.rfl, fun _ => rfl⟩

theorem concat_suffix_concat_iff {s t : Text} {x y : Char} :
    s ++ [x] <:+ t ++ [y] ↔ y = x ∧ s <:+ t := by
  rw [List.suffix_concat_iff]
  constructor
  · rintro (hnil | ⟨u, hu, hsuffix⟩)
    · simp at hnil
    · obtain ⟨rfl, hlast⟩ := List.append_inj' hu rfl
      exact ⟨(List.singleton_inj.mp hlast).symm, hsuffix⟩
  · rintro ⟨rfl, hsuffix⟩
    exact .inr ⟨s, rfl, hsuffix⟩

/-- **A text ends in plain characters in lower case** just if the letters at its
    end are these, in whatever case. -/
theorem suffix_lower_iff {ending : Text} (hplain : ∀ x ∈ ending, isPlain x = true) (t : Text) :
    ending <:+ lower t ↔ (t.drop (t.length - ending.length)).map Char.toLower = ending := by
  -- Both texts are read from their ends, one character at a time.
  induction ending using List.reverseRecOn generalizing t with
  | nil => simp
  | append_singleton front x ih =>
    cases t using List.reverseRecOn with
    | nil => simp
    | append_singleton s c =>
      have hfront : ∀ y ∈ front, isPlain y = true := fun y hy =>
        hplain y (List.mem_append_left _ hy)
      have hx : isPlain x = true := hplain x (List.mem_append_right _ List.mem_cons_self)
      obtain ⟨before, y, hchar, hlast, hsingle⟩ := exists_lowerChar_eq hx c
      have hlower : lower (s ++ [c]) = (lower s ++ before) ++ [y] := by
        rw [lower_append, List.append_assoc, ← hchar]
        simp
      have hdrop : (s ++ [c]).drop ((s ++ [c]).length - (front ++ [x]).length) =
          s.drop (s.length - front.length) ++ [c] := by
        rw [List.length_append, List.length_append, List.length_singleton, List.length_singleton,
          Nat.add_sub_add_right, List.drop_append_of_le_length (Nat.sub_le _ _)]
      rw [hlower, concat_suffix_concat_iff, hdrop, List.map_append]
      constructor
      · rintro ⟨hy, hsuffix⟩
        rw [hsingle hy, List.append_nil, ih hfront] at hsuffix
        rw [hsuffix, List.map_singleton, hlast.mp hy]
      · intro hmap
        obtain ⟨hstart, hend⟩ := List.append_inj' hmap rfl
        have hy : y = x := hlast.mpr (List.singleton_inj.mp hend)
        refine ⟨hy, ?_⟩
        rw [hsingle hy, List.append_nil, ih hfront]
        exact hstart

end Text

end Neaten
