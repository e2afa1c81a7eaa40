import Neaten.Proofs.Text.LowerCase
import Neaten.Upload

/-! # Names of archives

    Whether a name is that of an archive is asked of the whole name in lower case,
    in which characters outside ASCII may become letters, or several characters.
    Its title is found by cutting off the last four bytes, which may begin within
    a character, and by comparing these in whatever letter case.

    Both come to the same.  No character beyond ASCII has one of the end in its
    lower case, so the name ends in `.zip` in lower case just if its last four
    characters are these in whatever case.  They have one byte each. -/

namespace Neaten.Archive

/-! ## The end of a name -/

/-- The end of an archive's name, each letter in either case. -/
def IsNameEnd (ending : Text) : Prop :=
  ∃ z i p, ending = ['.', z, i, p] ∧ (z = 'z' ∨ z = 'Z') ∧ (i = 'i' ∨ i = 'I') ∧
    (p = 'p' ∨ p = 'P')

theorem sameLetters_nameEnd_iff (ending : Text) :
    Text.sameLetters ending nameEnd = true ↔ IsNameEnd ending := by
  have hletters : nameEnd.map Char.toLower = ['.', 'z', 'i', 'p'] := by decide
  have hdot : ∀ c : Char, c.toLower = '.' ↔ c = '.' := fun c =>
    toLower_eq_iff_of_not_letter (by decide)
  have hz : ∀ c : Char, c.toLower = 'z' ↔ c = 'z' ∨ c = 'Z' := fun c =>
    toLower_eq_iff (by decide) (by decide)
  have hi : ∀ c : Char, c.toLower = 'i' ↔ c = 'i' ∨ c = 'I' := fun c =>
    toLower_eq_iff (by decide) (by decide)
  have hp : ∀ c : Char, c.toLower = 'p' ↔ c = 'p' ∨ c = 'P' := fun c =>
    toLower_eq_iff (by decide) (by decide)
  rw [Text.sameLetters, beq_iff_eq, hletters]
  constructor
  · intro h
    obtain ⟨dot, rest, rfl, h₁, h⟩ := List.map_eq_cons_iff.mp h
    obtain ⟨z, rest, rfl, h₂, h⟩ := List.map_eq_cons_iff.mp h
    obtain ⟨i, rest, rfl, h₃, h⟩ := List.map_eq_cons_iff.mp h
    obtain ⟨p, rest, rfl, h₄, h⟩ := List.map_eq_cons_iff.mp h
    obtain rfl := List.map_eq_nil_iff.mp h
    obtain rfl := (hdot dot).mp h₁
    exact ⟨z, i, p, rfl, (hz z).mp h₂, (hi i).mp h₃, (hp p).mp h₄⟩
  · rintro ⟨z, i, p, rfl, h₂, h₃, h₄⟩
    rw [List.map_cons, List.map_cons, List.map_cons, List.map_cons, (hdot '.').mpr rfl,
      (hz z).mpr h₂, (hi i).mpr h₃, (hp p).mpr h₄, List.map_nil]

theorem IsNameEnd.length {ending : Text} (h : IsNameEnd ending) : ending.length = 4 := by
  obtain ⟨z, i, p, rfl, -⟩ := h
  rfl

/-- The four characters have one byte each. -/
theorem IsNameEnd.size {ending : Text} (h : IsNameEnd ending) : Utf8.size ending = 4 := by
  obtain ⟨z, i, p, rfl, hz, hi, hp⟩ := h
  rcases hz with rfl | rfl <;> rcases hi with rfl | rfl <;> rcases hp with rfl | rfl <;> rfl

/-! ## Archives and their titles -/

/-- A name without its last four characters. -/
def stem (name : Text) : Text := name.take (name.length - 4)

/-- The title of an archive's README: its name without its last four characters,
    or the default where that leaves nothing. -/
def titleOf (name : Text) : Text := if stem name = [] then Readme.defaultTitle else stem name

/-- The end of the name decides. -/
theorem isArchiveName_eq (name : Text) :
    isArchiveName name = Text.sameLetters (name.drop (name.length - 4)) nameEnd := by
  have hplain : ∀ x ∈ nameEnd, Text.isPlain x = true := List.all_eq_true.mp (by decide)
  have hletters : nameEnd.map Char.toLower = nameEnd := by decide
  rw [Bool.eq_iff_iff, isArchiveName, List.isSuffixOf_iff_suffix, Text.suffix_lower_iff hplain,
    Text.sameLetters, beq_iff_eq, hletters]
  rfl

section

variable {front ending : Text} (h : IsNameEnd ending)

include h

theorem stem_append : stem (front ++ ending) = front := by
  rw [stem, List.length_append, h.length, Nat.add_sub_cancel, List.take_left]

theorem isArchiveName_append : isArchiveName (front ++ ending) = true := by
  rw [isArchiveName_eq, List.length_append, h.length, Nat.add_sub_cancel, List.drop_left]
  exact (sameLetters_nameEnd_iff ending).mpr h

end

/-- A name is that of an archive just if it has the end of one. -/
theorem isArchiveName_iff {name : Text} :
    isArchiveName name = true ↔ ∃ front ending, name = front ++ ending ∧ IsNameEnd ending := by
  constructor
  · intro h
    rw [isArchiveName_eq, sameLetters_nameEnd_iff] at h
    exact ⟨_, _, (List.take_append_drop (name.length - 4) name).symm, h⟩
  · rintro ⟨front, ending, rfl, h⟩
    exact isArchiveName_append h

/-- A title is what stands before the end, if that is something. -/
theorem title?_eq_some_iff {name t : Text} :
    title? name = some t ↔ t ≠ [] ∧ ∃ ending, name = t ++ ending ∧ IsNameEnd ending := by
  constructor
  · intro h
    unfold title? at h
    split at h
    · cases h
    · next hsize =>
      split at h
      · next front hcut =>
        obtain ⟨ending, rfl, hfront⟩ := Utf8.of_cut?_eq_some hcut (Nat.sub_le _ _)
        rw [List.drop_left] at h
        split at h
        · next hend =>
          obtain rfl := Option.some.inj h
          refine ⟨?_, ending, rfl, (sameLetters_nameEnd_iff ending).mp hend⟩
          -- There are more bytes than those of the end.
          rintro rfl
          rw [Utf8.size_nil] at hfront
          omega
        · cases h
      · cases h
  · rintro ⟨ht, ending, rfl, hend⟩
    obtain ⟨c, rest, rfl⟩ := List.exists_cons_of_ne_nil ht
    have hpos := Utf8.length_encodeChar_pos c
    have hsize : Utf8.size ((c :: rest) ++ ending) = Utf8.size (c :: rest) + 4 := by
      rw [Utf8.size_append, hend.size]
    have hlong : ¬ Utf8.size ((c :: rest) ++ ending) ≤ 4 := by
      rw [hsize, Utf8.size_cons]
      omega
    rw [title?, if_neg hlong, hsize, Nat.add_sub_cancel, Utf8.cut?_append_size]
    dsimp only
    rw [List.drop_left, if_pos ((sameLetters_nameEnd_iff ending).mpr hend)]

/-- An archive has a title unless its name is nothing but the end. -/
theorem title?_of_isArchiveName {name : Text} (h : isArchiveName name = true) :
    title? name = if stem name = [] then none else some (stem name) := by
  obtain ⟨front, ending, rfl, hend⟩ := isArchiveName_iff.mp h
  rw [stem_append hend]
  by_cases hfront : front = []
  · rw [if_pos hfront, Option.eq_none_iff_forall_ne_some]
    intro t ht
    obtain ⟨hne, other, hname, hother⟩ := title?_eq_some_iff.mp ht
    have hstem := congrArg stem hname
    rw [stem_append hend, stem_append hother] at hstem
    exact hne (hstem.symm.trans hfront)
  · rw [if_neg hfront]
    exact title?_eq_some_iff.mpr ⟨hfront, ending, rfl, hend⟩

theorem getD_title? {name : Text} (h : isArchiveName name = true) :
    (title? name).getD Readme.defaultTitle = titleOf name := by
  rw [title?_of_isArchiveName h, titleOf]
  split <;> rfl

/-- The last four bytes of an archive's name begin where a character does. -/
theorem cut?_of_isArchiveName {name : Text} (h : isArchiveName name = true) :
    Utf8.cut? name (Utf8.size name - 4) = some (stem name) := by
  obtain ⟨front, ending, rfl, hend⟩ := isArchiveName_iff.mp h
  rw [stem_append hend, Utf8.size_append, hend.size, Nat.add_sub_cancel, Utf8.cut?_append_size]

/-! ## The theorem -/

/-- **Both tests of a name agree.**  A name is that of an archive just if its last
    four characters are those of the end, each letter in either case.  These are
    the names that have a title, and besides them the end alone.  A title is not
    empty, and the end is all that follows it.

    Neither test takes anything else for the end.  The last four bytes of such a
    name are whole characters, and whatever the characters beyond ASCII become in
    lower case, the name ends in `.zip` then or it never does. -/
theorem name_tests_agree (name : Text) :
    (isArchiveName name = true ↔ ∃ front ending, name = front ++ ending ∧ IsNameEnd ending) ∧
    (isArchiveName name = true ↔ (∃ t, title? name = some t) ∨ IsNameEnd name) ∧
    (∀ t, title? name = some t → t ≠ [] ∧ ∃ ending, name = t ++ ending ∧ IsNameEnd ending) ∧
    (isArchiveName name = true → Utf8.cut? name (Utf8.size name - 4) = some (stem name)) ∧
    ∀ lowered, Text.IsLowerCase name lowered →
      (nameEnd <:+ lowered ↔ isArchiveName name = true) := by
  refine ⟨isArchiveName_iff, ?_, ?_, cut?_of_isArchiveName, ?_⟩
  · constructor
    · intro h
      obtain ⟨front, ending, rfl, hend⟩ := isArchiveName_iff.mp h
      by_cases hfront : front = []
      · rw [hfront]
        exact .inr hend
      · exact .inl ⟨front, title?_eq_some_iff.mpr ⟨hfront, ending, rfl, hend⟩⟩
    · rintro (⟨t, ht⟩ | hend)
      · obtain ⟨-, ending, hname, hend⟩ := title?_eq_some_iff.mp ht
        exact isArchiveName_iff.mpr ⟨t, ending, hname, hend⟩
      · exact isArchiveName_iff.mpr ⟨[], name, rfl, hend⟩
  · intro t ht
    exact title?_eq_some_iff.mp ht
  · intro lowered hlowered
    have hall : nameEnd.all (fun x => decide (x.toNat < 128)) = true := by decide
    have hascii : ∀ x ∈ nameEnd, x.toNat < 128 := fun x hx =>
      of_decide_eq_true (List.all_eq_true.mp hall x hx)
    rw [hlowered.suffix_iff hascii, isArchiveName, List.isSuffixOf_iff_suffix]

/-- The Kelvin sign and the I with a dot may stand in a title, where they are left
    as they are, and not in the end. -/
theorem name_tests_agree_lookalikes :
    title? "\u212A\u0130.ZiP" = some ("\u212A\u0130" : Text) ∧
      (∃ ending, ("\u212A\u0130.ZiP" : Text) = ("\u212A\u0130" : Text) ++ ending ∧
        IsNameEnd ending) ∧
      (nameEnd <:+ Text.lower "\u212A\u0130.ZiP" ↔ isArchiveName "\u212A\u0130.ZiP" = true) ∧
      ¬ ∃ t, title? "a.z\u0130p" = some t := by
  have htitle : title? "\u212A\u0130.ZiP" = some ("\u212A\u0130" : Text) := by decide
  obtain ⟨-, -, htitles, -, hlower⟩ := name_tests_agree "\u212A\u0130.ZiP"
  refine ⟨htitle, (htitles _ htitle).2, hlower _ (Text.isLowerCase_lower _), ?_⟩
  intro h
  have harchive := (name_tests_agree "a.z\u0130p").2.1.mpr (.inl h)
  exact absurd harchive (by decide)

end Neaten.Archive
