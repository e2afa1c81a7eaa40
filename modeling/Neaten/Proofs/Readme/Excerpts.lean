import Neaten.Proofs.Text.Pieces
import Neaten.Readme.EntryPoint

/-! # What an excerpt leaves out

    A text is shown by its first lines, and three dots below them are to say that
    there is more.  The lines are counted by the line breaks between them, so
    behind a break at the end of the text there is one more line, with nothing on
    it.

    This makes a difference for a single kind of text: of exactly so many lines as
    are shown, each of them ended by a line break, nothing but the last break is
    left out, and the dots are there all the same. -/

namespace Neaten.Readme

variable {content front : Text}

/-! ## Short texts and long ones -/

/-- A text of so many lines or fewer is shown as it is. -/
theorem excerpt_of_lt (h : content.count '\n' < excerptLines) : excerpt content = content := by
  have hlength : (Text.split '\n' content).length ≤ excerptLines := by
    rw [Text.length_split]
    omega
  show ['\n'].intercalate ((Text.split '\n' content).take excerptLines) ++ _ = content
  rw [List.take_of_length_le hlength, Text.intercalate_split, if_neg (by omega)]
  exact List.append_nil content

/-- Of any other text the first lines are shown, with the dots. -/
theorem excerpt_append_cons (h : front.count '\n' + 1 = excerptLines) (rest : Text) :
    excerpt (front ++ '\n' :: rest) = front ++ ("\n..." : Text) := by
  have hfront : (Text.split '\n' front).length = excerptLines := by
    rw [Text.length_split, h]
  have hrest : 0 < (Text.split '\n' rest).length :=
    List.length_pos_iff.mpr (Text.split_ne_nil '\n' rest)
  have hmore : (Text.split '\n' front ++ Text.split '\n' rest).length > excerptLines := by
    rw [List.length_append]
    omega
  unfold excerpt
  dsimp only
  rw [Text.split_append_cons, if_pos hmore, List.take_left' hfront, Text.intercalate_split]

/-- These are all the texts there are. -/
theorem excerpt_eq_or (content : Text) :
    (content.count '\n' < excerptLines ∧ excerpt content = content) ∨
      ∃ front rest, content = front ++ '\n' :: rest ∧ front.count '\n' + 1 = excerptLines ∧
        excerpt content = front ++ ("\n..." : Text) := by
  by_cases hshort : content.count '\n' < excerptLines
  · exact .inl ⟨hshort, excerpt_of_lt hshort⟩
  · have hpos : 0 < excerptLines := by decide
    have hcount : excerptLines - 1 < content.count '\n' := by omega
    obtain ⟨front, rest, rfl, hfront⟩ := Text.exists_eq_append_of_lt_count hcount
    have hlines : front.count '\n' + 1 = excerptLines := by omega
    exact .inr ⟨front, rest, rfl, hlines, excerpt_append_cons hlines rest⟩

/-! ## Dots that stand for something -/

/-- What an excerpt is meant to be: the text itself, or its first lines with three
    dots below them, if something comes after these lines. -/
def IsFaithful (content shown : Text) : Prop :=
  shown = content ∨
    ∃ front rest, content = front ++ '\n' :: rest ∧ front.count '\n' + 1 = excerptLines ∧
      rest ≠ [] ∧ shown = front ++ ("\n..." : Text)

/-- The dots stand for nothing below lines that are all there is. -/
theorem not_isFaithful_concat (h : front.count '\n' + 1 = excerptLines) :
    ¬ IsFaithful (front ++ ['\n']) (excerpt (front ++ ['\n'])) := by
  rw [excerpt_append_cons h []]
  intro hfaithful
  rcases hfaithful with hsame | ⟨other, rest, hcontent, -, hrest, hshown⟩
  · have hdots : ("\n..." : Text) = ['\n'] := List.append_cancel_left hsame
    exact absurd hdots (by decide)
  · -- What is shown says which lines these are, so nothing comes after them.
    obtain rfl : front = other := List.append_cancel_right hshown
    have hnothing : ['\n'] = '\n' :: rest := List.append_cancel_left hcontent
    exact hrest (List.cons.inj hnothing).2.symm

/-- The texts of just so many lines, each ended by a line break. -/
theorem exists_eq_concat_iff :
    (∃ front : Text, content = front ++ ['\n'] ∧ front.count '\n' + 1 = excerptLines) ↔
      content.count '\n' = excerptLines ∧ content.getLast? = some '\n' := by
  constructor
  · intro h
    obtain ⟨front, rfl, hfront⟩ := h
    refine ⟨?_, List.getLast?_concat⟩
    rw [List.count_append, List.count_singleton_self, hfront]
  · intro h
    obtain ⟨hcount, hlast⟩ := h
    obtain ⟨front, rfl⟩ := List.getLast?_eq_some_iff.mp hlast
    rw [List.count_append, List.count_singleton_self] at hcount
    exact ⟨front, rfl, hcount⟩

/-- Of those alone the excerpt is not what it is meant to be. -/
theorem isFaithful_excerpt_iff (content : Text) :
    IsFaithful content (excerpt content) ↔
      ¬ (content.count '\n' = excerptLines ∧ content.getLast? = some '\n') := by
  rw [← exists_eq_concat_iff]
  constructor
  · intro hfaithful hten
    obtain ⟨front, rfl, hlines⟩ := hten
    exact not_isFaithful_concat hlines hfaithful
  · intro hnot
    rcases excerpt_eq_or content with ⟨-, hshown⟩ | ⟨front, rest, rfl, hlines, hshown⟩
    · exact .inl hshown
    · refine .inr ⟨front, rest, rfl, hlines, ?_, hshown⟩
      intro hrest
      subst hrest
      exact hnot ⟨front, rfl, hlines⟩

/-- **When an excerpt is marked.**  A text with fewer line breaks than lines are
    shown is shown as it is; of any other text the first lines are shown and
    marked, whatever comes after the break that ends the last of them.  So an
    excerpt is what it is meant to be unless the text is exactly so many lines,
    each ended by a line break: then nothing comes after them. -/
theorem excerpt_isFaithful_iff (content : Text) :
    (content.count '\n' < excerptLines ∧ excerpt content = content ∨
      ∃ front rest, content = front ++ '\n' :: rest ∧ front.count '\n' + 1 = excerptLines ∧
        excerpt content = front ++ ("\n..." : Text)) ∧
    (IsFaithful content (excerpt content) ↔
      ¬ (content.count '\n' = excerptLines ∧ content.getLast? = some '\n')) :=
  ⟨excerpt_eq_or content, isFaithful_excerpt_iff content⟩

/-- Ten lines, each ended by a line break, are shown with dots below them. -/
theorem not_forall_isFaithful : ¬ ∀ content, IsFaithful content (excerpt content) := by
  intro h
  have hlines : ("0\n1\n2\n3\n4\n5\n6\n7\n8\n9" : Text).count '\n' + 1 = excerptLines := by decide
  exact not_isFaithful_concat hlines (h _)

end Neaten.Readme
