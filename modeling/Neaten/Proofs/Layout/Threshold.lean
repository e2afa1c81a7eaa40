import Mathlib.Order.Bounds.Defs
import Neaten.Proofs.Layout.Indentation

/-! # The limit of a line's level

    A text is passed through just if the rule of the style counts more on one of
    its lines than the limit allows.  The reason is the first such line.  It is
    numbered among all lines of the text: a blank line asks for no level, but it
    has a number.

    A limit decides nothing else, so a larger one makes no difference to a text
    that is laid out already. -/

namespace Neaten.Layout

/-! ## Lines that are too deep -/

/-- A line is too deep for a limit: the rule of the style counts more on it,
    once it is trimmed. -/
def IsTooDeep (s : Style) (limit : Nat) (raw : Text) : Prop :=
  (limit : Int) < s.count (Text.trim raw)

instance (s : Style) (limit : Nat) (raw : Text) : Decidable (IsTooDeep s limit raw) :=
  inferInstanceAs (Decidable (_ < _))

section

variable {s : Style} {limit : Nat}

/-- A count below zero is beyond no limit, and neither is the level it gives. -/
theorem isTooDeep_iff (raw : Text) : IsTooDeep s limit raw ↔ limit < s.level (Text.trim raw) := by
  have hlevel := s.natCast_level (Text.trim raw)
  unfold IsTooDeep
  omega

theorem not_isTooDeep_iff (raw : Text) :
    ¬ IsTooDeep s limit raw ↔ s.level (Text.trim raw) ≤ limit := by
  rw [isTooDeep_iff, Nat.not_lt]

/-- On a line that is too deep the rule counts what the line asks for. -/
theorem IsTooDeep.natCast_level {raw : Text} (h : IsTooDeep s limit raw) :
    (s.level (Text.trim raw) : Int) = s.count (Text.trim raw) := by
  have hlevel := s.natCast_level (Text.trim raw)
  unfold IsTooDeep at h
  omega

theorem IsTooDeep.of_le {larger : Nat} (hle : limit ≤ larger) {raw : Text}
    (h : IsTooDeep s larger raw) : IsTooDeep s limit raw := by
  unfold IsTooDeep at h ⊢
  omega

/-- **Laying out stops at the first line that is too deep**, and nowhere else. -/
theorem reindent_eq_error_iff {raws : List Text} {reason : TooDeep} (n : Nat) :
    reindent s limit n raws = .error reason ↔
      ∃ front raw back, raws = front ++ raw :: back ∧
        (∀ line ∈ front, ¬ IsTooDeep s limit line) ∧ IsTooDeep s limit raw ∧
        reason = ⟨n + front.length, s.level (Text.trim raw), limit⟩ := by
  constructor
  · intro h
    induction raws generalizing n with
    | nil => cases h
    | cons raw rest ih =>
      by_cases hdeep : IsTooDeep s limit raw
      · rw [reindent_cons_of_lt ((isTooDeep_iff raw).mp hdeep)] at h
        exact ⟨[], raw, rest, rfl, by simp, hdeep, (Except.error.inj h).symm⟩
      · rw [reindent_cons_of_le ((not_isTooDeep_iff raw).mp hdeep)] at h
        -- The reason lies in the rest, whose first line has the next number.
        cases hrest : reindent s limit (n + 1) rest with
        | ok lines =>
          rw [hrest] at h
          cases h
        | error other =>
          rw [hrest] at h
          obtain rfl : other = reason := Except.error.inj h
          obtain ⟨front, deep, back, rfl, hfront, hfirst, rfl⟩ := ih (n + 1) hrest
          refine ⟨raw :: front, deep, back, rfl, ?_, hfirst, ?_⟩
          · exact List.forall_mem_cons.mpr ⟨hdeep, hfront⟩
          · rw [List.length_cons, Nat.add_assoc, Nat.add_comm 1]
  · rintro ⟨front, raw, back, rfl, hfront, hraw, rfl⟩
    induction front generalizing n with
    | nil => exact reindent_cons_of_lt ((isTooDeep_iff raw).mp hraw) n back
    | cons line front ih =>
      obtain ⟨hline, hrest⟩ := List.forall_mem_cons.mp hfront
      have hfine : s.level (Text.trim line) ≤ limit := (not_isTooDeep_iff line).mp hline
      rw [List.cons_append, reindent_cons_of_le hfine, ih (n + 1) hrest, List.length_cons,
        Nat.add_assoc, Nat.add_comm 1]
      rfl

/-! ## Texts that are passed through -/

variable {t u : Text}

/-- What is passed through is the text itself, because of the first of its lines
    that is too deep. -/
theorem format_eq_passedThrough_iff {reason : TooDeep} :
    format s limit t = .passedThrough u reason ↔
      u = t ∧ ∃ front raw back, Text.split '\n' t = front ++ raw :: back ∧
        (∀ line ∈ front, ¬ IsTooDeep s limit line) ∧ IsTooDeep s limit raw ∧
        reason = ⟨1 + front.length, s.level (Text.trim raw), limit⟩ := by
  rw [← reindent_eq_error_iff, format]
  cases reindent s limit 1 (Text.split '\n' t) with
  | ok lines => simp
  | error other => simp [eq_comm]

/-- A text is passed through just if some line is too deep. -/
theorem exists_format_eq_passedThrough_iff :
    (∃ v reason, format s limit t = .passedThrough v reason) ↔
      ∃ raw ∈ Text.split '\n' t, IsTooDeep s limit raw := by
  constructor
  · rintro ⟨v, reason, h⟩
    obtain ⟨-, front, raw, back, hlines, -, hraw, -⟩ := format_eq_passedThrough_iff.mp h
    refine ⟨raw, ?_, hraw⟩
    rw [hlines]
    exact List.mem_append_cons_self
  · rintro ⟨raw, hmem, hraw⟩
    -- If some line is too deep, one of them comes first.
    have hsome : ((Text.split '\n' t).find? (IsTooDeep s limit ·)).isSome := by
      rw [List.find?_isSome]
      exact ⟨raw, hmem, decide_eq_true hraw⟩
    obtain ⟨first, hfirst⟩ := Option.isSome_iff_exists.mp hsome
    obtain ⟨hdeep, front, back, hlines, hfront⟩ := List.find?_eq_some_iff_append.mp hfirst
    refine ⟨t, _, format_eq_passedThrough_iff.mpr ⟨rfl, front, first, back, hlines, ?_, ?_, rfl⟩⟩
    · intro line hline
      have hnot := hfront line hline
      simpa using hnot
    · exact of_decide_eq_true hdeep

/-- A text that is laid out is laid out alike under a larger limit. -/
theorem format_eq_formatted_of_le {larger : Nat} (hle : limit ≤ larger)
    (h : format s limit t = .formatted u) : format s larger t = .formatted u := by
  cases hlarger : format s larger t with
  | passedThrough v reason =>
    obtain ⟨raw, hmem, hdeep⟩ := exists_format_eq_passedThrough_iff.mp ⟨v, reason, hlarger⟩
    obtain ⟨w, other, hpassed⟩ :=
      exists_format_eq_passedThrough_iff.mpr ⟨raw, hmem, hdeep.of_le hle⟩
    rw [hpassed] at h
    cases h
  | formatted v =>
    rw [eq_intercalate_of_format_eq_formatted hlarger, eq_intercalate_of_format_eq_formatted h]

/-! ## Numbers of lines -/

/-- The line of a text that has a number, from one, blank lines counted. -/
def line? (t : Text) : Nat → Option Text
  | 0 => none
  | n + 1 => (Text.split '\n' t)[n]?

/-- The lines above are counted first. -/
theorem mem_line?_of_split_eq {front back : List Text} {raw : Text}
    (hlines : Text.split '\n' t = front ++ raw :: back) : raw ∈ line? t (1 + front.length) := by
  rw [Nat.add_comm]
  simp [line?, hlines]

/-- The first line that is too deep has the smallest number. -/
theorem isLeast_of_split_eq {front back : List Text} {raw : Text}
    (hlines : Text.split '\n' t = front ++ raw :: back)
    (hfront : ∀ line ∈ front, ¬ IsTooDeep s limit line) (hraw : IsTooDeep s limit raw) :
    IsLeast {n | ∃ line ∈ line? t n, IsTooDeep s limit line} (1 + front.length) := by
  constructor
  · exact ⟨raw, mem_line?_of_split_eq hlines, hraw⟩
  · intro n hn
    obtain ⟨line, hline, hdeep⟩ := hn
    by_contra hlt
    cases n with
    | zero => cases hline
    | succ k =>
      have hk : k < front.length := by omega
      rw [Option.mem_def, line?, hlines, List.getElem?_append_left hk] at hline
      exact hfront line (List.mem_of_getElem? hline) hdeep

end

/-! ## The theorem -/

/-- **The limit is exact.**  A text is passed through just if some line is too
    deep.  Then it comes back as it is, and the reason gives the number of the
    first line that is too deep, what the rule counts on it, and the limit.  So a
    text that is laid out is laid out alike under every larger limit, and the
    style without indentation passes nothing through. -/
theorem format_threshold (s : Style) (limit : Nat) (t : Text) :
    ((∃ u reason, format s limit t = .passedThrough u reason) ↔
      ∃ raw ∈ Text.split '\n' t, IsTooDeep s limit raw) ∧
    (∀ u reason, format s limit t = .passedThrough u reason →
      u = t ∧
      IsLeast {n | ∃ raw ∈ line? t n, IsTooDeep s limit raw} reason.line ∧
      (∃ raw ∈ line? t reason.line, (reason.level : Int) = s.count (Text.trim raw)) ∧
      reason.limit = limit) ∧
    (∀ u, format s limit t = .formatted u →
      ∀ larger, limit ≤ larger → format s larger t = .formatted u) ∧
    ∃ u, format .flat limit t = .formatted u := by
  refine ⟨exists_format_eq_passedThrough_iff, ?_, ?_, ?_⟩
  · intro u reason h
    obtain ⟨hu, front, raw, back, hlines, hfront, hraw, rfl⟩ := format_eq_passedThrough_iff.mp h
    have hline : raw ∈ line? t (1 + front.length) := mem_line?_of_split_eq hlines
    exact ⟨hu, isLeast_of_split_eq hlines hfront hraw, ⟨raw, hline, hraw.natCast_level⟩, rfl⟩
  · intro u h larger hle
    exact format_eq_formatted_of_le hle h
  · cases hflat : format .flat limit t with
    | formatted u => exact ⟨u, rfl⟩
    | passedThrough u reason =>
      obtain ⟨raw, -, hdeep⟩ := exists_format_eq_passedThrough_iff.mp ⟨u, reason, hflat⟩
      -- The style counts nothing on any line.
      have hnothing : (limit : Int) < 0 := hdeep
      omega

/-- Lines of which the third is the first that is too deep for one level. -/
def deepening : Text := "\x7d\x7d \x7d\n\t\n a \x7b\x7b\r\n\x7b\x7b\x7b"

/-- Lines whose colons are what makes the second of them too deep. -/
def slicing : Text := "if x: \x7b\x7b\x7b\n x[::2]\nz: w: v: u"

/-- Under one level the third line is the reason, the blank one counted; three
    levels are enough for all lines, and so is every number beyond.  Where colons
    are counted, braces make no line too deep. -/
theorem format_threshold_deepening :
    format (.braceDepth ">") 1 deepening = .passedThrough deepening ⟨3, 2, 1⟩ ∧
      IsLeast {n | ∃ raw ∈ line? deepening n, IsTooDeep (.braceDepth ">") 1 raw} 3 ∧
      format (.braceDepth ">") 3 deepening =
        .formatted "\x7d\x7d \x7d\n>>a \x7b\x7b\n>>>\x7b\x7b\x7b" ∧
      format (.braceDepth ">") (UInt64.size - 1) deepening =
        .formatted "\x7d\x7d \x7d\n>>a \x7b\x7b\n>>>\x7b\x7b\x7b" ∧
      format Language.python.style 1 slicing = .passedThrough slicing ⟨2, 2, 1⟩ ∧
      IsLeast {n | ∃ raw ∈ line? slicing n, IsTooDeep Language.python.style 1 raw} 2 := by
  have hdeep : format (.braceDepth ">") 1 deepening = .passedThrough deepening ⟨3, 2, 1⟩ := by
    decide
  have hfine : format (.braceDepth ">") 3 deepening =
      .formatted "\x7d\x7d \x7d\n>>a \x7b\x7b\n>>>\x7b\x7b\x7b" := by
    decide
  have hcolons : format Language.python.style 1 slicing = .passedThrough slicing ⟨2, 2, 1⟩ := by
    decide
  refine ⟨hdeep, ((format_threshold _ 1 deepening).2.1 _ _ hdeep).2.1, hfine, ?_, hcolons,
    ((format_threshold _ 1 slicing).2.1 _ _ hcolons).2.1⟩
  exact (format_threshold _ 3 deepening).2.2.1 _ hfine (UInt64.size - 1) (by decide)

end Neaten.Layout
