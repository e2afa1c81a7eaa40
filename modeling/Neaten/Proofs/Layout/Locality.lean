import Neaten.Proofs.Layout.CodeLines

/-! # Laying out is local to lines

    Nothing is carried from one line to the next:

    * lines that follow others are laid out as if they stood alone, and a reason
      to stop among them only moves down by the number of lines above;
    * a reason to stop among the lines above comes first.

    So a text can be cut at any of its line breaks, and what the two parts give
    on their own decides what the text gives. -/

namespace Neaten.Layout

/-! ## Lines below others -/

/-- The same reason to stop, so many lines further down. -/
def TooDeep.down (reason : TooDeep) (lines : Nat) : TooDeep :=
  { reason with line := reason.line + lines }

section

variable {s : Style} {limit : Nat}

/-- Where the lines are counted from shows in the number of a line alone. -/
theorem reindent_add (n lines : Nat) (raws : List Text) :
    reindent s limit (n + lines) raws = (reindent s limit n raws).mapError (·.down lines) := by
  induction raws generalizing n with
  | nil => rfl
  | cons raw rest ih =>
    by_cases hlevel : limit < s.level (Text.trim raw)
    · rw [reindent_cons_of_lt hlevel, reindent_cons_of_lt hlevel]
      rfl
    · have hfine : s.level (Text.trim raw) ≤ limit := Nat.not_lt.mp hlevel
      rw [reindent_cons_of_le hfine, reindent_cons_of_le hfine, Nat.add_right_comm, ih]
      cases reindent s limit (n + 1) rest <;> rfl

/-- **Lines are laid out one after the other**: first those above, and if none
    of them is too deep those below. -/
theorem reindent_append (n : Nat) (upper lower : List Text) :
    reindent s limit n (upper ++ lower) =
      match reindent s limit n upper with
      | .error reason => .error reason
      | .ok above => (above ++ ·) <$> reindent s limit (n + upper.length) lower := by
  induction upper generalizing n with
  | nil =>
    show reindent s limit n lower = ([] ++ ·) <$> reindent s limit n lower
    cases reindent s limit n lower <;> rfl
  | cons raw rest ih =>
    rw [List.cons_append]
    by_cases hlevel : limit < s.level (Text.trim raw)
    · rw [reindent_cons_of_lt hlevel, reindent_cons_of_lt hlevel]
    · have hfine : s.level (Text.trim raw) ≤ limit := Nat.not_lt.mp hlevel
      have hlength : n + (raw :: rest).length = n + 1 + rest.length := by
        simp only [List.length_cons]
        omega
      rw [reindent_cons_of_le hfine, reindent_cons_of_le hfine, ih, hlength]
      cases reindent s limit (n + 1) rest with
      | error reason => rfl
      | ok above =>
        cases reindent s limit (n + 1 + rest.length) lower with
        | error reason => rfl
        | ok below => exact congrArg Except.ok (List.append_assoc _ above below).symm

end

/-! ## A text below another -/

/-- A text that was laid out below another one.  An empty one takes no line. -/
def stack (upper lower : Text) : Text :=
  if upper = [] then lower
  else if lower = [] then upper
  else upper ++ '\n' :: lower

/-- Lines that are not empty, one below the other. -/
theorem intercalate_append_eq_stack {upper lower : List Text}
    (hupper : ∀ line ∈ upper, line ≠ []) (hlower : ∀ line ∈ lower, line ≠ []) :
    ['\n'].intercalate (upper ++ lower) =
      stack (['\n'].intercalate upper) (['\n'].intercalate lower) := by
  have hnoUpper : ['\n'].intercalate upper = [] ↔ upper = [] := Text.intercalate_eq_nil_iff hupper
  have hnoLower : ['\n'].intercalate lower = [] ↔ lower = [] := Text.intercalate_eq_nil_iff hlower
  by_cases hu : upper = []
  · simp [stack, hu, List.intercalate]
  · by_cases hl : lower = []
    · simp [stack, hu, hl, hnoUpper]
    · rw [Text.intercalate_append '\n' hu hl]
      simp [stack, hnoUpper, hnoLower, hu, hl]

/-- A line of code is not empty behind its indentation. -/
theorem ne_nil_of_mem_map_indented {s : Style} {t line : Text}
    (h : line ∈ (codeLines t).map s.indented) : line ≠ [] := by
  obtain ⟨code, hcode, rfl⟩ := List.mem_map.mp h
  have hne : code ≠ [] := (of_mem_codeLines hcode).1
  simp [Style.indented, hne]

theorem codeLines_append_break (a b : Text) :
    codeLines (a ++ '\n' :: b) = codeLines a ++ codeLines b := by
  rw [codeLines, Text.split_append_cons, codeOf_append, codeLines, codeLines]

/-- Lines that are laid out above and below a line break give a text below
    another. -/
theorem format_append_break_of_formatted {s : Style} {limit : Nat} {a b u v w : Text}
    (ha : format s limit a = .formatted u) (hb : format s limit b = .formatted v)
    (h : format s limit (a ++ '\n' :: b) = .formatted w) : w = stack u v := by
  rw [eq_intercalate_of_format_eq_formatted h, eq_intercalate_of_format_eq_formatted ha,
    eq_intercalate_of_format_eq_formatted hb, codeLines_append_break, List.map_append]
  apply intercalate_append_eq_stack
  · intro line hline
    exact ne_nil_of_mem_map_indented hline
  · intro line hline
    exact ne_nil_of_mem_map_indented hline

/-- **Laying out is local to lines**: what becomes of two texts with a line
    break between them follows from what becomes of each.  If the first alone is
    passed through, all is, for the same reason.  If only the second is, all is
    for its reason, as many lines further down as the first text has.  Otherwise
    one result stands below the other. -/
theorem format_append_break (s : Style) (limit : Nat) (a b : Text) :
    format s limit (a ++ '\n' :: b) =
      match format s limit a, format s limit b with
      | .passedThrough _ reason, _ => .passedThrough (a ++ '\n' :: b) reason
      | .formatted _, .passedThrough _ reason =>
        .passedThrough (a ++ '\n' :: b)
          { reason with line := reason.line + 1 + a.count '\n' }
      | .formatted u, .formatted v => .formatted (stack u v) := by
  have hlines : Text.split '\n' (a ++ '\n' :: b) = Text.split '\n' a ++ Text.split '\n' b :=
    Text.split_append_cons '\n' a b
  have hwhole := @reindent_append s limit 1 (Text.split '\n' a) (Text.split '\n' b)
  rw [← hlines, Text.length_split, reindent_add] at hwhole
  cases hupper : reindent s limit 1 (Text.split '\n' a) with
  | error reason =>
    have ha : format s limit a = .passedThrough a reason := by rw [format, hupper]
    rw [hupper] at hwhole
    rw [format, hwhole, ha]
  | ok above =>
    have ha : format s limit a = .formatted (['\n'].intercalate above) := by rw [format, hupper]
    cases hlower : reindent s limit 1 (Text.split '\n' b) with
    | error reason =>
      have hb : format s limit b = .passedThrough b reason := by rw [format, hlower]
      -- The lines of the first text come before the break and the second one.
      have hdown : reason.down (a.count '\n' + 1) =
          { reason with line := reason.line + 1 + a.count '\n' } := by
        rw [TooDeep.down, Nat.add_comm _ 1, Nat.add_assoc]
      rw [hupper, hlower] at hwhole
      rw [ha, hb, format, hwhole]
      show Outcome.passedThrough _ (reason.down (a.count '\n' + 1)) = _
      rw [hdown]
    | ok below =>
      have hb : format s limit b = .formatted (['\n'].intercalate below) := by rw [format, hlower]
      have h : format s limit (a ++ '\n' :: b) =
          .formatted (['\n'].intercalate (above ++ below)) := by
        rw [hupper, hlower] at hwhole
        rw [format, hwhole]
        rfl
      rw [ha, hb, h, format_append_break_of_formatted ha hb h]

end Neaten.Layout
