import Mathlib.Data.List.Forall2
import Neaten.Proofs.Layout.CodeLines

/-! # Laying out keeps the code and indents it

    Whatever becomes of a text, the characters that are not blank stay the same
    and in the same order.  A text that is laid out has a line for each of its
    lines that is not blank: that line trimmed, behind as many units as the rule
    of the style counts on it, and behind none if the count is negative.

    So there are no blank lines in what comes out, no blanks at the end of a
    line and no line break at the end. -/

namespace Neaten

/-! ## What the rules count -/

namespace Style

/-- What the rule of a style counts on a line: the opening braces less the
    closing ones, of which there may be more, or the colons, or nothing. -/
def count : Style → Text → Int
  | braceDepth _, line => (line.count '{' : Int) - line.count '}'
  | colonCount _, line => line.count ':'
  | flat, _ => 0

/-- The level that a line asks for is the count, unless that is negative. -/
theorem natCast_level (s : Style) (line : Text) : (s.level line : Int) = max 0 (s.count line) := by
  cases s with
  | braceDepth indent =>
    rw [level, braceBalance, count, Int.toNat_eq_max]
    exact Int.max_comm _ _
  | colonCount indent =>
    rw [level, Neaten.colonCount, count]
    exact (Int.max_eq_right (Int.natCast_nonneg _)).symm
  | flat => rfl

/-- Blanks around a line do not count. -/
theorem count_trim (s : Style) (line : Text) : s.count (Text.trim line) = s.count line := by
  cases s with
  | braceDepth indent =>
    rw [count, count, Text.count_trim (by decide), Text.count_trim (by decide)]
  | colonCount indent =>
    rw [count, count, Text.count_trim (by decide)]
  | flat => rfl

/-- A line is laid out as another one: trimmed, behind a unit for each that the
    rule counts on it. -/
def LaysOutAs (s : Style) (raw line : Text) : Prop :=
  ∃ depth : Nat, (depth : Int) = max 0 (s.count raw) ∧
    line = (List.replicate depth s.unit).flatten ++ Text.trim raw

theorem laysOutAs_indented (s : Style) (raw : Text) :
    s.LaysOutAs raw (s.indented (Text.trim raw)) := by
  refine ⟨s.level (Text.trim raw), ?_, rfl⟩
  rw [natCast_level, count_trim]

end Style

namespace Layout

/-! ## Characters that are not blank -/

/-- Line breaks are blank, so the lines of a text have all that is not. -/
theorem visible_intercalate (pieces : List Text) :
    Text.visible (['\n'].intercalate pieces) = pieces.flatMap Text.visible := by
  induction pieces with
  | nil => rfl
  | cons piece rest ih =>
    cases rest with
    | nil => simp [List.intercalate]
    | cons next more =>
      rw [Path.intercalate_cons_cons, List.flatMap_cons, ← ih]
      show Text.visible (piece ++ (['\n'] ++ ['\n'].intercalate (next :: more))) = _
      rw [Text.visible_append, Text.visible_append]
      rfl

/-- What is left out of the lines of code is blank. -/
theorem flatMap_visible_codeOf (raws : List Text) :
    (codeOf raws).flatMap Text.visible = raws.flatMap Text.visible := by
  induction raws with
  | nil => rfl
  | cons raw rest ih =>
    rw [List.flatMap_cons, ← ih]
    by_cases hblank : Text.trim raw = []
    · have hnothing : Text.visible raw = [] :=
        Text.visible_eq_nil_iff.mpr ((Text.trim_eq_nil_iff raw).mp hblank)
      rw [codeOf_cons_blank hblank, hnothing, List.nil_append]
    · rw [codeOf_cons hblank, List.flatMap_cons, Text.visible_trim]

theorem flatMap_visible_codeLines (t : Text) :
    (codeLines t).flatMap Text.visible = Text.visible t := by
  rw [codeLines, flatMap_visible_codeOf, ← visible_intercalate, Text.intercalate_split]

/-! ## Lines that are not blank -/

/-- The lines of code are the lines that are not blank, trimmed. -/
theorem codeLines_eq (t : Text) :
    codeLines t = ((Text.split '\n' t).filter (!Text.allBlank ·)).map Text.trim := by
  rw [codeLines, codeOf, List.filter_map]
  congr 1
  apply List.filter_congr
  intro raw hraw
  have hblank := Text.trim_eq_nil_iff raw
  cases hall : Text.allBlank raw <;> simp_all

/-- There is no line of code just if all lines are blank. -/
theorem codeLines_eq_nil_iff (t : Text) :
    codeLines t = [] ↔ ∀ raw ∈ Text.split '\n' t, Text.allBlank raw = true := by
  rw [codeLines_eq, List.map_eq_nil_iff, List.filter_eq_nil_iff]
  simp

section

variable {s : Style} (hs : IsIndent s.unit) {limit : Nat} {t u : Text}
  (h : format s limit t = .formatted u)

include hs

/-- Indentation is blank. -/
theorem visible_indented (line : Text) : Text.visible (s.indented line) = Text.visible line := by
  have hblank : Text.visible (List.replicate (s.level line) s.unit).flatten = [] := by
    rw [Text.visible_eq_nil_iff, Text.allBlank_iff]
    exact (hs.flatten_replicate _).blank
  rw [Style.indented, Text.visible_append, hblank, List.nil_append]

/-! ## What comes out -/

/-- Laying out adds and takes away blanks alone. -/
theorem visible_text_format (limit : Nat) (t : Text) :
    Text.visible (format s limit t).text = Text.visible t := by
  cases hformat : format s limit t with
  | passedThrough text reason =>
    rw [eq_of_format_eq_passedThrough hformat]
    rfl
  | formatted u =>
    have hlines : ((codeLines t).map s.indented).flatMap Text.visible =
        (codeLines t).flatMap Text.visible := by
      rw [List.flatMap_map]
      congr 1
      funext line
      exact visible_indented hs line
    rw [Outcome.text_formatted, eq_intercalate_of_format_eq_formatted hformat,
      visible_intercalate, hlines, flatMap_visible_codeLines]

include h

/-- A line that comes out ends in a character that is not blank. -/
theorem exists_getLast?_of_mem_split (hne : codeLines t ≠ []) {line : Text}
    (hline : line ∈ Text.split '\n' u) : ∃ c, line.getLast? = some c ∧ isBlank c = false := by
  rw [split_of_format_eq_formatted hs h hne] at hline
  obtain ⟨code, hcode, rfl⟩ := List.mem_map.mp hline
  obtain ⟨hcode_ne, htrimmed, -⟩ := of_mem_codeLines hcode
  cases hlast : code.getLast? with
  | none => exact absurd (List.getLast?_eq_none_iff.mp hlast) hcode_ne
  | some c =>
    refine ⟨c, ?_, htrimmed.last c hlast⟩
    rw [Style.indented, List.getLast?_append, hlast]
    rfl

/-- Nothing comes out just if all lines are blank. -/
theorem eq_nil_iff_of_format_eq_formatted :
    u = [] ↔ ∀ raw ∈ Text.split '\n' t, Text.allBlank raw = true := by
  rw [← codeLines_eq_nil_iff]
  constructor
  · rintro rfl
    by_contra hne
    -- The empty text is one line, and every line that comes out has an end.
    obtain ⟨c, hlast, -⟩ := exists_getLast?_of_mem_split hs h hne List.mem_cons_self
    cases hlast
  · intro hnil
    rw [eq_intercalate_of_format_eq_formatted h, hnil]
    rfl

/-- The lines that come out are those that are not blank, one by one. -/
theorem forall₂_laysOutAs (hne : codeLines t ≠ []) :
    List.Forall₂ s.LaysOutAs ((Text.split '\n' t).filter (!Text.allBlank ·))
      (Text.split '\n' u) := by
  rw [split_of_format_eq_formatted hs h hne, codeLines_eq, List.map_map, List.forall₂_map_right_iff,
    List.forall₂_same]
  intro raw hraw
  exact s.laysOutAs_indented raw

theorem getLast?_ne_of_format_eq_formatted (hne : codeLines t ≠ []) : u.getLast? ≠ some '\n' := by
  intro hlast
  -- What stands after a last line break is a line without an end.
  have hpiece : Text.lastPiece '\n' u = [] := (Text.lastPiece_eq_nil_iff '\n' u).mpr (.inr hlast)
  have hmem := List.mem_of_getLast? (Text.getLast?_split '\n' u)
  obtain ⟨c, hend, -⟩ := exists_getLast?_of_mem_split hs h hne hmem
  rw [hpiece] at hend
  cases hend

end

/-! ## The theorem -/

/-- **Laying out keeps the code and indents it.**  In the style of any language
    and under any limit, the characters that are not blank stay as they are.  If
    the text is laid out, nothing comes out just if all its lines are blank.
    Otherwise each of the lines that are not blank comes out trimmed, behind as
    many units as the rule counts on it, in order; no line that comes out is
    blank or ends in a blank, and there is no line break at the end. -/
theorem format_keeps_code (l : Language) (limit : Nat) (t : Text) :
    Text.visible (format l.style limit t).text = Text.visible t ∧
    ∀ u, format l.style limit t = .formatted u →
      (u = [] ↔ ∀ raw ∈ Text.split '\n' t, Text.allBlank raw = true) ∧
      (u ≠ [] →
        List.Forall₂ l.style.LaysOutAs ((Text.split '\n' t).filter (!Text.allBlank ·))
          (Text.split '\n' u) ∧
        (∀ line ∈ Text.split '\n' u,
          Text.allBlank line = false ∧ ∀ c ∈ line.getLast?, isBlank c = false) ∧
        u.getLast? ≠ some '\n') := by
  have hindent : IsIndent l.style.unit := isIndent_unit l
  refine ⟨visible_text_format hindent limit t, ?_⟩
  intro u h
  have hnil := eq_nil_iff_of_format_eq_formatted hindent h
  refine ⟨hnil, ?_⟩
  intro hu
  have hne : codeLines t ≠ [] := by
    intro hcode
    exact hu (hnil.mpr ((codeLines_eq_nil_iff t).mp hcode))
  refine ⟨forall₂_laysOutAs hindent h hne, ?_, getLast?_ne_of_format_eq_formatted hindent h hne⟩
  intro line hline
  obtain ⟨c, hlast, hc⟩ := exists_getLast?_of_mem_split hindent h hne hline
  constructor
  · -- The last character shows that the line is not blank.
    rw [Text.allBlank, List.all_eq_false]
    exact ⟨c, List.mem_of_getLast? hlast, by rw [hc]; decide⟩
  · intro other hother
    rw [hlast] at hother
    obtain rfl := Option.some.inj hother
    exact hc

/-- Lines with many kinds of blanks, one of which closes more than it opens. -/
def withBlanks : Text := "\t\x7d \x7d\u3000\n\u00A0\r\n  if (a) \x7b \x7b\t\n\n"

/-- The same lines in the style of Java. -/
def withoutBlanks : Text := "\x7d \x7d\n        if (a) \x7b \x7b"

/-- Lines with colons, the last of which has the most. -/
def withColons : Text := "x = 1\n\tdef f(x):\u3000\n\n  return \x7b1: 2, 3: [x[::2]]\x7d\r\n"

/-- The same lines in the style of Python. -/
def byColons : Text := "x = 1\n    def f(x):\n                return \x7b1: 2, 3: [x[::2]]\x7d"

/-- In the style of Java two of five lines come out, the first without
    indentation; in that of Python each of three lines comes out behind four
    blanks for each of its colons. -/
theorem format_keeps_code_withBlanks :
    format Language.java.style 2 withBlanks = .formatted withoutBlanks ∧
      List.Forall₂ Language.java.style.LaysOutAs
        ["\t\x7d \x7d\u3000".toList, "  if (a) \x7b \x7b\t".toList]
        ["\x7d \x7d".toList, "        if (a) \x7b \x7b".toList] ∧
      format Language.python.style 4 withColons = .formatted byColons ∧
      List.Forall₂ Language.python.style.LaysOutAs
        ["x = 1".toList, "\tdef f(x):\u3000".toList, "  return \x7b1: 2, 3: [x[::2]]\x7d\r".toList]
        ["x = 1".toList, "    def f(x):".toList,
          "                return \x7b1: 2, 3: [x[::2]]\x7d".toList] := by
  have hjava : format Language.java.style 2 withBlanks = .formatted withoutBlanks := by
    decide +kernel
  have hjavaIn : (Text.split '\n' withBlanks).filter (!Text.allBlank ·) =
      ["\t\x7d \x7d\u3000".toList, "  if (a) \x7b \x7b\t".toList] := by
    decide +kernel
  have hjavaOut : Text.split '\n' withoutBlanks =
      ["\x7d \x7d".toList, "        if (a) \x7b \x7b".toList] := by
    decide +kernel
  have hpython : format Language.python.style 4 withColons = .formatted byColons := by
    decide +kernel
  have hpythonIn : (Text.split '\n' withColons).filter (!Text.allBlank ·) =
      ["x = 1".toList, "\tdef f(x):\u3000".toList,
        "  return \x7b1: 2, 3: [x[::2]]\x7d\r".toList] := by
    decide +kernel
  have hpythonOut : Text.split '\n' byColons =
      ["x = 1".toList, "    def f(x):".toList,
        "                return \x7b1: 2, 3: [x[::2]]\x7d".toList] := by
    decide +kernel
  have hjavaLines := (((format_keeps_code .java 2 _).2 _ hjava).2 (by decide +kernel)).1
  have hpythonLines := (((format_keeps_code .python 4 _).2 _ hpython).2 (by decide +kernel)).1
  rw [hjavaIn, hjavaOut] at hjavaLines
  rw [hpythonIn, hpythonOut] at hpythonLines
  exact ⟨hjava, hjavaLines, hpython, hpythonLines⟩

end Layout

end Neaten
