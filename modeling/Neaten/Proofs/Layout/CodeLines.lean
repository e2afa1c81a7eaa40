import Neaten.Language
import Neaten.Proofs.Text.Pieces
import Neaten.Proofs.Text.Trimming

/-! # Lines of code

    Of a text only its lines of code count: each line trimmed, blank ones left
    out.  The lines of code alone decide whether the text is laid out, what
    comes out, and which level was too deep if it is passed through.

    Indentation is blank, so what comes out has the same lines of code again.
    Laying it out once more, in whatever style and under whatever limit, is
    therefore the same as laying out the text it came from. -/

namespace Neaten.Layout

/-! ## Lines of code -/

/-- Some lines trimmed, blank ones left out. -/
def codeOf (raws : List Text) : List Text := (raws.map Text.trim).filter (· ≠ [])

/-- The lines of code of a text. -/
def codeLines (t : Text) : List Text := codeOf (Text.split '\n' t)

/-- The first of some lines of code that asks for a level beyond a limit. -/
def tooDeep? (s : Style) (limit : Nat) (lines : List Text) : Option Text :=
  lines.find? (limit < s.level ·)

theorem codeOf_cons_blank {raw : Text} (h : Text.trim raw = []) (rest : List Text) :
    codeOf (raw :: rest) = codeOf rest := by
  simp [codeOf, h]

theorem codeOf_cons {raw : Text} (h : Text.trim raw ≠ []) (rest : List Text) :
    codeOf (raw :: rest) = Text.trim raw :: codeOf rest := by
  simp [codeOf, h]

theorem codeOf_append (raws others : List Text) :
    codeOf (raws ++ others) = codeOf raws ++ codeOf others := by
  simp [codeOf]

/-- A line of code is not empty, is trimmed, and is a single line. -/
theorem of_mem_codeLines {t line : Text} (h : line ∈ codeLines t) :
    line ≠ [] ∧ line.IsTrimmed ∧ '\n' ∉ line := by
  obtain ⟨hline, hne⟩ := List.mem_filter.mp h
  obtain ⟨raw, hraw, rfl⟩ := List.mem_map.mp hline
  refine ⟨of_decide_eq_true hne, Text.isTrimmed_trim raw, ?_⟩
  intro hbreak
  exact Text.not_mem_of_mem_split '\n' t raw hraw ((Text.trim_sublist raw).subset hbreak)

/-! ## What laying out does to them -/

section

variable {s : Style} {limit : Nat}

/-- A line that is too deep is a reason to stop. -/
theorem reindent_cons_of_lt {raw : Text} (h : limit < s.level (Text.trim raw)) (n : Nat)
    (rest : List Text) :
    reindent s limit n (raw :: rest) = .error ⟨n, s.level (Text.trim raw), limit⟩ := by
  have hcode : Text.trim raw ≠ [] := by
    -- A blank line asks for no level.
    intro hblank
    rw [hblank, Style.level_nil] at h
    exact Nat.not_lt_zero limit h
  rw [reindent, if_neg hcode, if_pos h]

/-- Any other line is indented, or leaves no trace, and the rest goes on below. -/
theorem reindent_cons_of_le {raw : Text} (h : s.level (Text.trim raw) ≤ limit) (n : Nat)
    (rest : List Text) :
    reindent s limit n (raw :: rest) =
      ((codeOf [raw]).map s.indented ++ ·) <$> reindent s limit (n + 1) rest := by
  by_cases hblank : Text.trim raw = []
  · rw [reindent, if_pos hblank, codeOf_cons_blank hblank]
    cases reindent s limit (n + 1) rest <;> rfl
  · rw [reindent, if_neg hblank, if_neg (Nat.not_lt.mpr h), codeOf_cons hblank]
    rfl

/-- A blank line is no line of code and asks for no level, so the first of some
    lines that is too deep is the first line of code that is. -/
theorem tooDeep?_codeOf_cons (raw : Text) (rest : List Text) :
    tooDeep? s limit (codeOf (raw :: rest)) =
      if limit < s.level (Text.trim raw) then some (Text.trim raw)
      else tooDeep? s limit (codeOf rest) := by
  by_cases hblank : Text.trim raw = []
  · rw [codeOf_cons_blank hblank, hblank, Style.level_nil, if_neg (Nat.not_lt_zero limit)]
  · rw [codeOf_cons hblank]
    by_cases hlevel : limit < s.level (Text.trim raw)
    · simp [tooDeep?, hlevel]
    · simp [tooDeep?, hlevel]

/-- If no line of code is too deep, each is indented. -/
theorem reindent_of_tooDeep?_eq_none {raws : List Text} (n : Nat)
    (h : tooDeep? s limit (codeOf raws) = none) :
    reindent s limit n raws = .ok ((codeOf raws).map s.indented) := by
  induction raws generalizing n with
  | nil => rfl
  | cons raw rest ih =>
    rw [tooDeep?_codeOf_cons] at h
    by_cases hlevel : limit < s.level (Text.trim raw)
    · rw [if_pos hlevel] at h
      cases h
    · rw [if_neg hlevel] at h
      have hcode : codeOf (raw :: rest) = codeOf [raw] ++ codeOf rest := codeOf_append [raw] rest
      rw [reindent_cons_of_le (Nat.not_lt.mp hlevel), ih (n + 1) h, hcode, List.map_append]
      rfl

/-- If a line of code is too deep, the first such line is the reason to stop. -/
theorem exists_reindent_of_tooDeep?_eq_some {raws : List Text} {line : Text} (n : Nat)
    (h : tooDeep? s limit (codeOf raws) = some line) :
    ∃ place, reindent s limit n raws = .error ⟨place, s.level line, limit⟩ := by
  induction raws generalizing n with
  | nil => cases h
  | cons raw rest ih =>
    rw [tooDeep?_codeOf_cons] at h
    by_cases hlevel : limit < s.level (Text.trim raw)
    · rw [if_pos hlevel] at h
      obtain rfl : Text.trim raw = line := Option.some.inj h
      exact ⟨n, reindent_cons_of_lt hlevel n rest⟩
    · rw [if_neg hlevel] at h
      obtain ⟨place, hplace⟩ := ih (n + 1) h
      refine ⟨place, ?_⟩
      rw [reindent_cons_of_le (Nat.not_lt.mp hlevel), hplace]
      rfl

variable {t u : Text}

/-- A text without a line of code that is too deep is laid out. -/
theorem format_of_tooDeep?_eq_none (h : tooDeep? s limit (codeLines t) = none) :
    format s limit t = .formatted (['\n'].intercalate ((codeLines t).map s.indented)) := by
  rw [format, reindent_of_tooDeep?_eq_none 1 h]
  rfl

/-- A text with a line of code that is too deep is passed through. -/
theorem exists_format_of_tooDeep?_eq_some {line : Text}
    (h : tooDeep? s limit (codeLines t) = some line) :
    ∃ place, format s limit t = .passedThrough t ⟨place, s.level line, limit⟩ := by
  obtain ⟨place, hplace⟩ := exists_reindent_of_tooDeep?_eq_some 1 h
  exact ⟨place, by rw [format, hplace]⟩

/-- What is laid out is its lines of code, each indented. -/
theorem eq_intercalate_of_format_eq_formatted (h : format s limit t = .formatted u) :
    u = ['\n'].intercalate ((codeLines t).map s.indented) := by
  cases hdeep : tooDeep? s limit (codeLines t) with
  | none =>
    rw [format_of_tooDeep?_eq_none hdeep] at h
    exact (Outcome.formatted.inj h).symm
  | some line =>
    obtain ⟨place, hplace⟩ := exists_format_of_tooDeep?_eq_some hdeep
    rw [hplace] at h
    cases h

/-- What is passed through is the text as it came. -/
theorem eq_of_format_eq_passedThrough {reason : TooDeep}
    (h : format s limit t = .passedThrough u reason) : u = t := by
  cases hdeep : tooDeep? s limit (codeLines t) with
  | none =>
    rw [format_of_tooDeep?_eq_none hdeep] at h
    cases h
  | some line =>
    obtain ⟨place, hplace⟩ := exists_format_of_tooDeep?_eq_some hdeep
    rw [hplace] at h
    exact (Outcome.passedThrough.inj h).1.symm

end

/-! ## What comes out -/

/-- Indentation does not show in a trimmed line, and stays on its line. -/
structure IsIndent (unit : Text) : Prop where
  blank : ∀ c ∈ unit, isBlank c = true
  no_break : '\n' ∉ unit

theorem isIndent_unit (l : Language) : IsIndent l.style.unit := by
  have hblank : l.style.unit.all isBlank = true := by
    cases l <;> decide
  have hbreak : l.style.unit.all (· ≠ '\n') = true := by
    cases l <;> decide
  refine ⟨List.all_eq_true.mp hblank, ?_⟩
  intro hmem
  exact absurd rfl (of_decide_eq_true (List.all_eq_true.mp hbreak _ hmem))

/-- Any number of units is indentation as well. -/
theorem IsIndent.flatten_replicate {unit : Text} (h : IsIndent unit) (n : Nat) :
    IsIndent (List.replicate n unit).flatten := by
  have hmem : ∀ c ∈ (List.replicate n unit).flatten, c ∈ unit := by
    intro c hc
    obtain ⟨piece, hpiece, hin⟩ := List.mem_flatten.mp hc
    exact (List.mem_replicate.mp hpiece).2 ▸ hin
  exact ⟨fun c hc => h.blank c (hmem c hc), fun hbreak => h.no_break (hmem _ hbreak)⟩

section

variable {s : Style} (hs : IsIndent s.unit)

include hs

theorem trim_indented {line : Text} (h : line.IsTrimmed) : Text.trim (s.indented line) = line := by
  rw [Style.indented, Text.trim_append (hs.flatten_replicate _).blank, h.trim_eq]

theorem not_mem_indented {line : Text} (h : '\n' ∉ line) : '\n' ∉ s.indented line := by
  intro hmem
  rcases List.mem_append.mp hmem with hfront | hline
  · exact (hs.flatten_replicate _).no_break hfront
  · exact h hline

/-- Lines of code are their own lines of code once they are indented. -/
theorem codeOf_map_indented {lines : List Text} (h : ∀ line ∈ lines, line ≠ [] ∧ line.IsTrimmed) :
    codeOf (lines.map s.indented) = lines := by
  induction lines with
  | nil => rfl
  | cons line rest ih =>
    obtain ⟨⟨hne, htrimmed⟩, hrest⟩ := List.forall_mem_cons.mp h
    have htrim := trim_indented hs htrimmed
    rw [List.map_cons, codeOf_cons (by rw [htrim]; exact hne), htrim, ih hrest]

/-- The lines that come out are the lines of code, each indented, if there are
    any. -/
theorem split_of_format_eq_formatted {limit : Nat} {t u : Text}
    (h : format s limit t = .formatted u) (hne : codeLines t ≠ []) :
    Text.split '\n' u = (codeLines t).map s.indented := by
  rw [eq_intercalate_of_format_eq_formatted h]
  apply Text.split_intercalate (by simpa using hne)
  intro line hline
  obtain ⟨code, hcode, rfl⟩ := List.mem_map.mp hline
  exact not_mem_indented hs (of_mem_codeLines hcode).2.2

/-- **Laying out keeps the lines of code.** -/
theorem codeLines_of_format_eq_formatted {limit : Nat} {t u : Text}
    (h : format s limit t = .formatted u) : codeLines u = codeLines t := by
  by_cases hnil : codeLines t = []
  · -- Nothing comes out, and that is one line, which is blank.
    rw [eq_intercalate_of_format_eq_formatted h, hnil]
    rfl
  · rw [codeLines, split_of_format_eq_formatted hs h hnil]
    refine codeOf_map_indented hs fun line hline => ?_
    exact ⟨(of_mem_codeLines hline).1, (of_mem_codeLines hline).2.1⟩

end

/-! ## Laying out once more -/

section

variable {s : Style} {limit : Nat} {t u : Text}

/-- Texts with the same lines of code are laid out alike. -/
theorem format_eq_formatted_congr (h : codeLines u = codeLines t) (v : Text) :
    format s limit u = .formatted v ↔ format s limit t = .formatted v := by
  cases hdeep : tooDeep? s limit (codeLines t) with
  | none =>
    rw [format_of_tooDeep?_eq_none hdeep, format_of_tooDeep?_eq_none (h ▸ hdeep), h]
  | some line =>
    obtain ⟨place, hplace⟩ := exists_format_of_tooDeep?_eq_some hdeep
    obtain ⟨other, hother⟩ := exists_format_of_tooDeep?_eq_some (h ▸ hdeep)
    rw [hplace, hother]
    constructor <;> intro hformatted <;> cases hformatted

/-- A text is passed through at a level just if its first line of code that is
    too deep asks for that level. -/
theorem exists_passedThrough_iff (level bound : Nat) :
    (∃ place, format s limit t = .passedThrough t ⟨place, level, bound⟩) ↔
      (tooDeep? s limit (codeLines t)).map s.level = some level ∧ limit = bound := by
  cases hdeep : tooDeep? s limit (codeLines t) with
  | none => simp [format_of_tooDeep?_eq_none hdeep]
  | some line =>
    obtain ⟨place, hplace⟩ := exists_format_of_tooDeep?_eq_some hdeep
    simp [hplace]

end

/-- **Laying out composes.**  Once a text is laid out in the style of some
    language, laying out the result in the style of any language and under any
    limit gives what the text itself gives: the same result, or both are passed
    through for a level and limit that are the same.  In the same style and
    under the same limit nothing changes any more. -/
theorem format_format (l₁ l₂ : Language) (m₁ m₂ : Nat) (t u : Text)
    (h : format l₁.style m₁ t = .formatted u) :
    (∀ v, format l₂.style m₂ u = .formatted v ↔ format l₂.style m₂ t = .formatted v) ∧
    (∀ level limit,
      (∃ place, format l₂.style m₂ u = .passedThrough u ⟨place, level, limit⟩) ↔
        ∃ place, format l₂.style m₂ t = .passedThrough t ⟨place, level, limit⟩) ∧
    format l₁.style m₁ u = .formatted u := by
  have hcode : codeLines u = codeLines t := codeLines_of_format_eq_formatted (isIndent_unit l₁) h
  refine ⟨format_eq_formatted_congr hcode, ?_, (format_eq_formatted_congr hcode u).mpr h⟩
  intro level limit
  rw [exists_passedThrough_iff, exists_passedThrough_iff, hcode]

/-- Lines that end in carriage returns, one of them blank. -/
def withReturns : Text := "f \x7b\r\n \r\n  a: b: c \r\n"

/-- The same lines in the style of JavaScript. -/
def withoutReturns : Text := "  f \x7b\na: b: c"

/-- In the style of Python the last line is too deep, before as after. -/
theorem format_format_withReturns :
    format Language.javaScript.style 1 withReturns = .formatted withoutReturns ∧
      ∃ place, format Language.python.style 1 withoutReturns =
        .passedThrough withoutReturns ⟨place, 2, 1⟩ := by
  have h : format Language.javaScript.style 1 withReturns = .formatted withoutReturns := by
    decide
  have hdeep := (format_format .javaScript .python 1 1 _ _ h).2.1 2 1
  exact ⟨h, hdeep.mpr ⟨3, by decide⟩⟩

end Neaten.Layout
