import Mathlib.Data.List.Perm.Subperm
import Neaten.Proofs.List.FirstAppearance
import Neaten.Readme.Contents

/-! # What the statistics count

    Files are counted one after another.  A label that has come up already has a
    line, and the number on that line goes up by one; a new label gets a line of
    its own below the others.

    The list of lines is searched and changed while it grows.  No label has two
    lines, so what is found first is all there is about a label, and every file
    is counted on exactly one line. -/

namespace Neaten.Readme

/-- The number that stands on the line of a label, or zero if it has none. -/
def countOf (label : Text) : List LabelCount → Nat
  | [] => 0
  | entry :: rest => if entry.label = label then entry.count else countOf label rest

/-! ## One more file -/

/-- A new label comes last, and a known one stays where it is. -/
theorem labels_tally (label : Text) (counts : List LabelCount) :
    labels (tally label counts) =
      if label ∈ labels counts then labels counts else labels counts ++ [label] := by
  induction counts with
  | nil => simp [tally, labels]
  | cons entry rest ih =>
    unfold labels at ih ⊢
    by_cases h : entry.label = label
    · simp [tally, h]
    · have hne : label ≠ entry.label := Ne.symm h
      by_cases hmem : label ∈ rest.map (·.label)
      · rw [if_pos hmem] at ih
        rw [tally, if_neg h, List.map_cons, ih, List.map_cons,
          if_pos (List.mem_cons_of_mem _ hmem)]
      · rw [if_neg hmem] at ih
        have hnot : label ∉ entry.label :: rest.map (·.label) := by
          intro hin
          rcases List.mem_cons.mp hin with heq | hrest
          · exact hne heq
          · exact hmem hrest
        rw [tally, if_neg h, List.map_cons, ih, List.map_cons, if_neg hnot, List.cons_append]

/-- The number of one label goes up, and that of no other. -/
theorem countOf_tally (label other : Text) (counts : List LabelCount) :
    countOf other (tally label counts) =
      countOf other counts + if label = other then 1 else 0 := by
  induction counts with
  | nil => simp [tally, countOf]
  | cons entry rest ih =>
    by_cases h : entry.label = label
    · -- The line is found, and what comes after it is left as it is.
      by_cases ho : label = other
      · simp [tally, countOf, h, ho]
      · simp [tally, countOf, h, ho]
    · rw [tally, if_neg h, countOf, countOf, ih]
      by_cases ho : entry.label = other
      · have hne : label ≠ other := fun he => h (ho.trans he.symm)
        rw [if_pos ho, if_pos ho, if_neg hne, Nat.add_zero]
      · rw [if_neg ho, if_neg ho]

/-! ## All files -/

theorem statistics_concat (files : List SourceFile) (f : SourceFile) :
    statistics (files ++ [f]) = tally f.label (statistics files) := by
  unfold statistics
  rw [List.foldl_append]
  rfl

/-- The lines have the labels of the files, in the order of their first
    appearance. -/
theorem labels_statistics (files : List SourceFile) :
    labels (statistics files) = (files.map SourceFile.label).eraseDups := by
  induction files using List.reverseRecOn with
  | nil => rfl
  | append_singleton files f ih =>
    rw [statistics_concat, labels_tally, ih, List.map_append, List.map_singleton, eraseDups_concat]
    simp only [List.mem_eraseDups]

theorem nodup_labels_statistics (files : List SourceFile) :
    (labels (statistics files)).Nodup := by
  rw [labels_statistics]
  exact nodup_eraseDups _

/-- The number of a label is that of the files under it. -/
theorem countOf_statistics (label : Text) (files : List SourceFile) :
    countOf label (statistics files) = files.countP fun f => f.label = label := by
  induction files using List.reverseRecOn with
  | nil => rfl
  | append_singleton files f ih =>
    rw [statistics_concat, countOf_tally, ih, List.countP_append, List.countP_singleton]
    simp only [decide_eq_true_eq]

/-- No file is left out, and none is counted twice. -/
theorem total_statistics (files : List SourceFile) :
    total (statistics files) = files.length := by
  induction files using List.reverseRecOn with
  | nil => rfl
  | append_singleton files f ih =>
    rw [statistics_concat, total_tally, ih, List.length_append, List.length_singleton]

/-! ## Lines and numbers -/

section

variable {counts : List LabelCount} (h : (labels counts).Nodup)

include h

/-- If no label has two lines, the number of a label is on any line it has. -/
theorem countOf_of_mem {entry : LabelCount} (hentry : entry ∈ counts) :
    countOf entry.label counts = entry.count := by
  induction counts with
  | nil => simp at hentry
  | cons first rest ih =>
    obtain ⟨hfirst, hrest⟩ := List.nodup_cons.mp h
    rcases List.mem_cons.mp hentry with heq | hmem
    · subst heq
      exact if_pos rfl
    · -- The first line has another label, since this one has a line below it.
      have hne : first.label ≠ entry.label := by
        intro he
        apply hfirst
        show first.label ∈ rest.map (·.label)
        rw [he]
        exact List.mem_map_of_mem hmem
      rw [countOf, if_neg hne]
      exact ih hrest hmem

/-- The labels and their numbers are all there is to know. -/
theorem map_countOf_labels : (labels counts).map (fun l => ⟨l, countOf l counts⟩) = counts := by
  unfold labels
  rw [List.map_map]
  calc counts.map ((fun l => (⟨l, countOf l counts⟩ : LabelCount)) ∘ (·.label))
      = counts.map id := by
        apply List.map_congr_left
        intro entry hentry
        show (⟨entry.label, countOf entry.label counts⟩ : LabelCount) = entry
        rw [countOf_of_mem h hentry]
    _ = counts := List.map_id counts

end

/-- The number on a line is that of the files under its label. -/
theorem count_of_mem_statistics {files : List SourceFile} {entry : LabelCount}
    (hentry : entry ∈ statistics files) :
    entry.count = files.countP fun f => f.label = entry.label := by
  rw [← countOf_statistics, countOf_of_mem (nodup_labels_statistics files) hentry]

/-- No line stands for nothing. -/
theorem count_pos_of_mem_statistics {files : List SourceFile} {entry : LabelCount}
    (hentry : entry ∈ statistics files) : 1 ≤ entry.count := by
  have hlabel : entry.label ∈ labels (statistics files) := List.mem_map_of_mem hentry
  rw [labels_statistics, List.mem_eraseDups] at hlabel
  obtain ⟨f, hf, hflabel⟩ := List.mem_map.mp hlabel
  rw [count_of_mem_statistics hentry]
  apply List.countP_pos_iff.mpr
  exact ⟨f, hf, decide_eq_true hflabel⟩

/-- The order of the files decides about nothing but the order of the lines. -/
theorem statistics_perm {files others : List SourceFile} (h : files.Perm others) :
    (statistics files).Perm (statistics others) := by
  have hlabels : (labels (statistics files)).Perm (labels (statistics others)) := by
    rw [List.perm_ext_iff_of_nodup (nodup_labels_statistics files)
      (nodup_labels_statistics others)]
    intro label
    rw [labels_statistics, labels_statistics, List.mem_eraseDups, List.mem_eraseDups]
    exact (h.map SourceFile.label).mem_iff
  have hcounts : ∀ label, countOf label (statistics files) = countOf label (statistics others) := by
    intro label
    rw [countOf_statistics, countOf_statistics]
    exact h.countP_eq _
  rw [← map_countOf_labels (nodup_labels_statistics files),
    ← map_countOf_labels (nodup_labels_statistics others)]
  simp only [hcounts]
  exact hlabels.map _

/-! ## The theorem -/

/-- **The statistics part the files by label.**  Every label that some file has
    stands on one line, in the order of first appearance.  The number on a line is
    that of the files whose name is classified under the label, so it is never
    zero, and all numbers together are the number of files that the README gives.
    If the files come in another order, the lines do and nothing else changes. -/
theorem statistics_partition (files : List SourceFile) :
    labels (statistics files) = (files.map SourceFile.label).eraseDups ∧
    (labels (statistics files)).Nodup ∧
    (∀ entry ∈ statistics files, 1 ≤ entry.count ∧
      entry.count = files.countP fun f => (Language.ofFileName f.name).label = entry.label) ∧
    total (statistics files) = files.length ∧
    (∀ title, total (Contents.ofFiles title files).counts =
      (Contents.ofFiles title files).fileCount) ∧
    ∀ others : List SourceFile, files.Perm others →
      (statistics files).Perm (statistics others) := by
  refine ⟨labels_statistics files, nodup_labels_statistics files, ?_,
    total_statistics files, ?_, ?_⟩
  · intro entry hentry
    exact ⟨count_pos_of_mem_statistics hentry, count_of_mem_statistics hentry⟩
  · intro title
    exact total_statistics files
  · intro others h
    exact statistics_perm h

/-- Files of which some share a label without sharing an extension. -/
def mixedFiles : List SourceFile :=
  ["a.py", "index.ts", "b.py", "util.h", "notes.txt", "c.TS", "x.hpp"].map fun name : String =>
    ⟨name, name, [], none⟩

/-- Headers are counted with the other plain texts.  From the last file to the
    first the labels come up the other way round, with the same numbers. -/
theorem statistics_partition_mixed :
    statistics mixedFiles = [⟨"Python", 2⟩, ⟨"TypeScript", 2⟩, ⟨"Plain text", 3⟩] ∧
      statistics mixedFiles.reverse = [⟨"Plain text", 3⟩, ⟨"TypeScript", 2⟩, ⟨"Python", 2⟩] ∧
      (statistics mixedFiles).Perm (statistics mixedFiles.reverse) ∧
      3 = mixedFiles.countP fun f =>
        (Language.ofFileName f.name).label = ("Plain text" : Text) := by
  have hlines : statistics mixedFiles = [⟨"Python", 2⟩, ⟨"TypeScript", 2⟩, ⟨"Plain text", 3⟩] := by
    decide
  have hmem : (⟨"Plain text", 3⟩ : LabelCount) ∈ statistics mixedFiles := by
    rw [hlines]
    decide
  obtain ⟨-, -, hcounts, -, -, hperm⟩ := statistics_partition mixedFiles
  exact ⟨hlines, by decide, hperm _ (List.reverse_perm _).symm, (hcounts _ hmem).2⟩

end Neaten.Readme
