import Neaten.Proofs.Readme.Counting
import Neaten.Readme.Assembly

/-! # The values of a README

    What a README says is worked out step by step: a label is counted while the
    files are gone through, and a remark looks at what was worked out before it.
    Each value can as well be told from the files on their own, without any of
    these steps. -/

namespace Neaten

/-- A directory is an entry without a label. -/
theorem Tree.directoryNames_eq (t : Tree) :
    t.directoryNames = (t.entries.filter (·.2.label? = none)).map (·.1) := by
  induction t with
  | empty => rfl
  | file name leaf later ih =>
    rw [directoryNames, entries, List.filter_cons_of_neg (by simp [Node.label?]), ih]
  | directory name contents later _ ih =>
    rw [directoryNames, entries, List.filter_cons_of_pos (by simp [Node.label?]), List.map_cons, ih]

namespace Readme

theorem directoryNames_eq_topDirectories (files : List SourceFile) :
    (Tree.ofFiles files).directoryNames = topDirectories files :=
  Tree.directoryNames_eq _

/-- The statistics are the labels with the number of files under each. -/
theorem statistics_eq_map (files : List SourceFile) :
    statistics files =
      (labelsOf files).map fun label => ⟨label, files.countP (·.label = label)⟩ := by
  rw [← map_countOf_labels (nodup_labels_statistics files), labels_statistics]
  simp only [countOf_statistics]
  rfl

theorem stackSummary_eq_madeWith (files : List SourceFile) :
    stackSummary (frameworks files) (statistics files) = madeWith files := by
  unfold stackSummary madeWith
  rw [labels_statistics]
  by_cases hused : frameworks files = []
  · rw [if_neg (not_not.mpr hused), if_neg (not_not.mpr hused)]
    exact (ite_not _ _ _).symm
  · rw [if_pos hused, if_pos hused]
    rfl

theorem structureNote_eq_arrangement (files : List SourceFile) :
    structureNote (Tree.ofFiles files).directoryNames = arrangement files := by
  have hcontains : (topDirectories files).contains "src" ↔
      ∃ top ∈ topDirectories files, top = ("src" : Text) := by
    simp
  unfold structureNote arrangement
  rw [directoryNames_eq_topDirectories]
  simp only [hcontains]
  by_cases hone : (topDirectories files).length = 1
  · rw [if_pos hone, if_pos hone, hone]
    rfl
  · rw [if_neg hone, if_neg hone, List.append_assoc, List.append_assoc]
    rfl

theorem languageNote_eq_scriptRemark (files : List SourceFile) :
    languageNote files = scriptRemark files := by
  have hscript : files.any (·.language.isTypeScript) = true ↔
      ∃ f ∈ files, f.language = .typeScript ∨ f.language = .tsx := by
    rw [List.any_eq_true]
    refine exists_congr fun f => and_congr_right fun _ => ?_
    cases f.language <;> simp [Language.isTypeScript]
  have hplain : (files.any fun f => f.language = .javaScript ∨ f.language = .jsx) = true ↔
      ∃ f ∈ files, f.language = .javaScript ∨ f.language = .jsx := by
    simp
  unfold languageNote scriptRemark
  simp only [hscript, hplain]

/-- **Every value is told by the title and the files.** -/
theorem ofFiles_eq_toldBy (title : Text) (files : List SourceFile) :
    Contents.ofFiles title files = Contents.toldBy title files := by
  unfold Contents.ofFiles Contents.toldBy
  dsimp only
  rw [stackSummary_eq_madeWith, structureNote_eq_arrangement, languageNote_eq_scriptRemark,
    statistics_eq_map, directoryNames_eq_topDirectories]
  rfl

end Readme

end Neaten
