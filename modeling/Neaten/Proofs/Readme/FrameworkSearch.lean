import Mathlib.Data.List.Nodup
import Neaten.Proofs.Text.Pieces
import Neaten.Readme.Frameworks

/-! # Frameworks are searched for file by file

    The text of all files is searched at once, with line breaks between the
    files.  No needle has a line break, so whatever is found lies in one file,
    and the order of the files does not matter.  The manifest is the first file
    of its name, and no file that comes later takes its place.

    So a framework that some files show is still shown when more files follow. -/

namespace Neaten.Readme

/-! ## Where a sign is found -/

section

variable {sign : Sign}

/-- **What is searched for in all files is found in one of them.** -/
theorem shows_anywhere_iff (hscope : sign.scope = .anywhere) (hne : sign.needle ≠ [])
    (hbreak : '\n' ∉ sign.needle) (files : List SourceFile) :
    sign.shows files = true ↔ ∃ f ∈ files, sign.needle <:+: Text.lower f.content := by
  have hshows : sign.shows files = Text.occursIn sign.needle (allContent files) := by
    rw [Sign.shows, hscope]
  rw [hshows, Text.occursIn_iff, allContent, Text.infix_intercalate_iff hne hbreak]
  simp

/-- **What is searched for in the manifest is found in the first file of that
    name.** -/
theorem shows_manifest_iff (hscope : sign.scope = .manifest) (files : List SourceFile) :
    sign.shows files = true ↔
      ∃ front f back, files = front ++ f :: back ∧ f.name = manifestName ∧
        (∀ g ∈ front, g.name ≠ manifestName) ∧ sign.needle <:+: f.content := by
  have hshows : sign.shows files = true ↔
      ∃ f, files.find? (·.name = manifestName) = some f ∧ sign.needle <:+: f.content := by
    rw [Sign.shows, hscope]
    cases hfind : files.find? (·.name = manifestName) with
    | none => simp [manifest?, hfind]
    | some f => simp [manifest?, hfind, Text.occursIn_iff]
  rw [hshows]
  constructor
  · rintro ⟨f, hfind, hin⟩
    obtain ⟨hname, front, back, rfl, hfront⟩ := List.find?_eq_some_iff_append.mp hfind
    refine ⟨front, f, back, rfl, of_decide_eq_true hname, ?_, hin⟩
    intro g hg
    have hnot := hfront g hg
    simpa using hnot
  · rintro ⟨front, f, back, rfl, hname, hfront, hin⟩
    refine ⟨f, List.find?_eq_some_iff_append.mpr ⟨decide_eq_true hname, front, back, rfl, ?_⟩, hin⟩
    intro g hg
    simp [hfront g hg]

/-- More files at the end leave a manifest in its place and add to the text of
    all files at its end. -/
theorem shows_append {files : List SourceFile} (h : sign.shows files = true)
    (more : List SourceFile) : sign.shows (files ++ more) = true := by
  cases hscope : sign.scope with
  | manifest =>
    obtain ⟨front, f, back, rfl, hfirst⟩ := (shows_manifest_iff hscope files).mp h
    rw [shows_manifest_iff hscope]
    exact ⟨front, f, back ++ more, by simp, hfirst⟩
  | anywhere =>
    rw [Sign.shows, hscope] at h ⊢
    rw [Text.occursIn_iff] at h ⊢
    have hstart : allContent files <+: allContent (files ++ more) := by
      rw [allContent, allContent, List.map_append]
      exact Text.intercalate_prefix '\n' _ _
    exact h.trans hstart.isInfix

end

/-! ## What is listed -/

/-- The labels that can be listed, in order. -/
def frameworkLabels : List Text :=
  ["React", "Vue.js", "Angular", "Django", "Flask", "Express.js", "Spring Boot"]

theorem map_label_signs : signs.map (·.label) = frameworkLabels := rfl

theorem nodup_frameworkLabels : frameworkLabels.Nodup := by decide

/-- The labels tell the signs apart, so a label is listed just if its sign is
    shown. -/
theorem label_mem_frameworks_iff {sign : Sign} (h : sign ∈ signs) (files : List SourceFile) :
    sign.label ∈ frameworks files ↔ sign.shows files = true := by
  rw [frameworks, List.mem_map]
  constructor
  · rintro ⟨other, hother, hlabel⟩
    obtain ⟨hmem, hshows⟩ := List.mem_filter.mp hother
    have hdistinct : (signs.map (·.label)).Nodup := map_label_signs ▸ nodup_frameworkLabels
    obtain rfl := List.inj_on_of_nodup_map hdistinct hmem h hlabel
    exact hshows
  · intro hshows
    exact ⟨sign, List.mem_filter.mpr ⟨h, hshows⟩, rfl⟩

theorem frameworks_sublist (files : List SourceFile) :
    (frameworks files).Sublist frameworkLabels :=
  List.filter_sublist.map _

theorem frameworks_sublist_append (files more : List SourceFile) :
    (frameworks files).Sublist (frameworks (files ++ more)) :=
  (List.monotone_filter_right signs fun _ h => shows_append h more).map _

/-- Every needle is a text on one line. -/
theorem of_mem_signs {sign : Sign} (h : sign ∈ signs) :
    sign.needle ≠ [] ∧ '\n' ∉ sign.needle := by
  have hall : ∀ sign ∈ signs, sign.needle ≠ [] ∧ '\n' ∉ sign.needle := by decide
  exact hall sign h

/-- A label that is searched for in all files is listed just if one of them has
    the needle. -/
theorem label_mem_frameworks_iff_of_anywhere {sign : Sign} (h : sign ∈ signs)
    (hscope : sign.scope = .anywhere) (files : List SourceFile) :
    sign.label ∈ frameworks files ↔ ∃ f ∈ files, sign.needle <:+: Text.lower f.content := by
  obtain ⟨hne, hbreak⟩ := of_mem_signs h
  rw [label_mem_frameworks_iff h, shows_anywhere_iff hscope hne hbreak]

/-! ## The theorem -/

/-- **Frameworks are searched for file by file.**  The frameworks listed are
    some of the labels, in their order and without repetition.  A label that is
    searched for in all files is listed just if the content of a single one has
    the needle in lower case, so the order of the files does not matter.  A label
    that is searched for in the manifest is listed just if there is a file called
    package.json and the first one has the needle.  More files at the end take
    no label away. -/
theorem frameworks_search (files : List SourceFile) :
    (frameworks files).Sublist frameworkLabels ∧ (frameworks files).Nodup ∧
    (∀ sign ∈ signs, sign.scope = .anywhere →
      (sign.label ∈ frameworks files ↔
        ∃ f ∈ files, sign.needle <:+: Text.lower f.content) ∧
      ∀ others, files.Perm others →
        (sign.label ∈ frameworks files ↔ sign.label ∈ frameworks others)) ∧
    (∀ sign ∈ signs, sign.scope = .manifest →
      (sign.label ∈ frameworks files ↔
        ∃ front f back, files = front ++ f :: back ∧ f.name = ("package.json" : Text) ∧
          (∀ g ∈ front, g.name ≠ ("package.json" : Text)) ∧ sign.needle <:+: f.content)) ∧
    ∀ more, (frameworks files).Sublist (frameworks (files ++ more)) := by
  have hsublist := frameworks_sublist files
  refine ⟨hsublist, nodup_frameworkLabels.sublist hsublist, ?_, ?_, frameworks_sublist_append files⟩
  · intro sign hsign hscope
    refine ⟨label_mem_frameworks_iff_of_anywhere hsign hscope files, ?_⟩
    intro others hperm
    rw [label_mem_frameworks_iff_of_anywhere hsign hscope,
      label_mem_frameworks_iff_of_anywhere hsign hscope]
    simp only [hperm.mem_iff]
  · intro sign hsign hscope
    rw [label_mem_frameworks_iff hsign, shows_manifest_iff hscope]
    rfl

/-- Two manifests, a needle cut in two by the end of a file, and one with a
    Kelvin sign. -/
def scattered : List SourceFile :=
  [⟨"package.json", "web/package.json", "\x7b\"react\": 18\x7d", none⟩,
   ⟨"a.txt", "a.txt", "spring-", none⟩,
   ⟨"b.txt", "b.txt", "boot with FLAS\u212A", none⟩,
   ⟨"package.json", "package.json", "\x7b\"vue\": 3\x7d", none⟩]

/-- The first manifest counts and the second does not.  One file has all of a
    needle, in whatever order the files come; no file has all of another one. -/
theorem frameworks_search_scattered :
    ("React" : Text) ∈ frameworks scattered ∧ ("Vue.js" : Text) ∉ frameworks scattered ∧
      ("Spring Boot" : Text) ∉ frameworks scattered ∧
      scattered.Perm scattered.reverse ∧ ("Flask" : Text) ∈ frameworks scattered.reverse := by
  obtain ⟨-, -, hanywhere, hmanifest, -⟩ := frameworks_search scattered
  have hperm : scattered.Perm scattered.reverse := scattered.reverse_perm.symm
  refine ⟨?_, by decide +kernel, ?_, hperm, ?_⟩
  · refine (hmanifest ⟨"\"react\"", .manifest, "React"⟩ (by simp [signs]) rfl).mpr ?_
    refine ⟨[], _, _, rfl, rfl, by simp, ?_⟩
    rw [← Text.occursIn_iff]
    decide
  · rw [(hanywhere ⟨"spring-boot", .anywhere, "Spring Boot"⟩ (by simp [signs]) rfl).1]
    rintro ⟨f, hf, hin⟩
    have hnone : ∀ f ∈ scattered, Text.occursIn "spring-boot" (Text.lower f.content) = false := by
      decide +kernel
    rw [← Text.occursIn_iff, hnone f hf] at hin
    cases hin
  · obtain ⟨hflask, horder⟩ := hanywhere ⟨"flask", .anywhere, "Flask"⟩ (by simp [signs]) rfl
    refine (horder _ hperm).mp (hflask.mpr ?_)
    refine ⟨⟨"b.txt", "b.txt", "boot with FLAS\u212A", none⟩, by decide, ?_⟩
    rw [← Text.occursIn_iff]
    decide

end Neaten.Readme
