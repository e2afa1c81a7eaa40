import Mathlib.Data.List.Forall2
import Neaten.Proofs.Layout.CodeLines
import Neaten.Proofs.Upload.Processing

/-! # What the limit of levels decides

    Under two limits an upload fails in the same way or has the same files, and
    each of them is laid out alike unless one of the limits makes it pass
    through as it came.

    The README is the same as well.  It is about names, paths and contents, so
    taking the layout off all files leaves it as it is, and without layouts the
    files of an upload are the same under every limit. -/

namespace Neaten

/-! ## Files without their layout -/

/-- A file as if it had not been laid out. -/
def SourceFile.unformatted (f : SourceFile) : SourceFile := { f with formatted := none }

open SourceFile (unformatted)

theorem Tree.ofFiles_map_unformatted (files : List SourceFile) :
    Tree.ofFiles (files.map unformatted) = Tree.ofFiles files := by
  unfold Tree.ofFiles
  rw [List.foldl_map]
  rfl

namespace Readme

theorem statistics_map_unformatted (files : List SourceFile) :
    statistics (files.map unformatted) = statistics files := by
  unfold statistics
  rw [List.foldl_map]
  rfl

/-- A sign is looked for in names and contents. -/
theorem shows_map_unformatted (sign : Sign) (files : List SourceFile) :
    sign.shows (files.map unformatted) = sign.shows files := by
  have hmanifest : manifest? (files.map unformatted) = manifest? files := by
    unfold manifest?
    rw [List.find?_map, Option.map_map]
    rfl
  have hcontent : allContent (files.map unformatted) = allContent files := by
    unfold allContent
    rw [List.map_map]
    rfl
  unfold Sign.shows
  rw [hmanifest, hcontent]

theorem frameworks_map_unformatted (files : List SourceFile) :
    frameworks (files.map unformatted) = frameworks files := by
  unfold frameworks
  congr 1
  apply List.filter_congr
  intro sign hsign
  exact shows_map_unformatted sign files

/-- The same file is the entry point. -/
theorem entryPoint?_map_unformatted (files : List SourceFile) :
    entryPoint? (files.map unformatted) = (entryPoint? files).map unformatted := by
  unfold entryPoint?
  rw [List.map_findSome?]
  congr 1
  funext name
  exact List.find?_map

theorem configurationFiles_map_unformatted (files : List SourceFile) :
    configurationFiles (files.map unformatted) = configurationFiles files := by
  unfold configurationFiles
  rw [List.filter_map, List.map_map]
  rfl

theorem languageNote_map_unformatted (files : List SourceFile) :
    languageNote (files.map unformatted) = languageNote files := by
  unfold languageNote
  rw [List.any_map, List.any_map]
  rfl

/-- **A README says nothing about layouts.** -/
theorem Contents.ofFiles_map_unformatted (title : Text) (files : List SourceFile) :
    Contents.ofFiles title (files.map unformatted) = Contents.ofFiles title files := by
  unfold Contents.ofFiles
  rw [Tree.ofFiles_map_unformatted, statistics_map_unformatted, frameworks_map_unformatted,
    entryPoint?_map_unformatted, configurationFiles_map_unformatted, languageNote_map_unformatted,
    List.length_map, Option.map_map]
  rfl

end Readme

/-- Files that are the same without their layouts have the same README. -/
theorem Upload.readme_ofFiles_congr {files others : List SourceFile}
    (h : files.map unformatted = others.map unformatted) (name : Text) :
    (ofFiles name files).readme = (ofFiles name others).readme := by
  have htext : Readme.textOfArchive name files = Readme.textOfArchive name others := by
    unfold Readme.textOfArchive
    rw [← Readme.ofFiles_eq_toldBy, ← Readme.ofFiles_eq_toldBy,
      ← Readme.Contents.ofFiles_map_unformatted, h, Readme.Contents.ofFiles_map_unformatted]
  unfold ofFiles
  rw [htext]

/-! ## One file under two limits -/

/-- Texts that are laid out under two limits are laid out alike. -/
theorem Layout.text_format_eq_or (s : Style) (m₁ m₂ : Nat) (t : Text) :
    (format s m₁ t).text = (format s m₂ t).text ∨
      (∃ reason, format s m₁ t = .passedThrough t reason) ∨
      ∃ reason, format s m₂ t = .passedThrough t reason := by
  cases h₁ : format s m₁ t with
  | passedThrough u reason =>
    obtain rfl := eq_of_format_eq_passedThrough h₁
    exact .inr (.inl ⟨reason, rfl⟩)
  | formatted u =>
    cases h₂ : format s m₂ t with
    | passedThrough v reason =>
      obtain rfl := eq_of_format_eq_passedThrough h₂
      exact .inr (.inr ⟨reason, rfl⟩)
    | formatted v =>
      -- Both are the lines of code, which know of no limit.
      left
      rw [eq_intercalate_of_format_eq_formatted h₁, eq_intercalate_of_format_eq_formatted h₂]

namespace SourceFile

/-- The content of a file is too deep for a limit, and is shown as it came. -/
structure IsPassedThrough (limit : Nat) (f : SourceFile) : Prop where
  formatted : f.formatted = some f.content
  too_deep : ∃ reason, Layout.format f.language.style limit f.content =
    .passedThrough f.content reason

/-- Two files are the same up to their layouts under two limits, and these are
    the same as well unless one of them is the content passed through. -/
structure AlikeUnder (m₁ m₂ : Nat) (f g : SourceFile) : Prop where
  name : f.name = g.name
  path : f.path = g.path
  content : f.content = g.content
  formatted : f.formatted = g.formatted ∨ f.IsPassedThrough m₁ ∨ g.IsPassedThrough m₂

theorem isPassedThrough_ofContent {limit : Nat} {path content : Text} {reason : Layout.TooDeep}
    (h : Layout.format (ofContent limit path content).language.style limit content =
      .passedThrough content reason) : (ofContent limit path content).IsPassedThrough limit := by
  refine ⟨?_, reason, h⟩
  rw [formatted_ofContent, h]
  rfl

theorem alikeUnder_ofContent (m₁ m₂ : Nat) (path content : Text) :
    AlikeUnder m₁ m₂ (ofContent m₁ path content) (ofContent m₂ path content) := by
  refine ⟨rfl, rfl, rfl, ?_⟩
  rcases Layout.text_format_eq_or (ofContent m₁ path content).language.style m₁ m₂ content with
    htext | ⟨reason, h₁⟩ | ⟨reason, h₂⟩
  · exact .inl (congrArg some htext)
  · exact .inr (.inl (isPassedThrough_ofContent h₁))
  · exact .inr (.inr (isPassedThrough_ofContent h₂))

/-! ## The files of an upload -/

/-- Which files there are does not depend on the limit, nor does a failure. -/
theorem exists_ofUpload_eq (name : Text) (bytes : Bytes) :
    (∃ f, ∀ limit, ofUpload limit name bytes = .error f) ∨
      ∃ sources : List (Text × Text), ∀ limit,
        ofUpload limit name bytes = .ok (sources.map fun s => ofContent limit s.1 s.2) := by
  cases hname : Archive.isArchiveName name with
  | false =>
    exact .inr ⟨[(Text.lastPiece '/' name, Utf8.decodeLossy bytes)],
      fun limit => ofUpload_single hname⟩
  | true =>
    cases hread : Archive.readFiles bytes with
    | error e => exact .inl ⟨_, fun limit => ofUpload_of_readFiles_eq_error hname hread⟩
    | ok read =>
      refine .inr ⟨read.map fun f => (f.path, Utf8.decodeLossy f.data), fun limit => ?_⟩
      rw [List.map_map]
      exact ofUpload_of_readFiles_eq_ok hname hread

end SourceFile

namespace Upload

/-- **The limit of levels decides nothing but layouts.**  Under two limits an
    upload fails with the same failure, or is processed to the same name, the
    same README and as many files, which agree in name, path and content.  Two
    layouts of a file differ only where one is the content passed through. -/
theorem process_limits (name : Text) (bytes : Bytes) (m₁ m₂ : Nat) :
    (∃ f, process m₁ name bytes = .error f ∧ process m₂ name bytes = .error f) ∨
    ∃ u v, process m₁ name bytes = .ok u ∧ process m₂ name bytes = .ok v ∧
      u.name = v.name ∧ u.readme = v.readme ∧
      List.Forall₂ (SourceFile.AlikeUnder m₁ m₂) u.files v.files := by
  rcases SourceFile.exists_ofUpload_eq name bytes with ⟨f, hf⟩ | ⟨sources, hsources⟩
  · left
    refine ⟨f, ?_, ?_⟩
    · rw [process_eq, hf]
      rfl
    · rw [process_eq, hf]
      rfl
  · right
    refine ⟨_, _, process_eq_ok_iff.mpr ⟨_, hsources m₁, rfl⟩,
      process_eq_ok_iff.mpr ⟨_, hsources m₂, rfl⟩, rfl, ?_, ?_⟩
    · -- Without its layout a file is its path and its content.
      apply readme_ofFiles_congr
      rw [List.map_map, List.map_map]
      rfl
    · rw [files_ofFiles, files_ofFiles, List.forall₂_map_left_iff, List.forall₂_map_right_iff,
        List.forall₂_same]
      intro source hsource
      exact SourceFile.alikeUnder_ofContent m₁ m₂ source.1 source.2

/-- The limit does decide about layouts. -/
example : (SourceFile.ofContent 0 "a.js" "\x7b").formatted = some "\x7b".toList ∧
    (SourceFile.ofContent 1 "a.js" "\x7b").formatted = some "  \x7b".toList := by decide

end Upload

end Neaten
