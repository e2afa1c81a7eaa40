import Neaten.Command.Readme
import Neaten.Proofs.FileSystem.Changes
import Neaten.Proofs.Path.LastComponent

/-! # Where a README goes

    A configuration that is loaded calls the file of a README by a text that is
    not empty and has no separator.  Below a directory such a text names a file
    there, unless it is one of the two that have a meaning of their own in a
    path: one dot stands for the directory itself, and two for the one above it.
    Both are accepted. -/

namespace Neaten

namespace Config

variable {place : Place} {fs : FileSystem} {c : Config}

/-! ## What is accepted -/

theorem isPiece_of_isPlainName {name : Text} (h : isPlainName name = true) :
    Path.IsPiece name := by
  have hplain : (name ≠ [] ∧ '/' ∉ name) ∧ '\\' ∉ name := by simpa [isPlainName] using h
  exact ⟨hplain.1.1, hplain.1.2⟩

theorem isPlainName_of_check (h : c.check place fs = .ok ()) :
    isPlainName c.readmeFile = true := by
  unfold check at h
  split at h
  · cases h
  · split at h
    · cases h
    · next hplain => simpa using hplain

/-- What is loaded has been checked. -/
theorem check_of_load (h : load place fs = .ok c) : c.check place fs = .ok () := by
  unfold load at h
  obtain ⟨user, -, h⟩ := FileSystem.of_bind_eq_ok h
  obtain ⟨project, -, h⟩ := FileSystem.of_bind_eq_ok h
  dsimp only at h
  split at h
  · next hcheck =>
    obtain rfl := Except.ok.inj h
    exact hcheck
  · cases h

end Config

namespace Command

open FileSystem (ChangesOnly Above locate)

variable {place : Place} {fs : FileSystem} {c : Config}

/-! ## What a run changes -/

theorem config_of_prepare {request : ReadmeRequest} {prepared : Config × List SourceFile × Text}
    (h : request.prepare place fs = .ok prepared) (hload : Config.load place fs = .ok c) :
    prepared.1 = c := by
  unfold ReadmeRequest.prepare settings at h
  rw [hload] at h
  obtain ⟨name, -, h⟩ := FileSystem.of_bind_eq_ok h
  obtain ⟨config, hconfig, h⟩ := FileSystem.of_bind_eq_ok h
  obtain ⟨files, -, h⟩ := FileSystem.of_bind_eq_ok h
  obtain ⟨readme, -, h⟩ := FileSystem.of_bind_eq_ok h
  obtain rfl := Except.ok.inj h
  exact (Except.ok.inj hconfig).symm

/-- Where no other path is named, a run writes no file but that of the
    configuration's path. -/
theorem changesOnly_readme {request : ReadmeRequest} (h : Config.load place fs = .ok c)
    (hnone : request.output = none) :
    ChangesOnly (Above place.cwd (readmePath c)) (· = locate place.cwd (readmePath c)) fs
      (readme place request fs).files := by
  unfold readme
  split
  · exact .refl fs
  · next config files text hprepared =>
    obtain rfl : config = c := config_of_prepare hprepared h
    rw [hnone]
    split
    · exact .refl fs
    · dsimp only [Option.getD_none]
      split
      · next hfailed => exact .of_save hfailed
      · next hsaved => exact .of_save hsaved

/-! ## The path of the configuration -/

/-- **Where a README goes.**  With any configuration that can be loaded, the path
    is that of a file in the directory, under the configured name, unless the name
    is one dot or two.  One dot leads to the directory itself, and two to the
    directory above it.  Unless another path is named, no run writes a file
    anywhere else. -/
theorem readme_stays_in_directory_iff (h : Config.load place fs = .ok c) :
    (Path.IsFileIn c.directory c.readmeFile (readmePath c) ↔
      c.readmeFile ≠ "." ∧ c.readmeFile ≠ "..") ∧
    (∀ cwd, locate cwd (readmePath c) =
      if c.readmeFile = "." then locate cwd c.directory
      else if c.readmeFile = ".." then (locate cwd c.directory).dropLast
      else locate cwd c.directory ++ [c.readmeFile]) ∧
    ∀ request : ReadmeRequest, request.output = none → ∀ l ≠ locate place.cwd (readmePath c),
      ∀ data, (readme place request fs).files.get? l = some (.file data) →
        fs.get? l = some (.file data) := by
  have hplain := Config.isPlainName_of_check (Config.check_of_load h)
  have hpiece := Config.isPiece_of_isPlainName hplain
  refine ⟨?_, fun cwd => FileSystem.locate_join_piece cwd c.directory hpiece, ?_⟩
  · rw [readmePath, Path.isFileIn_join_iff]
    exact ⟨fun hname => ⟨hname.ne_current, hname.ne_parent⟩,
      fun ⟨hcurrent, hparent⟩ => ⟨hpiece.ne_nil, hpiece.no_separator, hcurrent, hparent⟩⟩
  · intro request hnone l hl data hafter
    exact (changesOnly_readme h hnone).of_get?_file hafter hl

/-! ### Names -/

/-- A project whose file says what a README is called. -/
def namingReadme (name : Text) : FileSystem where
  entries := [
    (["work"], .directory),
    (["work", Config.projectName],
      .file (Utf8.encode ("[output]\nreadme_file = \"" ++ name ++ "\"\n")))]

/-- The place of that project. -/
def namingPlace : Place := ⟨["work"], "/home", none⟩

/-- Three dots are a name. -/
theorem readme_stays_in_directory_threeDots :
    Config.load namingPlace (namingReadme "...") = .ok { readmeFile := "..." } ∧
      Path.IsFileIn "." "..." "./..." ∧
      locate ["work"] "./..." = (["work", "..."] : Location) := by
  have hload : Config.load namingPlace (namingReadme "...") = .ok { readmeFile := "..." } :=
    Failure.eq_ok_of_toOption (by decide +kernel)
  obtain ⟨hfile, hlocate, -⟩ := readme_stays_in_directory_iff hload
  exact ⟨hload, hfile.mpr (by decide), hlocate ["work"]⟩

/-- Not every name that is accepted is one: two dots are accepted as well, and the
    README would have to stand in place of the directory above. -/
theorem not_forall_isFileIn_readmePath :
    (¬ ∀ (place : Place) (fs : FileSystem) (c : Config), Config.load place fs = .ok c →
      Path.IsFileIn c.directory c.readmeFile (readmePath c)) ∧
    ¬ ∀ (place : Place) (fs : FileSystem) (c : Config), Config.load place fs = .ok c →
      ∃ more, more ≠ [] ∧
        locate place.cwd (readmePath c) = locate place.cwd c.directory ++ more := by
  have hload : Config.load namingPlace (namingReadme "..") = .ok { readmeFile := ".." } :=
    Failure.eq_ok_of_toOption (by decide +kernel)
  constructor
  · intro h
    have hname := Path.isName_of_fileName? (h _ _ _ hload).fileName
    exact absurd rfl hname.ne_parent
  · intro h
    obtain ⟨more, -, heq⟩ := h _ _ _ hload
    have hlength := congrArg List.length heq
    have habove : locate namingPlace.cwd (readmePath { readmeFile := ".." }) = [] := by decide
    have hdirectory : locate namingPlace.cwd ({ readmeFile := ".." } : Config).directory =
        (["work"] : Location) := by decide
    rw [habove, hdirectory] at hlength
    simp at hlength

end Command

end Neaten
