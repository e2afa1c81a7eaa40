import Neaten.Archive.Writer
import Neaten.Proofs.Upload.ArchiveNames
import Neaten.Proofs.Upload.Processing

/-! # When an upload fails

    There is one way for an upload to fail: it is named as an archive, and its
    bytes cannot be read as one.  Decoding, laying out and describing the files
    give a result for whatever they are given.

    So the failure is always that of an archive, and stays one whatever was
    being done around it. -/

namespace Neaten

/-- What was being done does not change what is to blame. -/
theorem Failure.isArchive_foldr_during (tasks : List Task) (f : Failure) :
    (tasks.foldr during f).isArchive = f.isArchive := by
  induction tasks with
  | nil => rfl
  | cons task rest ih => rw [List.foldr_cons, isArchive_during, ih]

namespace Upload

section

variable {limit : Nat} {name : Text} {bytes : Bytes}

/-- An upload fails just if it is an archive that cannot be read. -/
theorem process_eq_error_iff {f : Failure} :
    process limit name bytes = .error f ↔
      Archive.isArchiveName name = true ∧
        ∃ e, Archive.readFiles bytes = .error e ∧ f = ⟨[.openingArchive name], .archive e⟩ := by
  rw [process_eq]
  cases hname : Archive.isArchiveName name with
  | false =>
    rw [SourceFile.ofUpload_single hname]
    constructor
    · intro h
      cases h
    · rintro ⟨h, -⟩
      cases h
  | true =>
    cases hread : Archive.readFiles bytes with
    | ok read =>
      rw [SourceFile.ofUpload_of_readFiles_eq_ok hname hread]
      constructor
      · intro h
        cases h
      · rintro ⟨-, e, he, -⟩
        cases he
    | error e =>
      rw [SourceFile.ofUpload_of_readFiles_eq_error hname hread]
      constructor
      · intro h
        exact ⟨rfl, e, rfl, (Except.error.inj h).symm⟩
      · rintro ⟨-, other, hother, rfl⟩
        obtain rfl := Except.error.inj hother
        rfl

/-- What is no archive is processed, whatever its bytes are. -/
theorem exists_process_eq_ok (hname : Archive.isArchiveName name = false) :
    ∃ u, process limit name bytes = .ok u := by
  cases hprocess : process limit name bytes with
  | ok u => exact ⟨u, rfl⟩
  | error f =>
    obtain ⟨harchive, -⟩ := process_eq_error_iff.mp hprocess
    rw [hname] at harchive
    cases harchive

end

/-- The README of an archive is the one of its files under its title. -/
theorem exists_readme_ofFiles {name : Text} (hname : Archive.isArchiveName name = true)
    (files : List SourceFile) :
    ∃ text, (ofFiles name files).readme = some text ∧
      Readme.generate (Archive.titleOf name) files = .ok text := by
  refine ⟨_, readme_ofFiles_of_archive hname files, ?_⟩
  rw [← Archive.getD_title? hname]
  exact Readme.ofArchive_eq_ok name files

/-- **When an upload fails.**  An upload fails just if its name is that of an
    archive and its bytes cannot be read as one, and then the archive is to
    blame, whatever was being done around it.  Any other upload is processed, to
    the files that are taken in from it.  An archive has a README, the one of
    these files under its title, and nothing else has one. -/
theorem process_fails_iff (limit : Nat) (name : Text) (bytes : Bytes) :
    ((∃ f, process limit name bytes = .error f) ↔
      Archive.isArchiveName name = true ∧ ∃ e, Archive.readFiles bytes = .error e) ∧
    (∀ f, process limit name bytes = .error f →
      ∀ tasks : List Task, (tasks.foldr Failure.during f).isArchive = true) ∧
    (Archive.isArchiveName name = false → ∃ u, process limit name bytes = .ok u) ∧
    ∀ u, process limit name bytes = .ok u →
      u.name = name ∧ SourceFile.ofUpload limit name bytes = .ok u.files ∧
      (Archive.isArchiveName name = false → u.readme = none) ∧
      (Archive.isArchiveName name = true →
        ∃ text, u.readme = some text ∧
          Readme.generate (Archive.titleOf name) u.files = .ok text) := by
  refine ⟨?_, ?_, exists_process_eq_ok, ?_⟩
  · constructor
    · rintro ⟨f, hf⟩
      obtain ⟨hname, e, he, -⟩ := process_eq_error_iff.mp hf
      exact ⟨hname, e, he⟩
    · rintro ⟨hname, e, he⟩
      exact ⟨_, process_eq_error_iff.mpr ⟨hname, e, he, rfl⟩⟩
  · intro f hf tasks
    obtain ⟨-, e, -, rfl⟩ := process_eq_error_iff.mp hf
    rw [Failure.isArchive_foldr_during]
    rfl
  · intro u hu
    obtain ⟨files, hfiles, rfl⟩ := process_eq_ok_iff.mp hu
    refine ⟨rfl, hfiles, ?_, ?_⟩
    · intro hname
      exact readme_ofFiles_of_single hname files
    · intro hname
      exact exists_readme_ofFiles hname files

/-- Bytes that are no archive fail under one name and not under another; an
    archive whose name is nothing but its end has the default title. -/
theorem process_fails_iff_named :
    (∃ f, process 64 "a.Zip" [0xFF] = .error f ∧ f.isArchive = true) ∧
      (∃ u, process 64 "a.zip.txt" [0xFF] = .ok u ∧ u.readme = none) ∧
      ∃ u text, process 64 ".zip" (Archive.emptyFiles ["a.rs"]) = .ok u ∧ u.readme = some text ∧
        Readme.generate Readme.defaultTitle u.files = .ok text := by
  have hbroken : ∃ e, Archive.readFiles [0xFF] = .error e :=
    Failure.exists_of_toOption_eq_none (by decide +kernel)
  have hfiles : SourceFile.ofUpload 64 ".zip" (Archive.emptyFiles ["a.rs"]) =
      .ok [.ofContent 64 "a.rs" []] :=
    Failure.eq_ok_of_toOption (by decide +kernel)
  obtain ⟨f, hf⟩ := (process_fails_iff 64 "a.Zip" [0xFF]).1.mpr ⟨by decide, hbroken⟩
  obtain ⟨u, hu⟩ := (process_fails_iff 64 "a.zip.txt" [0xFF]).2.2.1 (by decide)
  have hready := process_eq_ok_iff.mpr ⟨_, hfiles, rfl⟩
  obtain ⟨text, htext, hreadme⟩ :=
    ((process_fails_iff 64 ".zip" _).2.2.2 _ hready).2.2.2 (by decide)
  exact ⟨⟨f, hf, (process_fails_iff 64 _ _).2.1 f hf []⟩,
    ⟨u, hu, ((process_fails_iff 64 _ _).2.2.2 u hu).2.2.1 (by decide)⟩,
    _, text, hready, htext, hreadme⟩

end Upload

end Neaten
