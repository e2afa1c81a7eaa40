import Neaten.Proofs.Archive.EntryCount
import Neaten.Proofs.Readme.Rendering
import Neaten.Proofs.Upload.SourceFiles

/-! # What processing gives

    There is a README for any files under any title, so an upload is processed
    just if its files can be taken in.  It then has these files and, if its name
    is that of an archive, their README. -/

namespace Neaten

/-- The README of an archive's files in words. -/
def Readme.textOfArchive (name : Text) (files : List SourceFile) : Text :=
  (Contents.toldBy ((Archive.title? name).getD defaultTitle) files).assemble

/-- Every archive has a README. -/
theorem Readme.ofArchive_eq_ok (name : Text) (files : List SourceFile) :
    ofArchive name files = .ok (textOfArchive name files) := by
  rw [ofArchive, generate_eq_ok, textOfArchive]

namespace Upload

/-- An upload under a name with its files, and their README for an archive. -/
def ofFiles (name : Text) (files : List SourceFile) : Upload where
  name := name
  files := files
  readme := if Archive.isArchiveName name then some (Readme.textOfArchive name files) else none

@[simp] theorem files_ofFiles (name : Text) (files : List SourceFile) :
    (ofFiles name files).files = files := rfl

/-- An archive has the README of its files. -/
theorem readme_ofFiles_of_archive {name : Text} (hname : Archive.isArchiveName name = true)
    (files : List SourceFile) :
    (ofFiles name files).readme = some (Readme.textOfArchive name files) := if_pos hname

/-- Nothing but an archive has a README. -/
theorem readme_ofFiles_of_single {name : Text} (hname : Archive.isArchiveName name = false)
    (files : List SourceFile) : (ofFiles name files).readme = none :=
  if_neg (by rw [hname]; decide)

theorem describe_eq_ok (name : Text) (files : List SourceFile) :
    describe name files = .ok (ofFiles name files).readme := by
  unfold describe ofFiles
  split
  · rw [Readme.ofArchive_eq_ok]
    rfl
  · rfl

/-- Nothing but taking in the files can fail. -/
theorem process_eq (limit : Nat) (name : Text) (bytes : Bytes) :
    process limit name bytes = (ofFiles name) <$> SourceFile.ofUpload limit name bytes := by
  unfold process
  cases SourceFile.ofUpload limit name bytes with
  | error f => rfl
  | ok files =>
    have hdescribe := describe_eq_ok name files
    show (describe name files >>= fun readme => .ok { name, files, readme : Upload }) =
      .ok (ofFiles name files)
    rw [hdescribe]
    rfl

theorem process_eq_ok_iff {limit : Nat} {name : Text} {bytes : Bytes} {u : Upload} :
    process limit name bytes = .ok u ↔
      ∃ files, SourceFile.ofUpload limit name bytes = .ok files ∧ u = ofFiles name files := by
  rw [process_eq]
  cases SourceFile.ofUpload limit name bytes with
  | error f =>
    constructor
    · intro h
      cases h
    · rintro ⟨files, hfiles, -⟩
      cases hfiles
  | ok files =>
    constructor
    · intro h
      exact ⟨files, rfl, (Except.ok.inj h).symm⟩
    · rintro ⟨others, hothers, rfl⟩
      obtain rfl := Except.ok.inj hothers
      rfl

end Upload

/-- Every file of an upload has an index of 64 bits. -/
theorem SourceFile.length_ofUpload_lt {limit : Nat} {name : Text} {bytes : Bytes}
    {files : List SourceFile} (h : ofUpload limit name bytes = .ok files) :
    files.length < UInt64.size := by
  cases hname : Archive.isArchiveName name with
  | true =>
    obtain ⟨read, hread, rfl⟩ := of_ofUpload_archive hname h
    rw [List.length_map]
    exact Archive.length_readFiles_lt hread
  | false =>
    rw [ofUpload_single hname] at h
    obtain rfl := Except.ok.inj h
    exact (by decide : 1 < UInt64.size)

end Neaten
