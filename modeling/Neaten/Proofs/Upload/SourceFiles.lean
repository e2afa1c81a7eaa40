import Neaten.Proofs.Archive.Confinement
import Neaten.Proofs.Text.Pieces
import Neaten.Upload

/-! # What is taken in from an upload

    Every file that is taken in is named by the last piece of its path and laid
    out by its name.  Nothing that takes files in looks at whether there is a
    name at all, so that depends on the upload: a single file has one unless the
    name of the upload ends in `/` or is empty, and the files of an archive all
    have one unless an entry is stored under the empty name.  A stored name that
    ends in a separator is that of a directory, which is no file. -/

namespace Neaten

namespace SourceFile

/-! ## Files -/

/-- A file is named by its path, and laid out under a limit by its name. -/
structure LaidOut (limit : Nat) (f : SourceFile) : Prop where
  name_last : (Text.split '/' f.path).getLast? = some f.name
  no_separator : '/' ∉ f.name
  formatted : f.formatted = some (Layout.format f.language.style limit f.content).text

/-- A file is laid out, and there is something to its path and its name. -/
structure Sound (limit : Nat) (f : SourceFile) : Prop extends LaidOut limit f where
  path_ne_nil : f.path ≠ []
  name_ne_nil : f.name ≠ []

theorem laidOut_ofContent (limit : Nat) (path content : Text) :
    (ofContent limit path content).LaidOut limit where
  name_last := Text.getLast?_split '/' path
  no_separator := Text.not_mem_lastPiece '/' path
  formatted := formatted_ofContent limit path content

/-- A file that is taken in is sound just if its path does not end in a
    separator. -/
theorem sound_ofContent_iff (limit : Nat) (path content : Text) :
    (ofContent limit path content).Sound limit ↔ path ≠ [] ∧ path.getLast? ≠ some '/' := by
  rw [← not_or, ← Text.lastPiece_eq_nil_iff]
  constructor
  · intro h
    exact h.name_ne_nil
  · intro hname
    refine ⟨laidOut_ofContent limit path content, ?_, hname⟩
    rintro rfl
    exact hname rfl

end SourceFile

/-! ## Archives -/

namespace Archive

/-- The path of a stored name ends where the name does, and a backslash at the
    end counts as a slash. -/
theorem getLast?_pathOfName (name : Text) :
    (pathOfName name).getLast? = name.getLast?.map fun c => if c = '\\' then '/' else c :=
  List.getLast?_map

/-- A path ends in a separator just if its stored name is that of a directory. -/
theorem getLast?_pathOfName_eq_slash_iff (name : Text) :
    (pathOfName name).getLast? = some '/' ↔ isDirectoryName name = true := by
  rw [getLast?_pathOfName, isDirectoryName]
  cases name.getLast? with
  | none => simp
  | some c => by_cases hback : c = '\\' <;> simp [hback]

/-- An entry stored under the empty name becomes a file. -/
theorem isKept_of_name_eq_nil {entry : EntryInfo} (h : entry.name = []) : IsKept entry := by
  rw [← keeps_iff, keeps, h]
  decide

/-- The paths of the files all end in a name just if no entry is stored under
    the empty name. -/
theorem forall_path_iff {bytes : Bytes} {files : List File} (h : readFiles bytes = .ok files) :
    ∃ entries, openEntries bytes = .ok entries ∧
      ((∀ f ∈ files, f.path ≠ [] ∧ f.path.getLast? ≠ some '/') ↔ ∀ e ∈ entries, e.name ≠ []) := by
  obtain ⟨entries, ho, hiff⟩ :=
    forall_path_of_readFiles (fun path => path ≠ [] ∧ path.getLast? ≠ some '/') h
  refine ⟨entries, ho, hiff.trans (forall₂_congr fun e _ => ?_)⟩
  constructor
  · intro hpath hname
    refine (hpath (isKept_of_name_eq_nil hname)).1 ?_
    rw [hname]
    rfl
  · intro hname hkept
    refine ⟨fun hnil => hname (List.map_eq_nil_iff.mp hnil), fun hlast => ?_⟩
    -- A name that ends in a separator is that of a directory, which is not kept.
    rw [getLast?_pathOfName_eq_slash_iff, hkept.1] at hlast
    cases hlast

end Archive

namespace SourceFile

/-! ## Uploads -/

section

variable {limit : Nat} {name : Text} {bytes : Bytes}

/-- An archive that cannot be read has no files. -/
theorem ofUpload_of_readFiles_eq_error (hname : Archive.isArchiveName name = true)
    {e : Archive.Error} (h : Archive.readFiles bytes = .error e) :
    ofUpload limit name bytes = .error ⟨[.openingArchive name], .archive e⟩ := by
  rw [ofUpload, if_pos hname, h]

/-- The files of an archive that can be read are taken in. -/
theorem ofUpload_of_readFiles_eq_ok (hname : Archive.isArchiveName name = true)
    {read : List Archive.File} (h : Archive.readFiles bytes = .ok read) :
    ofUpload limit name bytes =
      .ok (read.map fun f => ofContent limit f.path (Utf8.decodeLossy f.data)) := by
  rw [ofUpload, if_pos hname, h]

/-- The files of an archive are its files taken in. -/
theorem of_ofUpload_archive (hname : Archive.isArchiveName name = true) {files : List SourceFile}
    (h : ofUpload limit name bytes = .ok files) :
    ∃ read, Archive.readFiles bytes = .ok read ∧
      files = read.map fun f => ofContent limit f.path (Utf8.decodeLossy f.data) := by
  cases hread : Archive.readFiles bytes with
  | error e =>
    rw [ofUpload_of_readFiles_eq_error hname hread] at h
    cases h
  | ok read =>
    rw [ofUpload_of_readFiles_eq_ok hname hread] at h
    exact ⟨read, rfl, (Except.ok.inj h).symm⟩

/-- Any other upload is a single file. -/
theorem ofUpload_single (hname : Archive.isArchiveName name = false) :
    ofUpload limit name bytes =
      .ok [ofContent limit (Text.lastPiece '/' name) (Utf8.decodeLossy bytes)] := by
  unfold ofUpload
  rw [if_neg (by simp [hname])]

/-- All files of an upload are laid out. -/
theorem laidOut_of_ofUpload {files : List SourceFile} (h : ofUpload limit name bytes = .ok files) :
    ∀ f ∈ files, f.LaidOut limit := by
  intro f hf
  cases hname : Archive.isArchiveName name with
  | true =>
    obtain ⟨read, -, rfl⟩ := of_ofUpload_archive hname h
    obtain ⟨file, -, rfl⟩ := List.mem_map.mp hf
    exact laidOut_ofContent _ _ _
  | false =>
    rw [ofUpload_single hname] at h
    obtain rfl := Except.ok.inj h
    obtain rfl := List.mem_singleton.mp hf
    exact laidOut_ofContent _ _ _

end

/-- **What is taken in.**  All files of an upload are laid out.  An upload that is
    no archive gives exactly one, whose path is its name; it is sound just if the
    name of the upload is not empty and does not end in `/`.  The files of an
    archive are all sound just if none of its entries has the empty name. -/
theorem ofUpload_sound_iff (limit : Nat) (name : Text) (bytes : Bytes) :
    (∀ files, ofUpload limit name bytes = .ok files → ∀ f ∈ files, f.LaidOut limit) ∧
    (Archive.isArchiveName name = false →
      ∃ f, ofUpload limit name bytes = .ok [f] ∧ f.path = f.name ∧
        (f.Sound limit ↔ name ≠ [] ∧ name.getLast? ≠ some '/')) ∧
    (Archive.isArchiveName name = true → ∀ files, ofUpload limit name bytes = .ok files →
      ∃ entries, Archive.openEntries bytes = .ok entries ∧
        ((∀ f ∈ files, f.Sound limit) ↔ ∀ e ∈ entries, e.name ≠ [])) := by
  refine ⟨fun files h => laidOut_of_ofUpload h, fun hname => ?_, fun hname files h => ?_⟩
  · refine ⟨_, ofUpload_single hname, (Text.lastPiece_lastPiece '/' name).symm, ?_⟩
    rw [sound_ofContent_iff, ← not_or, ← not_or, ← Text.lastPiece_eq_nil_iff,
      ← Text.lastPiece_eq_nil_iff, Text.lastPiece_lastPiece]
  · obtain ⟨read, hread, rfl⟩ := of_ofUpload_archive hname h
    obtain ⟨entries, ho, hiff⟩ := Archive.forall_path_iff hread
    refine ⟨entries, ho, ?_⟩
    rw [← hiff]
    simp only [List.forall_mem_map, sound_ofContent_iff]

/-- The files of an archive with a file in a directory. -/
theorem ofUpload_sound_nested :
    ∃ files, ofUpload 64 "a.zip" (Archive.emptyFiles ["src/a.rs", "b.txt"]) = .ok files ∧
      files.map (·.name) = ["a.rs".toList, "b.txt".toList] ∧ ∀ f ∈ files, f.Sound 64 := by
  have h : ofUpload 64 "a.zip" (Archive.emptyFiles ["src/a.rs", "b.txt"]) =
      .ok [ofContent 64 "src/a.rs" [], ofContent 64 "b.txt" []] :=
    Failure.eq_ok_of_toOption (by decide +kernel)
  obtain ⟨entries, ho, hiff⟩ := (ofUpload_sound_iff 64 "a.zip" _).2.2 (by decide) _ h
  have hnames : (Archive.openEntries (Archive.emptyFiles ["src/a.rs", "b.txt"])).toOption.all
      (fun entries => entries.all (·.name ≠ [])) = true := by decide +kernel
  have hnamed := Failure.of_all_toOption hnames ho
  exact ⟨_, h, by decide, hiff.mpr (by simpa using hnamed)⟩

/-- Not all files that are taken in are sound: an archive may store one under the
    empty name, and the name of a single file is empty if that of the upload ends
    in `/`. -/
theorem not_forall_ofUpload_sound :
    (¬ ∀ (limit : Nat) (name : Text) (bytes : Bytes) (files : List SourceFile),
      Archive.isArchiveName name = true → ofUpload limit name bytes = .ok files →
        ∀ f ∈ files, f.Sound limit) ∧
    ¬ ∀ (limit : Nat) (name : Text) (bytes : Bytes) (files : List SourceFile),
      Archive.isArchiveName name = false → ofUpload limit name bytes = .ok files →
        ∀ f ∈ files, f.Sound limit := by
  constructor
  · intro h
    have hupload : ofUpload 64 "a.zip" (Archive.emptyFiles [""]) = .ok [ofContent 64 "" []] :=
      Failure.eq_ok_of_toOption (by decide +kernel)
    exact (h _ _ _ _ (by decide) hupload _ (List.mem_singleton_self _)).name_ne_nil rfl
  · intro h
    have hupload : ofUpload 64 "dir/" [] = .ok [ofContent 64 "" []] := rfl
    exact (h _ _ _ _ (by decide) hupload _ (List.mem_singleton_self _)).name_ne_nil rfl

end SourceFile

end Neaten
