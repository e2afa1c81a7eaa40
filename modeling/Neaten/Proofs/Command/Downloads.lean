import Neaten.Command.Readme
import Neaten.Command.Serve
import Neaten.Proofs.Command.FormatOutput
import Neaten.Proofs.Server.LatestOutcome

/-! # What is printed is what is served

    A file can be laid out and described on the command line, or uploaded to a
    server under its own name.  If both sides go by one configuration, what is
    printed is what the server then offers: the one file, or the files of an
    archive in order and its README.  The commands fail just if the upload does.

    Both sides take in the same files, and nothing after that can fail. -/

namespace Neaten.Command

open Server (Options State Request answer respond ShowsUpload)

/-! ## The commands -/

/-- Lays out the file at a path, or the files of an archive, and prints that. -/
def printFormatted (place : Place) (fs : FileSystem) (path : Text) : Outcome :=
  format place ⟨path, none⟩ fs

/-- Prints the README of the archive at a path, under the title of its name. -/
def printReadme (place : Place) (fs : FileSystem) (path : Text) : Outcome :=
  readme place ⟨path, none, true, none⟩ fs

/-- Prints a text that is made of what could be had, and leaves the files alone. -/
def Outcome.printing {α : Type} (fs : FileSystem) (words : α → Text) :
    Except Failure α → Outcome
  | .ok a => .done (words a) fs
  | .error f => .failed f fs

theorem Outcome.not_succeeded_printing_iff {α : Type} {fs : FileSystem} {words : α → Text}
    {x : Except Failure α} : (printing fs words x).succeeded = false ↔ ∃ f, x = .error f := by
  cases x with
  | ok a =>
    constructor
    · intro hfailed
      cases hfailed
    · rintro ⟨f, hf⟩
      cases hf
  | error f => exact ⟨fun _ => ⟨f, rfl⟩, fun _ => rfl⟩

section

variable {place : Place} {fs : FileSystem} {path name : Text} {bytes : Bytes} {config : Config}
  (hconfig : settings place fs = .ok config) (hname : Path.fileName? path = some name)
  (hread : fs.read place.cwd path = .ok bytes)

include hname hread

/-- A file is taken in as an upload of it is. -/
theorem takeIn_eq_ofUpload (limit : Nat) :
    takeIn limit place fs path = SourceFile.ofUpload limit name bytes := by
  rw [takeIn, hread, hname]

include hconfig

/-- The files are printed, if they can be taken in. -/
theorem printFormatted_eq :
    printFormatted place fs path =
      .printing fs (listing (Archive.isArchiveName name))
        (SourceFile.ofUpload config.indentLimit name bytes) := by
  have harchive : isArchivePath path = Archive.isArchiveName name := by
    rw [isArchivePath, hname]
    rfl
  have hfiles : FormatRequest.files ⟨path, none⟩ place fs =
      SourceFile.ofUpload config.indentLimit name bytes := by
    rw [FormatRequest.files, hconfig]
    exact takeIn_eq_ofUpload hname hread config.indentLimit
  show format place ⟨path, none⟩ fs = _
  rw [format, hfiles, ← harchive]
  cases SourceFile.ofUpload config.indentLimit name bytes with
  | ok files => rfl
  | error f => rfl

/-- The README of an archive is printed, if its files can be taken in. -/
theorem printReadme_eq (harchive : Archive.isArchiveName name = true) :
    printReadme place fs path =
      .printing fs (Readme.textOfArchive name)
        (SourceFile.ofUpload config.indentLimit name bytes) := by
  -- No title is given, so the one that the name gives is taken, as for an upload.
  have hnamed : ReadmeRequest.archiveName ⟨path, none, true, none⟩ = .ok name := by
    rw [ReadmeRequest.archiveName, hname]
    exact if_pos harchive
  have hdescribed : ∀ files, ReadmeRequest.describe ⟨path, none, true, none⟩ name files =
      .ok (Readme.textOfArchive name files) := by
    intro files
    show Failure.within (.describing name) (Readme.ofArchive name files) = _
    rw [Readme.ofArchive_eq_ok]
    rfl
  have htaken := takeIn_eq_ofUpload hname hread config.indentLimit
  have hprepared : ReadmeRequest.prepare ⟨path, none, true, none⟩ place fs =
      (fun files => (config, files, Readme.textOfArchive name files)) <$>
        SourceFile.ofUpload config.indentLimit name bytes := by
    rw [ReadmeRequest.prepare, hnamed]
    show (settings place fs >>= _) = _
    rw [hconfig]
    show (takeIn config.indentLimit place fs path >>= _) = _
    simp only [htaken, hdescribed]
    cases SourceFile.ofUpload config.indentLimit name bytes with
    | ok files => rfl
    | error f => rfl
  show readme place ⟨path, none, true, none⟩ fs = _
  rw [readme, hprepared]
  cases SourceFile.ofUpload config.indentLimit name bytes with
  | ok files => rfl
  | error f => rfl

end

/-! ## The server -/

/-- What the answers of a server depend on, given what it goes by. -/
def ServerSettings.options (s : ServerSettings) : Options := ⟨s.indentLimit, s.crossOrigin⟩

/-- What a server serves of the files of an archive, each under its path. -/
def servedListing (o : Options) (s : State) (files : List SourceFile) : Bytes :=
  files.zipIdx.flatMap fun (f, i) =>
    Utf8.encode ("==> " ++ f.path ++ " <==\n") ++ (answer o s (.numbered i)).body ++
      Utf8.encode "\n\n"

section

variable {o : Options} {s : State} {token : UInt64} {u : Upload}

/-- The text to show of a file is what is served of it. -/
theorem body_answer_numbered (h : ShowsUpload o s token u) {i : Nat} {f : SourceFile}
    (hf : u.files[i]? = some f) : (answer o s (.numbered i)).body = Utf8.encode f.shownText := by
  obtain ⟨hi, rfl⟩ := List.getElem?_eq_some_iff.mp hf
  obtain ⟨text, htext, hsays⟩ := h.file i hi
  have hshown : u.files[i].shownText = text := by
    rw [SourceFile.shownText, htext]
    rfl
  rw [hshown]
  exact hsays.body

/-- The files of an archive are printed as they are served. -/
theorem encode_listing (h : ShowsUpload o s token u) :
    Utf8.encode (listing true u.files) = servedListing o s u.files := by
  -- Where a file stands in the list is the number it is served under.
  calc Utf8.encode (listing true u.files)
      = u.files.flatMap fun f => Utf8.encode (printSection f) := List.flatMap_assoc
    _ = (u.files.zipIdx.map Prod.fst).flatMap fun f => Utf8.encode (printSection f) := by
      rw [List.zipIdx_map_fst]
    _ = u.files.zipIdx.flatMap fun p => Utf8.encode (printSection p.1) := List.flatMap_map _ _ _
    _ = servedListing o s u.files := by
      apply List.flatMap_congr
      rintro ⟨f, i⟩ hmem
      have hserved := body_answer_numbered h (List.mem_zipIdx_iff_getElem?.mp hmem)
      show Utf8.encode ("==> " ++ f.path ++ " <==\n" ++ f.shownText ++ "\n\n") =
        Utf8.encode ("==> " ++ f.path ++ " <==\n") ++ (answer o s (.numbered i)).body ++
          Utf8.encode "\n\n"
      rw [hserved, Utf8.encode_append, Utf8.encode_append]

variable {request : Request} {name : Text} {bytes : Bytes} (hupload : request.Uploads name bytes)

include hupload

/-- An upload is refused just if its files cannot be taken in. -/
theorem status_respond_eq_iff :
    (respond o request s).1.status = 422 ↔
      ∃ f, SourceFile.ofUpload o.limit name bytes = .error f := by
  rw [Server.respond_of_uploads hupload, Server.takeUpload, Upload.process_eq]
  cases SourceFile.ofUpload o.limit name bytes with
  | error f => exact ⟨fun _ => ⟨f, rfl⟩, fun _ => rfl⟩
  | ok files =>
    constructor
    · intro hrefused
      exact absurd (show (200 : Nat) = 422 from hrefused) (by decide)
    · rintro ⟨f, hf⟩
      cases hf

/-- The first upload to a server can be read there. -/
theorem showsUpload_respond {files : List SourceFile}
    (h : SourceFile.ofUpload o.limit name bytes = .ok files) :
    ShowsUpload o (respond o request {}).2 1 (.ofFiles name files) := by
  -- A new server remembers no uploads, and this is the one after none.
  have hsome := Request.upload?_eq_some_iff.mpr hupload
  have hremembers := (Server.remembers_start o.limit).respond request
  rw [hsome] at hremembers
  have hone := hremembers (by decide : 1 < UInt64.size)
  have htoken : (respond o request {}).2.issued = 1 := UInt64.toNat_inj.mp hone.issued
  have hshows := hone.showsUpload rfl (Upload.process_eq_ok_iff.mpr ⟨files, h, rfl⟩)
  rw [htoken] at hshows
  exact hshows

end

/-! ## The theorem -/

/-- **What is printed is what is served.**  Let a configuration be read and a file
    under a name, and let a new server that goes by that configuration take the
    bytes of the file under that name.  Then a single file is printed as the file
    that is served, with one line break.  An archive that can be laid out is
    printed as the files that are served, in order, and its README as the one
    that is served.  The commands fail just if the upload fails. -/
theorem prints_what_is_served {place : Place} {fs : FileSystem} {path name : Text} {bytes : Bytes}
    {config : Config} (hconfig : settings place fs = .ok config)
    (hname : Path.fileName? path = some name) (hread : fs.read place.cwd path = .ok bytes)
    (serve : ServeRequest) :
    (∃ request : Request, request.Uploads name bytes) ∧
    ∀ request : Request, request.Uploads name bytes →
      let o := (serve.settle config).options
      let s := (respond o request {}).2
      (Archive.isArchiveName name = false →
        (answer o s (.numbered 0)).status = 200 ∧
        Utf8.encode (printFormatted place fs path).printed =
          (answer o s (.numbered 0)).body ++ Utf8.encode "\n") ∧
      (Archive.isArchiveName name = true → (printFormatted place fs path).succeeded = true →
        ∃ u, ShowsUpload o s 1 u ∧
          Utf8.encode (printFormatted place fs path).printed = servedListing o s u.files ∧
          (answer o s .readme).status = 200 ∧
          Utf8.encode (printReadme place fs path).printed = (answer o s .readme).body) ∧
      ((printFormatted place fs path).succeeded = false ↔
        (respond o request {}).1.status = 422) ∧
      (Archive.isArchiveName name = true →
        ((printReadme place fs path).succeeded = false ↔
          (respond o request {}).1.status = 422)) := by
  refine ⟨⟨_, Server.uploads_post name bytes⟩, ?_⟩
  intro request hupload o s
  have hlimit : o.limit = config.indentLimit := rfl
  have hstatus := status_respond_eq_iff (o := o) (s := {}) hupload
  rw [hlimit] at hstatus
  have hformatted := printFormatted_eq hconfig hname hread
  refine ⟨?_, ?_, ?_, ?_⟩
  · intro hsingle
    -- A single file is always taken in, and then served under the number zero.
    have htaken : SourceFile.ofUpload config.indentLimit name bytes = .ok [_] :=
      SourceFile.ofUpload_single hsingle
    have hshows : ShowsUpload o s 1 _ := showsUpload_respond hupload htaken
    obtain ⟨text, -, hserved⟩ := hshows.file 0 Nat.zero_lt_one
    refine ⟨hserved.status, ?_⟩
    rw [hformatted, htaken, hsingle, body_answer_numbered hshows (i := 0) rfl,
      ← Utf8.encode_append]
    exact congrArg Utf8.encode (List.append_nil _)
  · intro harchive hok
    cases htaken : SourceFile.ofUpload config.indentLimit name bytes with
    | error f =>
      rw [hformatted, htaken] at hok
      cases hok
    | ok files =>
      have hshows : ShowsUpload o s 1 (.ofFiles name files) := showsUpload_respond hupload htaken
      obtain ⟨text, htext, hserved⟩ := hshows.readme harchive
      have hreadme : Readme.textOfArchive name files = text := by
        rw [Upload.ofFiles, harchive] at htext
        exact Option.some.inj htext
      refine ⟨_, hshows, ?_, hserved.status, ?_⟩
      · rw [hformatted, htaken, harchive]
        exact encode_listing hshows
      · rw [printReadme_eq hconfig hname hread harchive, htaken, hserved.body, ← hreadme]
        rfl
  · rw [hstatus, hformatted]
    exact Outcome.not_succeeded_printing_iff
  · intro harchive
    rw [hstatus, printReadme_eq hconfig hname hread harchive]
    exact Outcome.not_succeeded_printing_iff

/-- The text that two files of one name are printed as. -/
def twoSections : Text := "==> a.txt <==\nx\n\n==> b/a.txt <==\ny\n\n"

/-- Two files of an archive are served as they are printed. -/
theorem prints_what_is_served_twoDirectories :
    ∃ config bytes, settings workPlace twoDirectories = .ok config ∧
      Path.fileName? "demo.zip" = some "demo.zip".toList ∧
      twoDirectories.read workPlace.cwd "demo.zip" = .ok bytes ∧
      ∀ request : Request, request.Uploads "demo.zip" bytes →
        let o := (ServeRequest.settle {} config).options
        let s := (respond o request {}).2
        (respond o request {}).1.status ≠ 422 ∧
          ∃ u, ShowsUpload o s 1 u ∧ servedListing o s u.files = Utf8.encode twoSections := by
  have harchive : Archive.isArchiveName "demo.zip" = true := by decide
  have hname : Path.fileName? "demo.zip" = some "demo.zip".toList := by decide
  have hok : (printFormatted workPlace twoDirectories "demo.zip").succeeded = true := by
    decide +kernel
  have hprinted : (printFormatted workPlace twoDirectories "demo.zip").printed = twoSections := by
    decide +kernel
  obtain ⟨config, hconfig, -⟩ := Failure.exists_of_any_toOption
    (by decide +kernel : (settings workPlace twoDirectories).toOption.any (fun _ => true) = true)
  obtain ⟨bytes, hread, -⟩ := Failure.exists_of_any_toOption
    (by decide +kernel : (twoDirectories.read workPlace.cwd "demo.zip").toOption.any
      (fun _ => true) = true)
  refine ⟨config, bytes, hconfig, hname, hread, ?_⟩
  intro request hupload o s
  have hserved := (prints_what_is_served hconfig hname hread {}).2 request hupload
  obtain ⟨-, harchived, hrefused, -⟩ := hserved
  obtain ⟨u, hshows, hlisting, -⟩ := harchived harchive hok
  refine ⟨?_, u, hshows, ?_⟩
  · intro hstatus
    rw [hrefused.mpr hstatus] at hok
    cases hok
  · rw [← hlisting, hprinted]

end Neaten.Command
