import Mathlib.Data.Finset.Card
import Neaten.Archive.Writer
import Neaten.Command.Format
import Neaten.Proofs.FileSystem.Changes
import Neaten.Proofs.Text.Encoding
import Neaten.Proofs.Upload.SourceFiles

/-! # What laying out saves

    With a directory given, laying out saves at paths that go down from the
    directory by names, and nowhere else.

    Files of an archive are kept under the directory just if their paths go
    down by different names: the texts of files with the same names are saved
    in one place, and the last of them stays. -/

namespace Neaten.Command

open Failure (of_all_toOption)
open FileSystem (ChangesOnly OnAnyWay AtAnyEnd)

/-! ## Where files are saved -/

/-- A path that goes down from a directory by names, at least one. -/
def IsBelow (directory path : Text) : Prop :=
  ∃ names ≠ [], (∀ name ∈ names, Path.IsName name) ∧ path = names.foldl Path.join directory

/-- A path goes below a directory by the names it consists of. -/
theorem of_below_eq_ok {directory path t : Text} (h : Path.below directory path = .ok t) :
    ∃ names ≠ [], (∀ name ∈ names, Path.IsName name) ∧
      Path.downward? (Path.components path) = some names ∧ t = names.foldl Path.join directory := by
  obtain ⟨names, hne, hnames, ht⟩ := Path.below_eq_ok_iff.mp h
  refine ⟨names, hne, fun name hmem => ?_, hnames, ht⟩
  exact Path.isName_of_mem_components (Path.normal_mem_of_downward? hnames hmem)

/-- What goes down from a directory ends below its location. -/
theorem IsBelow.locate {directory path : Text} (h : IsBelow directory path) (cwd : Location) :
    ∃ names ≠ [], FileSystem.locate cwd path = FileSystem.locate cwd directory ++ names := by
  obtain ⟨names, hne, hnames, rfl⟩ := h
  exact ⟨names, hne, FileSystem.locate_foldl_join cwd directory hnames⟩

/-- The name that a single file is offered under can stand for itself. -/
theorem isName_formattedName {name : Text} (h : '/' ∉ name) : Path.IsName (formattedName name) where
  ne_nil := List.cons_ne_nil _ _
  no_separator := by
    intro hmem
    rcases List.mem_append.mp hmem with hfront | hname
    · exact absurd hfront (by decide)
    · exact h hname
  ne_current := fun heq => by cases congrArg List.head? heq
  ne_parent := fun heq => by cases congrArg List.head? heq

theorem isBelow_target {isArchive : Bool} {directory path : Text} {f : SourceFile}
    (hname : '/' ∉ f.name) (h : target isArchive directory f = .ok path) :
    IsBelow directory path := by
  unfold target at h
  split at h
  · obtain ⟨names, hne, hnames, -, ht⟩ := of_below_eq_ok h
    exact ⟨names, hne, hnames, ht⟩
  · obtain rfl := Except.ok.inj h
    refine ⟨[formattedName f.name], List.cons_ne_nil _ _, ?_, rfl⟩
    intro name hmem
    obtain rfl := List.mem_singleton.mp hmem
    exact isName_formattedName hname

/-! ## The files of a request -/

theorem exists_of_takeIn {limit : Nat} {place : Place} {fs : FileSystem} {path : Text}
    {files : List SourceFile} (h : takeIn limit place fs path = .ok files) :
    ∃ name bytes, SourceFile.ofUpload limit name bytes = .ok files := by
  unfold takeIn at h
  split at h
  · cases h
  · next bytes _ =>
    split at h
    · cases h
    · next name _ => exact ⟨name, bytes, h⟩

/-- The name of a file that was taken in holds no separator. -/
theorem not_mem_name {request : FormatRequest} {place : Place} {fs : FileSystem}
    {files : List SourceFile} (h : request.files place fs = .ok files) {f : SourceFile}
    (hf : f ∈ files) : '/' ∉ f.name := by
  unfold FormatRequest.files at h
  cases hconfig : settings place fs with
  | error e =>
    rw [hconfig] at h
    cases h
  | ok config =>
    rw [hconfig] at h
    obtain ⟨name, bytes, hupload⟩ := exists_of_takeIn h
    exact (SourceFile.laidOut_of_ofUpload hupload f hf).no_separator

/-- The path of the target of a file, if it has one. -/
def targetPath (isArchive : Bool) (directory : Text) (f : SourceFile) : Text :=
  (target isArchive directory f).toOption.getD []

theorem targetPath_eq {isArchive : Bool} {directory path : Text} {f : SourceFile}
    (h : target isArchive directory f = .ok path) : targetPath isArchive directory f = path := by
  rw [targetPath, h]
  rfl

/-- If there is a target for every file, each is saved at its own, in order, with
    its own text. -/
theorem of_targets_eq_ok {isArchive : Bool} {directory : Text} {files : List SourceFile}
    {pairs : List (Text × Text)} (h : targets isArchive directory files = .ok pairs) :
    (∀ f ∈ files, target isArchive directory f = .ok (targetPath isArchive directory f)) ∧
      pairs = files.map fun f => (targetPath isArchive directory f, f.shownText) := by
  unfold targets at h
  induction files generalizing pairs with
  | nil =>
    obtain rfl : [] = pairs := Except.ok.inj h
    exact ⟨by simp, rfl⟩
  | cons f rest ih =>
    rw [List.mapM_cons] at h
    cases hf : target isArchive directory f with
    | error e =>
      rw [hf] at h
      cases h
    | ok path =>
      rw [hf] at h
      cases hrest : rest.mapM fun f => (·, f.shownText) <$> target isArchive directory f with
      | error e =>
        rw [hrest] at h
        cases h
      | ok more =>
        rw [hrest] at h
        obtain rfl : (path, f.shownText) :: more = pairs := Except.ok.inj h
        obtain ⟨hall, rfl⟩ := ih hrest
        have hpath := targetPath_eq hf
        refine ⟨List.forall_mem_cons.mpr ⟨by rw [hpath, hf], hall⟩, ?_⟩
        rw [List.map_cons, hpath]

/-! ## Only below the directory -/

/-- The paths that a request saves at under a directory: none if there is no
    telling its files or the place of one of them. -/
def savedPaths (place : Place) (fs : FileSystem) (request : FormatRequest) (directory : Text) :
    List Text :=
  match request.files place fs with
  | .error _ => []
  | .ok files =>
    match targets (isArchivePath request.input) directory files with
    | .error _ => []
    | .ok pairs => pairs.map Prod.fst

theorem isBelow_savedPaths {place : Place} {fs : FileSystem} {request : FormatRequest}
    {directory path : Text} (h : path ∈ savedPaths place fs request directory) :
    IsBelow directory path := by
  unfold savedPaths at h
  split at h
  · cases h
  · next files hfiles =>
    split at h
    · cases h
    · next pairs htargets =>
      obtain ⟨htarget, rfl⟩ := of_targets_eq_ok htargets
      rw [List.map_map] at h
      obtain ⟨f, hf, rfl⟩ := List.mem_map.mp h
      exact isBelow_target (not_mem_name hfiles hf) (htarget f hf)

/-- **Only below the directory.**  Whether laying out succeeds or fails, the
    paths that it saves at go down from the directory by names, so they lead
    below it.  It writes no file but those that these paths lead to, makes no
    directory but on the way there, and leaves everything else as it is. -/
theorem format_changes_below (place : Place) (input directory : Text) (fs : FileSystem) :
    (∀ path ∈ savedPaths place fs ⟨input, some directory⟩ directory, IsBelow directory path ∧
        ∃ names ≠ [], FileSystem.locate place.cwd path =
          FileSystem.locate place.cwd directory ++ names) ∧
      ChangesOnly (OnAnyWay place.cwd (savedPaths place fs ⟨input, some directory⟩ directory))
        (AtAnyEnd place.cwd (savedPaths place fs ⟨input, some directory⟩ directory)) fs
        (format place ⟨input, some directory⟩ fs).files := by
  refine ⟨fun path hpath => ?_, ?_⟩
  · have hbelow := isBelow_savedPaths hpath
    exact ⟨hbelow, hbelow.locate place.cwd⟩
  -- Nothing is saved before every file has its target.
  unfold format savedPaths
  dsimp only
  cases hfiles : FormatRequest.files ⟨input, some directory⟩ place fs with
  | error e => exact .refl fs
  | ok files =>
    dsimp only
    unfold saveIn
    cases htargets : targets (isArchivePath input) directory files with
    | error e => exact .refl fs
    | ok pairs =>
      dsimp only
      split
      · next hfailed => exact .of_saveAll hfailed
      · next hsaved => exact .of_saveAll hsaved

/-! ## Files of an archive -/

/-- The names that the path of a file goes down by, if it only goes down. -/
def names? (f : SourceFile) : Option (List Text) := Path.downward? (Path.components f.path)

/-- Where a file of an archive is placed under a directory, if it is. -/
def landing? (place : Place) (directory : Text) (f : SourceFile) : Option Location :=
  (Path.below directory f.path).toOption.map (FileSystem.locate place.cwd)

/-- What the path of a file leads to under a directory holds its text. -/
def Holds (place : Place) (directory : Text) (fs : FileSystem) (f : SourceFile) : Prop :=
  ∃ path, Path.below directory f.path = .ok path ∧
    fs.read place.cwd path = .ok (Utf8.encode f.shownText)

/-- A run has kept the files of an archive under a directory: each is held at
    its own path, and as many are announced as there are different places. -/
structure KeepsFiles (place : Place) (directory : Text) (files : List SourceFile) (o : Outcome) :
    Prop where
  held : ∀ f ∈ files, Holds place directory o.files f
  counted : o.printed =
    savedMessage (files.map (landing? place directory)).toFinset.card directory

/-! ### Places and names -/

/-- A file is placed below the directory by its names. -/
theorem locate_of_below_eq_ok {directory path : Text} {f : SourceFile}
    (h : Path.below directory f.path = .ok path) (cwd : Location) :
    ∃ names, names? f = some names ∧ path = names.foldl Path.join directory ∧
      FileSystem.locate cwd path = FileSystem.locate cwd directory ++ names := by
  obtain ⟨names, -, hall, hnames, rfl⟩ := of_below_eq_ok h
  exact ⟨names, hnames, rfl, FileSystem.locate_foldl_join cwd directory hall⟩

theorem landing?_eq {directory path : Text} {f : SourceFile}
    (h : Path.below directory f.path = .ok path) (place : Place) :
    landing? place directory f =
      (names? f).map (FileSystem.locate place.cwd directory ++ ·) := by
  obtain ⟨names, hnames, -, hlocate⟩ := locate_of_below_eq_ok h place.cwd
  rw [landing?, h, hnames, Option.map_some, ← hlocate]
  rfl

/-- As many places as files: that is so just if no two files have the same
    names. -/
theorem card_landing_eq_length_iff {directory : Text} {files : List SourceFile}
    (hplaced : ∀ f ∈ files, Path.below directory f.path = .ok (targetPath true directory f))
    (place : Place) :
    (files.map (landing? place directory)).toFinset.card = files.length ↔
      (files.map names?).Nodup := by
  have hbelow : Function.Injective (FileSystem.locate place.cwd directory ++ ·) :=
    List.append_right_injective _
  have hlanding : files.map (landing? place directory) =
      (files.map names?).map (Option.map (FileSystem.locate place.cwd directory ++ ·)) := by
    rw [List.map_map]
    exact List.map_congr_left fun f hf => landing?_eq (hplaced f hf) place
  calc (files.map (landing? place directory)).toFinset.card = files.length
      ↔ (files.map (landing? place directory)).toFinset.card =
          (files.map (landing? place directory)).length := by rw [List.length_map]
    _ ↔ (files.map (landing? place directory)).Nodup := Multiset.toFinset_card_eq_card_iff_nodup
    _ ↔ (files.map names?).Nodup := by
      rw [hlanding, List.nodup_map_iff (Option.map_injective hbelow)]

/-! ### Texts -/

theorem encode_injective {s t : Text} (h : Utf8.encode s = Utf8.encode t) : s = t := by
  rw [← Utf8.decodeLossy_encode s, h, Utf8.decodeLossy_encode]

section

variable {place : Place} {directory : Text} {fs fs' : FileSystem} {files : List SourceFile}
  (hplaced : ∀ f ∈ files, Path.below directory f.path = .ok (targetPath true directory f))
  (hsaved : fs.saveAll place.cwd
    (files.map fun f => (targetPath true directory f, f.shownText)) = (.ok (), fs'))

include hplaced hsaved

/-- Once all files are saved, the path of each gives the text of one with the
    same names. -/
theorem exists_read_targetPath {f : SourceFile} (hf : f ∈ files) :
    ∃ g ∈ files, names? g = names? f ∧
      fs'.read place.cwd (targetPath true directory f) = .ok (Utf8.encode g.shownText) := by
  have hmem : (targetPath true directory f, f.shownText) ∈
      files.map fun f => (targetPath true directory f, f.shownText) :=
    List.mem_map_of_mem hf
  obtain ⟨text, hlast, hread⟩ := FileSystem.read_saveAll hsaved hmem
  obtain ⟨path, hpair, hplace⟩ := FileSystem.exists_of_lastSaved? hlast
  obtain ⟨g, hg, hpair⟩ := List.mem_map.mp hpair
  obtain ⟨rfl, rfl⟩ := Prod.mk.inj hpair
  -- The two are saved in one place, so their names are the same.
  obtain ⟨ns, hns, -, hnsl⟩ := locate_of_below_eq_ok (hplaced f hf) place.cwd
  obtain ⟨ms, hms, -, hmsl⟩ := locate_of_below_eq_ok (hplaced g hg) place.cwd
  rw [hnsl, hmsl] at hplace
  exact ⟨g, hg, by rw [hns, hms, List.append_cancel_left hplace], hread⟩

/-- Once all files are saved, each is held just if files with the same names
    have the same text. -/
theorem forall_holds_iff :
    (∀ f ∈ files, Holds place directory fs' f) ↔
      ∀ f ∈ files, ∀ g ∈ files, names? f = names? g → f.shownText = g.shownText := by
  constructor
  · intro hheld f hf g hg hnames
    obtain ⟨path, hpath, hread⟩ := hheld f hf
    obtain ⟨other, hother, hreadOther⟩ := hheld g hg
    have hsame : path = other := by
      obtain ⟨ns, hns, rfl, -⟩ := locate_of_below_eq_ok hpath place.cwd
      obtain ⟨ms, hms, rfl, -⟩ := locate_of_below_eq_ok hother place.cwd
      rw [Option.some.inj (hns.symm.trans (hnames.trans hms))]
    rw [hsame, hreadOther] at hread
    exact (encode_injective (Except.ok.inj hread)).symm
  · intro hsame f hf
    obtain ⟨g, hg, hnames, hread⟩ := exists_read_targetPath hplaced hsaved hf
    rw [hsame g hg f hf hnames] at hread
    exact ⟨_, hplaced f hf, hread⟩

end

/-! ### The whole run -/

theorem decimal_injective {n m : Nat} (h : Text.decimal n = Text.decimal m) : n = m := by
  rw [← Nat.ofDigitChars_ten_toDigits (n := n), ← Nat.ofDigitChars_ten_toDigits (n := m)]
  exact congrArg (Nat.ofDigitChars 10 · 0) h

/-- Different numbers are announced differently. -/
theorem savedMessage_inj {n m : Nat} {directory : Text} :
    savedMessage n directory = savedMessage m directory ↔ n = m := by
  refine ⟨fun h => ?_, fun h => by rw [h]⟩
  unfold savedMessage at h
  have hend := List.append_cancel_right (List.append_cancel_right (List.append_cancel_right h))
  exact decimal_injective (List.append_cancel_left hend)

/-- A run on an archive that succeeds has found a place for every file, has
    saved all of them, and announces their number. -/
theorem of_format_succeeded {place : Place} {input directory : Text} {fs : FileSystem}
    (harchive : isArchivePath input = true)
    (hok : (format place ⟨input, some directory⟩ fs).succeeded = true) :
    ∃ files, FormatRequest.files ⟨input, some directory⟩ place fs = .ok files ∧
      (∀ f ∈ files, Path.below directory f.path = .ok (targetPath true directory f)) ∧
      fs.saveAll place.cwd (files.map fun f => (targetPath true directory f, f.shownText)) =
        (.ok (), (format place ⟨input, some directory⟩ fs).files) ∧
      (format place ⟨input, some directory⟩ fs).printed =
        savedMessage files.length directory := by
  unfold format at hok ⊢
  dsimp only at hok ⊢
  rw [harchive] at hok ⊢
  cases hfiles : FormatRequest.files ⟨input, some directory⟩ place fs with
  | error e =>
    rw [hfiles] at hok
    cases hok
  | ok files =>
    rw [hfiles] at hok
    dsimp only at hok ⊢
    refine ⟨files, rfl, ?_⟩
    unfold saveIn at hok ⊢
    cases htargets : targets true directory files with
    | error e =>
      rw [htargets] at hok
      cases hok
    | ok pairs =>
      rw [htargets] at hok
      dsimp only at hok ⊢
      obtain ⟨hplaced, rfl⟩ := of_targets_eq_ok htargets
      refine ⟨hplaced, ?_⟩
      split at hok
      · cases hok
      · next fs' hsaved =>
        rw [hsaved]
        exact ⟨rfl, by rw [List.length_map]; rfl⟩

/-- **When an archive is kept.**  A run on an archive that succeeds has kept its
    files just if no two of them have the same names.  Each is held at its own
    path just if those with the same names have the same text. -/
theorem keepsFiles_iff {place : Place} {input directory : Text} {fs : FileSystem}
    (harchive : isArchivePath input = true)
    (hok : (format place ⟨input, some directory⟩ fs).succeeded = true) :
    ∃ files, FormatRequest.files ⟨input, some directory⟩ place fs = .ok files ∧
      (KeepsFiles place directory files (format place ⟨input, some directory⟩ fs) ↔
        (files.map names?).Nodup) ∧
      ((∀ f ∈ files, Holds place directory (format place ⟨input, some directory⟩ fs).files f) ↔
        ∀ f ∈ files, ∀ g ∈ files, names? f = names? g → f.shownText = g.shownText) := by
  obtain ⟨files, hfiles, hplaced, hsaved, hprinted⟩ := of_format_succeeded harchive hok
  have hheld := forall_holds_iff hplaced hsaved
  refine ⟨files, hfiles, ⟨fun hkept => ?_, fun hnodup => ⟨hheld.mpr ?_, ?_⟩⟩, hheld⟩
  · have hcount := savedMessage_inj.mp (hprinted.symm.trans hkept.counted)
    exact (card_landing_eq_length_iff hplaced place).mp hcount.symm
  · intro f hf g hg hnames
    rw [List.inj_on_of_nodup_map hnodup hf hg hnames]
  · rw [hprinted, (card_landing_eq_length_iff hplaced place).mpr hnodup]

/-! ### Runs -/

/-- A directory with nothing but an archive in it. -/
def besideArchive (members : List Archive.Member) : FileSystem where
  entries := [(["work"], .directory), (["work", "demo.zip"], .file (Archive.write members))]

/-- Works in that directory. -/
def workPlace : Place := ⟨["work"], "/home", none⟩

/-- Lays out the archive into a directory that is yet to be made. -/
def demoRequest : FormatRequest := ⟨"demo.zip", some "out"⟩

/-- Files of the same name in two directories. -/
def twoDirectories : FileSystem := besideArchive [("a.txt", [120]), ("b/a.txt", [121])]

/-- Both files are kept. -/
theorem keepsFiles_twoDirectories :
    isArchivePath demoRequest.input = true ∧
      (format workPlace demoRequest twoDirectories).succeeded = true ∧
      ∃ files, demoRequest.files workPlace twoDirectories = .ok files ∧
        KeepsFiles workPlace "out" files (format workPlace demoRequest twoDirectories) := by
  have harchive : isArchivePath demoRequest.input = true := by decide
  have hok : (format workPlace demoRequest twoDirectories).succeeded = true := by decide +kernel
  have hnodup : (demoRequest.files workPlace twoDirectories).toOption.all
      (fun files => (files.map names?).Nodup) = true := by decide +kernel
  obtain ⟨files, hfiles, hkept, -⟩ := keepsFiles_iff harchive hok
  have hdistinct := of_all_toOption hnodup hfiles
  exact ⟨harchive, hok, files, hfiles, hkept.mpr (of_decide_eq_true hdistinct)⟩

/-- Two files with the same names and the same text. -/
def oneText : FileSystem := besideArchive [("a.txt", [120]), ("./a.txt", [120])]

/-- Two files with the same names and different texts. -/
def twoTexts : FileSystem := besideArchive [("a.txt", [120]), ("./a.txt", [121])]

/-- Not every archive is kept: of two files with the same names one text is
    saved, but both are counted, and if their texts differ, one is lost. -/
theorem not_forall_keepsFiles :
    (¬ ∀ (place : Place) (input directory : Text) (fs : FileSystem) (files : List SourceFile),
      isArchivePath input = true →
        FormatRequest.files ⟨input, some directory⟩ place fs = .ok files →
        (format place ⟨input, some directory⟩ fs).succeeded = true →
        KeepsFiles place directory files (format place ⟨input, some directory⟩ fs)) ∧
    ¬ ∀ (place : Place) (input directory : Text) (fs : FileSystem) (files : List SourceFile),
      isArchivePath input = true →
        FormatRequest.files ⟨input, some directory⟩ place fs = .ok files →
        (format place ⟨input, some directory⟩ fs).succeeded = true →
        ∀ f ∈ files, Holds place directory (format place ⟨input, some directory⟩ fs).files f := by
  have harchive : isArchivePath demoRequest.input = true := by decide
  constructor
  · intro h
    have hok : (format workPlace demoRequest oneText).succeeded = true := by decide +kernel
    have hcount : (demoRequest.files workPlace oneText).toOption.all (fun files =>
        (format workPlace demoRequest oneText).printed ≠
          savedMessage (files.map (landing? workPlace "out")).toFinset.card "out") = true := by
      decide +kernel
    obtain ⟨files, hfiles, -⟩ := of_format_succeeded harchive hok
    have hkept := h workPlace _ _ oneText files harchive hfiles hok
    have hmiscounted := of_all_toOption hcount hfiles
    exact of_decide_eq_true hmiscounted hkept.counted
  · intro h
    have hok : (format workPlace demoRequest twoTexts).succeeded = true := by decide +kernel
    have hdiffer : (demoRequest.files workPlace twoTexts).toOption.all (fun files =>
        ¬ ∀ f ∈ files, ∀ g ∈ files, names? f = names? g → f.shownText = g.shownText) = true := by
      decide +kernel
    obtain ⟨files, hfiles, hplaced, hsaved, -⟩ := of_format_succeeded harchive hok
    have hheld := h workPlace _ _ twoTexts files harchive hfiles hok
    have hlost := of_all_toOption hdiffer hfiles
    exact of_decide_eq_true hlost ((forall_holds_iff hplaced hsaved).mp hheld)

end Neaten.Command
