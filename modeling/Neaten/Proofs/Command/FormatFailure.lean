import Neaten.Proofs.Command.FormatOutput
import Neaten.Proofs.FileSystem.FailedSaves

/-! # What a failed run of laying out leaves

    Before anything is saved, the files are taken in and each is given its
    target, so a run that fails until then leaves the file system as it was.

    After that texts are saved one after another.  A run that fails at one of
    them has saved exactly those before it.  The one it fails at leaves no trace,
    unless the directory takes a step up from where no directory was: then
    directories on the way there may stay. -/

namespace Neaten.Command

open FileSystem (ChangesOnly OnTheWay Anchored nowhere)

/-! ## Plans -/

/-- What a request saves under a directory and where, in order, or why there is
    no telling. -/
def FormatRequest.plan (request : FormatRequest) (place : Place) (fs : FileSystem)
    (directory : Text) : Except Failure (List (Text × Text)) := do
  let files ← request.files place fs
  targets (isArchivePath request.input) directory files

section

variable {place : Place} {input directory : Text} {fs : FileSystem}

/-- Without a plan nothing is saved. -/
theorem format_of_plan_eq_error {f : Failure}
    (h : FormatRequest.plan ⟨input, some directory⟩ place fs directory = .error f) :
    format place ⟨input, some directory⟩ fs = .failed f fs := by
  unfold FormatRequest.plan at h
  unfold format
  dsimp only
  cases hfiles : FormatRequest.files ⟨input, some directory⟩ place fs with
  | error e =>
    rw [hfiles] at h
    obtain rfl := Except.error.inj h
    rfl
  | ok files =>
    rw [hfiles] at h
    have htargets : targets (isArchivePath input) directory files = .error f := h
    show saveIn place fs (isArchivePath input) directory files = _
    rw [saveIn, htargets]

theorem of_plan_eq_ok {request : FormatRequest} {pairs : List (Text × Text)}
    (h : request.plan place fs directory = .ok pairs) :
    ∃ files, request.files place fs = .ok files ∧
      targets (isArchivePath request.input) directory files = .ok pairs := by
  unfold FormatRequest.plan at h
  cases hfiles : request.files place fs with
  | error e =>
    rw [hfiles] at h
    cases h
  | ok files =>
    rw [hfiles] at h
    exact ⟨files, rfl, h⟩

/-- A run with a plan can only fail at saving it, and leaves what that leaves. -/
theorem saveAll_of_plan_eq_ok {pairs : List (Text × Text)} {f : Failure}
    (h : FormatRequest.plan ⟨input, some directory⟩ place fs directory = .ok pairs)
    (hfailed : (format place ⟨input, some directory⟩ fs).failure = some f) :
    fs.saveAll place.cwd pairs = (.error f, (format place ⟨input, some directory⟩ fs).files) := by
  obtain ⟨files, hfiles, htargets⟩ := of_plan_eq_ok h
  have hformat : format place ⟨input, some directory⟩ fs =
      saveIn place fs (isArchivePath input) directory files := by
    unfold format
    rw [hfiles]
  rw [hformat] at hfailed ⊢
  dsimp only at htargets
  unfold saveIn at hfailed ⊢
  rw [htargets] at hfailed ⊢
  dsimp only at hfailed ⊢
  cases hsaved : fs.saveAll place.cwd pairs with
  | mk result fs' =>
    rw [hsaved] at hfailed
    cases result with
    | error e =>
      obtain rfl := Option.some.inj hfailed
      rfl
    | ok u => cases hfailed

/-- Whatever is planned goes down from the directory by names. -/
theorem isBelow_of_mem_plan {pairs : List (Text × Text)}
    (h : FormatRequest.plan ⟨input, some directory⟩ place fs directory = .ok pairs)
    {pair : Text × Text} (hmem : pair ∈ pairs) : IsBelow directory pair.1 := by
  obtain ⟨files, hfiles, htargets⟩ := of_plan_eq_ok h
  have hpath : pair.1 ∈ savedPaths place fs ⟨input, some directory⟩ directory := by
    unfold savedPaths
    rw [hfiles]
    dsimp only at htargets ⊢
    rw [htargets]
    exact List.mem_map_of_mem hmem
  exact isBelow_savedPaths hpath

/-! ## Where a run stops -/

/-- What goes down from a directory ends in a name below a path that is anchored
    if the directory is. -/
theorem IsBelow.exists_join {path : Text} (h : IsBelow directory path) {cwd : Location}
    (hdirectory : Anchored fs cwd directory) :
    ∃ base name, path = Path.join base name ∧ Path.IsName name ∧ Anchored fs cwd base := by
  obtain ⟨names, hne, hnames, rfl⟩ := h
  obtain ⟨front, name, rfl⟩ := (List.eq_nil_or_concat names).resolve_left hne
  rw [List.concat_eq_append] at hnames ⊢
  refine ⟨front.foldl Path.join directory, name, by rw [List.foldl_append]; rfl,
    hnames name (by simp), hdirectory.foldl_join fun n hn => ?_⟩
  exact hnames n (List.mem_append_left [name] hn)

/-- **Where a run stops.**  A run that fails without a plan leaves the file system
    as it was.  One that fails with a plan has saved all pairs before the first
    that could not be saved.  If the directory is anchored, that is all it leaves;
    otherwise there may also be directories on the way to the pair it stopped at.

    This is about file systems of files and directories alone: no link or special
    file stands in the way of a run, and no name is too long for it. -/
theorem format_stops {f : Failure} (hfs : fs.WellFormed)
    (hfailed : (format place ⟨input, some directory⟩ fs).failure = some f) :
    (FormatRequest.plan ⟨input, some directory⟩ place fs directory = .error f ∧
      (format place ⟨input, some directory⟩ fs).files = fs) ∨
    ∃ saved path text rest fs₁,
      FormatRequest.plan ⟨input, some directory⟩ place fs directory =
        .ok (saved ++ (path, text) :: rest) ∧
      fs.saveAll place.cwd saved = (.ok (), fs₁) ∧
      (fs₁.save place.cwd path text).1 = .error f ∧
      (Anchored fs place.cwd directory →
        (format place ⟨input, some directory⟩ fs).files = fs₁) ∧
      ChangesOnly (OnTheWay place.cwd path) nowhere fs₁
        (format place ⟨input, some directory⟩ fs).files := by
  cases hplan : FormatRequest.plan ⟨input, some directory⟩ place fs directory with
  | error e =>
    rw [format_of_plan_eq_error hplan] at hfailed ⊢
    obtain rfl := Option.some.inj hfailed
    exact .inl ⟨rfl, rfl⟩
  | ok pairs =>
    obtain ⟨saved, path, text, rest, fs₁, rfl, hsaved, hstop⟩ :=
      FileSystem.exists_of_saveAll_eq_error (saveAll_of_plan_eq_ok hplan hfailed)
    refine .inr ⟨saved, path, text, rest, fs₁, rfl, hsaved, by rw [hstop], fun hanchored => ?_,
      FileSystem.changesOnly_of_save_eq_error hstop⟩
    -- What was saved before keeps the file system well formed and the directory anchored.
    have hfs₁ := (FileSystem.keeps_wellFormed place.cwd).saveAll saved hfs
    have hchanges := FileSystem.changesOnly_saveAll fs place.cwd saved
    rw [hsaved] at hfs₁ hchanges
    have hmem : (path, text) ∈ saved ++ (path, text) :: rest :=
      List.mem_append_right saved List.mem_cons_self
    have hbelow : IsBelow directory path := isBelow_of_mem_plan hplan hmem
    obtain ⟨base, name, rfl, hname, hbase⟩ := hbelow.exists_join (hanchored.changesOnly hchanges)
    exact FileSystem.save_eq_of_error hfs₁ hbase hname hstop

end

/-! ### Runs -/

theorem wellFormed_besideArchive (members : List Archive.Member) :
    (besideArchive members).WellFormed := by
  refine FileSystem.wellFormed_of_entries ?_
  intro entry hentry
  rcases List.mem_cons.mp hentry with rfl | hentry
  · rfl
  · obtain rfl := List.mem_singleton.mp hentry
    rfl

/-- A file whose name is that of a directory of the file after it. -/
def fileAsDirectory : FileSystem := besideArchive [("a", [120]), ("a/b", [121])]

/-- The first file is saved, and the run stops at the second. -/
theorem format_stops_fileAsDirectory :
    fileAsDirectory.WellFormed ∧
      (format workPlace demoRequest fileAsDirectory).failure = some ⟨[], .notADirectory "out/a"⟩ ∧
      ∃ saved fs₁, fileAsDirectory.saveAll workPlace.cwd saved = (.ok (), fs₁) ∧
        (format workPlace demoRequest fileAsDirectory).files = fs₁ := by
  have hfs : fileAsDirectory.WellFormed := wellFormed_besideArchive _
  have hfailed : (format workPlace demoRequest fileAsDirectory).failure =
      some ⟨[], .notADirectory "out/a"⟩ := by decide +kernel
  have hanchored : Anchored fileAsDirectory workPlace.cwd "out" :=
    FileSystem.anchored_of_forall_ne (by decide)
  refine ⟨hfs, hfailed, ?_⟩
  rcases format_stops hfs hfailed with ⟨-, hsame⟩ | ⟨saved, -, -, -, fs₁, -, hsaved, -, hleft, -⟩
  · exact ⟨[], fileAsDirectory, rfl, hsame⟩
  · exact ⟨saved, fs₁, hsaved, hleft hanchored⟩

/-- A directory with nothing but a text in it. -/
def besideText : FileSystem where
  entries := [(["work"], .directory), (["work", "a.txt"], .file [120])]

/-- A run that fails may leave the file system changed: texts that were saved
    before stay, and even a single file can leave directories behind, if the
    directory takes a step up from one that has to be made. -/
theorem not_forall_failed_format_files_eq :
    (¬ ∀ (place : Place) (input directory : Text) (fs : FileSystem), fs.WellFormed →
      (format place ⟨input, some directory⟩ fs).succeeded = false →
        (format place ⟨input, some directory⟩ fs).files = fs) ∧
    ¬ ∀ (place : Place) (input directory : Text) (fs : FileSystem), fs.WellFormed →
      isArchivePath input = false →
      (format place ⟨input, some directory⟩ fs).succeeded = false →
        (format place ⟨input, some directory⟩ fs).files = fs := by
  constructor
  · intro h
    have hfailed : (format workPlace demoRequest fileAsDirectory).succeeded = false := by
      decide +kernel
    have hsaved : ((format workPlace demoRequest fileAsDirectory).files.get?
        ["work", "out", "a"]).isSome = true := by decide +kernel
    have hbefore : (fileAsDirectory.get? ["work", "out", "a"]).isSome = false := by decide +kernel
    have hsame : (format workPlace demoRequest fileAsDirectory).files = fileAsDirectory :=
      h workPlace _ _ fileAsDirectory (wellFormed_besideArchive _) hfailed
    rw [hsame, hbefore] at hsaved
    cases hsaved
  · intro h
    have hfs : besideText.WellFormed := FileSystem.wellFormed_of_entries (by decide +kernel)
    have hfailed : (format workPlace ⟨"a.txt", some "new/../a.txt"⟩ besideText).succeeded =
        false := by decide +kernel
    have hmade : ((format workPlace ⟨"a.txt", some "new/../a.txt"⟩ besideText).files.get?
        ["work", "new"]).isSome = true := by decide +kernel
    have hbefore : (besideText.get? ["work", "new"]).isSome = false := by decide +kernel
    have hsame := h workPlace _ _ besideText hfs (by decide) hfailed
    rw [hsame, hbefore] at hmade
    cases hmade

end Neaten.Command
