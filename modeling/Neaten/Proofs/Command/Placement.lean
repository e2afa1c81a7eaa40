import Neaten.Proofs.Command.FormatOutput

/-! # Which files of an archive have a target

    Two tests judge the path of a file.  The reader follows the path and asks
    whether it ever leads above the start.  Saving asks that no piece leads up at
    all and that some piece is a name, so it is the stricter of the two: what it
    accepts is safe for the reader, but not the other way round.

    As long as no stored name holds a backslash, the path of a file is its stored
    name, and both tests judge the same text. -/

namespace Neaten

namespace Path

/-! ## Paths that only go down -/

/-- None of the pieces of a path leads up, and some piece counts. -/
structure GoesDown (path : Text) : Prop where
  no_step_up : ['.', '.'] ∉ Text.split '/' path
  exists_name : ∃ piece ∈ Text.split '/' path, isTrivial piece = false

instance : DecidablePred GoesDown := fun path =>
  decidable_of_iff
    ((∀ piece ∈ Text.split '/' path, piece ≠ ['.', '.']) ∧
      ∃ piece ∈ Text.split '/' path, isTrivial piece = false)
    ⟨fun h => ⟨fun hup => h.1 _ hup rfl, h.2⟩,
      fun h => ⟨fun _ hpiece hup => h.no_step_up (hup ▸ hpiece), h.exists_name⟩⟩

theorem ofPiece_ne_current (piece : Text) : Component.ofPiece piece ≠ .current := by
  unfold Component.ofPiece
  split <;> simp

/-- Apart from a dot at its start, a path that is not absolute consists of its
    pieces that count. -/
theorem filter_components {path : Text} (h : isAbsolute path = false) :
    (components path).filter (· ≠ .current) =
      ((Text.split '/' path).filter (!isTrivial ·)).map .ofPiece := by
  have hpieces : ∀ pieces : List Text,
      (pieces.map Component.ofPiece).filter (· ≠ .current) = pieces.map .ofPiece := by
    intro pieces
    refine List.filter_eq_self.mpr fun c hc => ?_
    obtain ⟨piece, -, rfl⟩ := List.mem_map.mp hc
    exact decide_eq_true (ofPiece_ne_current piece)
  unfold components
  rcases cutLead_cases path with ⟨rest, rfl, -⟩ | ⟨rest, rfl, hrest, hcut⟩ | ⟨-, hcut⟩
  · cases h
  · -- The dot is a component of its own, but as a piece it does not count.
    rw [hcut]
    show (Component.current ::
      ((Text.split '/' rest).filter (!isTrivial ·)).map .ofPiece).filter (· ≠ .current) = _
    rw [List.filter_cons_of_neg (by simp), hpieces]
    rcases hrest with rfl | ⟨more, rfl⟩
    · rfl
    · have hwhole : Text.split '/' ('.' :: '/' :: more) = ['.'] :: Text.split '/' more := by
        simp [Text.split]
      rw [hwhole]
      simp [isTrivial]
  · rw [hcut]
    exact hpieces _

theorem downward?_filter (cs : List Component) :
    downward? (cs.filter (· ≠ .current)) = downward? cs := by
  induction cs with
  | nil => rfl
  | cons c rest ih =>
    cases c with
    | root => rfl
    | current => exact ih
    | parent => rfl
    | normal name =>
      show (downward? _).map (name :: ·) = (downward? rest).map (name :: ·)
      rw [ih]

theorem downward?_map_ofPiece (pieces : List Text) :
    downward? (pieces.map .ofPiece) = if ['.', '.'] ∈ pieces then none else some pieces := by
  induction pieces with
  | nil => rfl
  | cons piece rest ih =>
    by_cases hup : piece = ['.', '.']
    · subst hup
      simp [Component.ofPiece, downward?]
    · have hpiece : Component.ofPiece piece = .normal piece := if_neg hup
      rw [List.map_cons, hpiece, downward?, ih]
      by_cases hrest : ['.', '.'] ∈ rest <;> simp [hrest, Ne.symm hup]

/-- Where a path that is not absolute is placed. -/
theorem below_eq (base : Text) {path : Text} (h : isAbsolute path = false) :
    below base path =
      if ['.', '.'] ∈ Text.split '/' path then .error ⟨[], .outside path⟩
      else if ∀ piece ∈ Text.split '/' path, isTrivial piece then .error ⟨[], .emptyPath path⟩
      else .ok (((Text.split '/' path).filter (!isTrivial ·)).foldl join base) := by
  have hup : ['.', '.'] ∈ (Text.split '/' path).filter (!isTrivial ·) ↔
      ['.', '.'] ∈ Text.split '/' path := by
    rw [List.mem_filter]
    exact and_iff_left rfl
  unfold below
  rw [← downward?_filter, filter_components h, downward?_map_ofPiece]
  simp only [hup]
  by_cases hmem : ['.', '.'] ∈ Text.split '/' path
  · rw [if_pos hmem, if_pos hmem]
  · rw [if_neg hmem, if_neg hmem]
    by_cases htrivial : ∀ piece ∈ Text.split '/' path, isTrivial piece = true
    · have hnil : (Text.split '/' path).filter (!isTrivial ·) = [] := by
        simpa [List.filter_eq_nil_iff] using htrivial
      rw [if_pos htrivial, hnil]
    · have hne : (Text.split '/' path).filter (!isTrivial ·) ≠ [] := by
        simpa [List.filter_eq_nil_iff] using htrivial
      rw [if_neg htrivial]
      cases hnames : (Text.split '/' path).filter (!isTrivial ·) with
      | nil => exact absurd hnames hne
      | cons name rest => rfl

section

variable (base : Text) {path : Text}

theorem below_eq_ok_iff_goesDown (h : isAbsolute path = false) :
    (∃ t, below base path = .ok t) ↔ GoesDown path := by
  rw [below_eq base h]
  constructor
  · rintro ⟨t, ht⟩
    split at ht
    · cases ht
    · next hup =>
      split at ht
      · cases ht
      · next hname => exact ⟨hup, by simpa using hname⟩
  · intro hdown
    obtain ⟨piece, hpiece, hname⟩ := hdown.exists_name
    rw [if_neg hdown.no_step_up, if_neg fun hall => by simp [hall piece hpiece] at hname]
    exact ⟨_, rfl⟩

theorem below_eq_outside_iff (h : isAbsolute path = false) :
    below base path = .error ⟨[], .outside path⟩ ↔ ['.', '.'] ∈ Text.split '/' path := by
  rw [below_eq base h]
  split
  · next hup => simp [hup]
  · next hup => split <;> simp [hup]

theorem below_eq_emptyPath_iff (h : isAbsolute path = false) :
    below base path = .error ⟨[], .emptyPath path⟩ ↔
      ['.', '.'] ∉ Text.split '/' path ∧ ∀ piece ∈ Text.split '/' path, isTrivial piece := by
  rw [below_eq base h]
  split
  · next hup => simp [hup]
  · next hup => split <;> simp_all

end

end Path

namespace Archive

/-! ## The two tests -/

theorem any_head?_isSlash (path : Text) : path.head?.any isSlash = Path.isAbsolute path := by
  cases path with
  | nil => rfl
  | cons c rest => rfl

theorem pathOfName_of_not_mem {name : Text} (h : '\\' ∉ name) : pathOfName name = name := by
  have hsame : ∀ c ∈ name, (if c = '\\' then '/' else c) = id c := by
    intro c hc
    refine if_neg ?_
    rintro rfl
    exact h hc
  rw [pathOfName, List.map_congr_left hsame, List.map_id]

/-- Without backslashes, the paths of all files stay inside. -/
theorem staysInside_of_no_backslash {bytes : Bytes} {entries : List EntryInfo} {files : List File}
    (ho : openEntries bytes = .ok entries) (hread : readFiles bytes = .ok files)
    (hnames : ∀ e ∈ entries, '\\' ∉ e.name) {f : File} (hf : f ∈ files) :
    StaysInside isSlash f.path := by
  obtain ⟨entries', ho', hiff⟩ := forall_path_of_readFiles (StaysInside isSlash) hread
  obtain rfl : entries = entries' := Except.ok.inj (ho.symm.trans ho')
  refine hiff.mpr (fun e he hkept => ?_) f hf
  rw [pathOfName_of_not_mem (hnames e he)]
  exact hkept.2.2

end Archive

namespace Command

/-! ## Targets -/

/-- There is a target for some files just if there is one for each. -/
theorem exists_targets_iff (isArchive : Bool) (directory : Text) (files : List SourceFile) :
    (∃ pairs, targets isArchive directory files = .ok pairs) ↔
      ∀ f ∈ files, ∃ t, target isArchive directory f = .ok t := by
  constructor
  · rintro ⟨pairs, h⟩ f hf
    exact ⟨_, (of_targets_eq_ok h).1 f hf⟩
  · intro h
    induction files with
    | nil => exact ⟨[], rfl⟩
    | cons f rest ih =>
      obtain ⟨t, ht⟩ := h f List.mem_cons_self
      obtain ⟨pairs, hpairs⟩ := ih fun g hg => h g (List.mem_cons_of_mem f hg)
      unfold targets at hpairs ⊢
      refine ⟨(t, f.shownText) :: pairs, ?_⟩
      rw [List.mapM_cons, ht, hpairs]
      rfl

/-- **Which files have a target.**  Of an archive without backslashes in its stored
    names, a file can be placed under a directory, whatever the directory, just if
    its path goes down.  Otherwise it is refused: as leading outside if some piece
    leads up, and as empty if there is no such piece but no name either.  So the
    files of an archive have targets just if the paths of all of them go down. -/
theorem placed_iff {bytes : Bytes} {entries : List Archive.EntryInfo} {files : List Archive.File}
    (ho : Archive.openEntries bytes = .ok entries) (hread : Archive.readFiles bytes = .ok files)
    (hnames : ∀ e ∈ entries, '\\' ∉ e.name) :
    (∀ f ∈ files, ∀ base,
      ((∃ t, Path.below base f.path = .ok t) ↔ Path.GoesDown f.path) ∧
      (Path.below base f.path = .error ⟨[], .outside f.path⟩ ↔
        ['.', '.'] ∈ Text.split '/' f.path) ∧
      (Path.below base f.path = .error ⟨[], .emptyPath f.path⟩ ↔
        ['.', '.'] ∉ Text.split '/' f.path ∧
          ∀ piece ∈ Text.split '/' f.path, Path.isTrivial piece)) ∧
    ∀ limit name sources directory, Archive.isArchiveName name = true →
      SourceFile.ofUpload limit name bytes = .ok sources →
      ((∃ pairs, targets true directory sources = .ok pairs) ↔
        ∀ f ∈ files, Path.GoesDown f.path) := by
  have hrelative : ∀ f ∈ files, Path.isAbsolute f.path = false := by
    intro f hf
    rw [← Archive.any_head?_isSlash]
    exact (Archive.staysInside_of_no_backslash ho hread hnames hf).1
  constructor
  · intro f hf base
    have h := hrelative f hf
    exact ⟨Path.below_eq_ok_iff_goesDown base h, Path.below_eq_outside_iff base h,
      Path.below_eq_emptyPath_iff base h⟩
  · intro limit name sources directory hname hsources
    obtain ⟨read, hread', rfl⟩ := SourceFile.of_ofUpload_archive hname hsources
    obtain rfl : files = read := Except.ok.inj (hread.symm.trans hread')
    rw [exists_targets_iff, List.forall_mem_map]
    refine forall₂_congr fun f hf => ?_
    exact Path.below_eq_ok_iff_goesDown directory (hrelative f hf)

/-- Of two files that the reader takes for safe, one can be placed and the other
    is refused, so there are no targets for the archive. -/
theorem placed_mixed :
    ∃ entries sources,
      Archive.openEntries (Archive.emptyFiles ["./a/b", "a/../b"]) = .ok entries ∧
      (∀ e ∈ entries, '\\' ∉ e.name) ∧
      SourceFile.ofUpload 64 "a.zip" (Archive.emptyFiles ["./a/b", "a/../b"]) = .ok sources ∧
      (∃ t, Path.below "out" "./a/b" = .ok t) ∧
      Path.below "out" "a/../b" = .error ⟨[], .outside "a/../b"⟩ ∧
      ¬ ∃ pairs, targets true "out" sources = .ok pairs := by
  obtain ⟨entries, ho, hdecided⟩ := Failure.exists_of_any_toOption
    (x := Archive.openEntries (Archive.emptyFiles ["./a/b", "a/../b"]))
    (p := fun entries => ∀ e ∈ entries, '\\' ∉ e.name) (by decide +kernel)
  have hnames := of_decide_eq_true hdecided
  have hread : Archive.readFiles (Archive.emptyFiles ["./a/b", "a/../b"]) =
      .ok [⟨"./a/b".toList, []⟩, ⟨"a/../b".toList, []⟩] :=
    Archive.readFiles_eq_ok_of_toOption (by decide +kernel)
  have hsources : SourceFile.ofUpload 64 "a.zip" (Archive.emptyFiles ["./a/b", "a/../b"]) =
      .ok [.ofContent 64 "./a/b" [], .ofContent 64 "a/../b" []] :=
    Failure.eq_ok_of_toOption (by decide +kernel)
  obtain ⟨hplaced, htargets⟩ := placed_iff ho hread hnames
  refine ⟨entries, _, ho, hnames, hsources, ?_, ?_, ?_⟩
  · exact (hplaced ⟨"./a/b".toList, []⟩ (by simp) "out").1.mpr (by decide)
  · exact (hplaced ⟨"a/../b".toList, []⟩ (by simp) "out").2.1.mpr (by decide)
  · rw [htargets 64 "a.zip" _ "out" (by decide) hsources]
    decide

/-- Not every file that the reader takes for safe can be placed: a step up is
    refused even where it leads nowhere outside, and so is a path without a name. -/
theorem not_forall_placed :
    (¬ ∀ (bytes : Bytes) (entries : List Archive.EntryInfo) (files : List Archive.File),
      Archive.openEntries bytes = .ok entries → Archive.readFiles bytes = .ok files →
      (∀ e ∈ entries, '\\' ∉ e.name) →
        ∀ f ∈ files, ∀ base, Path.below base f.path ≠ .error ⟨[], .outside f.path⟩) ∧
    ¬ ∀ (bytes : Bytes) (entries : List Archive.EntryInfo) (files : List Archive.File),
      Archive.openEntries bytes = .ok entries → Archive.readFiles bytes = .ok files →
      (∀ e ∈ entries, '\\' ∉ e.name) →
        ∀ f ∈ files, ∀ base, Path.below base f.path ≠ .error ⟨[], .emptyPath f.path⟩ := by
  constructor
  · intro h
    obtain ⟨entries, ho, hnames⟩ := Failure.exists_of_any_toOption
      (x := Archive.openEntries (Archive.emptyFiles ["a/../b"]))
      (p := fun entries => ∀ e ∈ entries, '\\' ∉ e.name) (by decide +kernel)
    have hread : Archive.readFiles (Archive.emptyFiles ["a/../b"]) =
        .ok [⟨"a/../b".toList, []⟩] := Archive.readFiles_eq_ok_of_toOption (by decide +kernel)
    exact h _ _ _ ho hread (of_decide_eq_true hnames) _ (List.mem_singleton_self _) "out" rfl
  · intro h
    obtain ⟨entries, ho, hnames⟩ := Failure.exists_of_any_toOption
      (x := Archive.openEntries (Archive.emptyFiles ["."]))
      (p := fun entries => ∀ e ∈ entries, '\\' ∉ e.name) (by decide +kernel)
    have hread : Archive.readFiles (Archive.emptyFiles ["."]) = .ok [⟨".".toList, []⟩] :=
      Archive.readFiles_eq_ok_of_toOption (by decide +kernel)
    exact h _ _ _ ho hread (of_decide_eq_true hnames) _ (List.mem_singleton_self _) "out" rfl

end Command

end Neaten
