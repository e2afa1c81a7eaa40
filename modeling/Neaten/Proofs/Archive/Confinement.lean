import Neaten.Archive.Reader
import Neaten.Archive.Writer

/-! # Where the paths of an archive lead

    The reader keeps a file if its stored name stays inside the archive, and it
    judges that with `/` as the only separator.  The path it hands out has `/`
    for every backslash, so a stored name may hold steps up that only show in
    the path.

    The main statement says which entries are kept and when all paths stay
    inside: just if no stored name that is kept leads outside once backslashes
    separate as well. -/

namespace Neaten.Archive

/-! ## Names that stay inside -/

/-- The pieces of a name between the characters that separate. -/
def piecesBy (isSeparator : Char → Bool) : Text → List Text
  | [] => [[]]
  | c :: rest =>
    if isSeparator c then [] :: piecesBy isSeparator rest
    else (piecesBy isSeparator rest).modifyHead (c :: ·)

/-- How many of some pieces lead up. -/
def stepsUp (pieces : List Text) : Nat := pieces.countP (· = ['.', '.'])

/-- How many of some pieces lead down. -/
def stepsDown (pieces : List Text) : Nat := pieces.countP (· ≠ ['.', '.'])

/-- Read from the left, the pieces never lead further up than they have led
    down before, starting at a depth. -/
def NeverAbove (depth : Nat) (pieces : List Text) : Prop :=
  ∀ front, front <+: pieces → stepsUp front ≤ depth + stepsDown front

/-- A name stays inside if it does not start with a separator and its pieces
    never lead above the start.  Empty pieces and `.` do not count. -/
def StaysInside (isSeparator : Char → Bool) (name : Text) : Prop :=
  name.head?.any isSeparator = false ∧
    NeverAbove 0 ((piecesBy isSeparator name).filter (!Path.isTrivial ·))

/-- Only `/` separates. -/
def isSlash (c : Char) : Bool := c == '/'

/-- Backslashes separate as well. -/
def isEitherSlash (c : Char) : Bool := c == '/' || c == '\\'

theorem piecesBy_isSlash (name : Text) : piecesBy isSlash name = Text.split '/' name := by
  induction name with
  | nil => rfl
  | cons c rest ih => simp [piecesBy, Text.split, isSlash, ih]

/-- The pieces of the path are those of the stored name between slashes of
    either kind. -/
theorem split_pathOfName (name : Text) :
    Text.split '/' (pathOfName name) = piecesBy isEitherSlash name := by
  induction name with
  | nil => rfl
  | cons c rest ih =>
    by_cases hback : c = '\\'
    · subst hback
      simpa [pathOfName, piecesBy, isEitherSlash] using ih
    · by_cases hslash : c = '/'
      · subst hslash
        simpa [pathOfName, piecesBy, isEitherSlash] using ih
      · have hne : (c == '/' || c == '\\') = false := by simp [hslash, hback]
        have hpath : pathOfName (c :: rest) = c :: pathOfName rest := by simp [pathOfName, hback]
        rw [hpath, Text.split_cons_of_ne hslash, ih, piecesBy]
        simp [isEitherSlash, hne]

/-- A path stays inside just if its stored name does with slashes of either
    kind. -/
theorem staysInside_pathOfName (name : Text) :
    StaysInside isSlash (pathOfName name) ↔ StaysInside isEitherSlash name := by
  unfold StaysInside
  rw [piecesBy_isSlash, split_pathOfName]
  refine and_congr_left fun _ => ?_
  cases name with
  | nil => simp [pathOfName]
  | cons c rest =>
    by_cases hback : c = '\\' <;> simp [pathOfName, isSlash, isEitherSlash, hback]

/-! ## The test of the reader -/

@[simp] theorem neverAbove_nil (depth : Nat) : NeverAbove depth [] := by
  intro front hfront
  rw [List.prefix_nil.mp hfront]
  exact Nat.zero_le _

/-- A statement about every beginning is one about the empty beginning and
    every longer one. -/
theorem neverAbove_cons_iff (depth : Nat) (piece : Text) (rest : List Text) :
    NeverAbove depth (piece :: rest) ↔
      ∀ front, front <+: rest → stepsUp (piece :: front) ≤ depth + stepsDown (piece :: front) := by
  constructor
  · intro h front hfront
    exact h (piece :: front) ((List.prefix_cons_inj piece).mpr hfront)
  · intro h front hfront
    rcases List.prefix_cons_iff.mp hfront with rfl | ⟨tail, rfl, htail⟩
    · exact Nat.zero_le _
    · exact h tail htail

theorem not_neverAbove_zero_up (rest : List Text) : ¬ NeverAbove 0 (['.', '.'] :: rest) := by
  intro h
  have := (neverAbove_cons_iff _ _ _).mp h [] List.nil_prefix
  simp [stepsUp, stepsDown] at this

theorem neverAbove_succ_up (depth : Nat) (rest : List Text) :
    NeverAbove (depth + 1) (['.', '.'] :: rest) ↔ NeverAbove depth rest := by
  rw [neverAbove_cons_iff]
  refine forall_congr' fun front => imp_congr_right fun _ => ?_
  simp only [stepsUp, stepsDown, List.countP_cons]
  simp
  omega

theorem neverAbove_name {piece : Text} (h : piece ≠ ['.', '.']) (depth : Nat)
    (rest : List Text) : NeverAbove depth (piece :: rest) ↔ NeverAbove (depth + 1) rest := by
  rw [neverAbove_cons_iff]
  refine forall_congr' fun front => imp_congr_right fun _ => ?_
  simp only [stepsUp, stepsDown, List.countP_cons]
  simp [h]
  omega

/-- Pieces lead to a depth just if they never lead above the start. -/
theorem isSome_depthFrom_iff (depth : Nat) (pieces : List Text) :
    (depthFrom depth (pieces.map Path.Component.ofPiece)).isSome ↔ NeverAbove depth pieces := by
  -- The depth is free, because every name raises it for the pieces after it.
  induction pieces generalizing depth with
  | nil => simp [depthFrom]
  | cons piece rest ih =>
    by_cases hup : piece = ['.', '.']
    · subst hup
      have hpiece : Path.Component.ofPiece ['.', '.'] = .parent := rfl
      cases depth with
      | zero => simp [hpiece, depthFrom, not_neverAbove_zero_up]
      | succ depth => rw [List.map_cons, hpiece, depthFrom, ih, neverAbove_succ_up]
    · have hpiece : Path.Component.ofPiece piece = .normal piece := if_neg hup
      rw [List.map_cons, hpiece, depthFrom, ih, neverAbove_name hup]

/-- The components of a name that is not absolute lead where its pieces lead. -/
theorem depthFrom_components {name : Text} (h : name.head? ≠ some '/') :
    depthFrom 0 (Path.components name) =
      depthFrom 0 (((Text.split '/' name).filter (!Path.isTrivial ·)).map Path.Component.ofPiece) := by
  unfold Path.components
  fun_cases Path.cutLead name with
  | case1 => simp at h
  | case2 => rfl
  | case3 rest =>
    -- The leading `.` and what is left of it are both pieces that do not count.
    have hwhole : Text.split '/' ('.' :: '/' :: rest) = ['.'] :: Text.split '/' rest := by
      simp [Text.split]
    rw [hwhole]
    simp [depthFrom, Path.isTrivial]
  | case4 => simp

instance (depth : Nat) (pieces : List Text) : Decidable (NeverAbove depth pieces) :=
  decidable_of_iff _ (isSome_depthFrom_iff depth pieces)

instance (isSeparator : Char → Bool) (name : Text) : Decidable (StaysInside isSeparator name) :=
  inferInstanceAs (Decidable (_ ∧ _))

theorem isSome_depthFrom_components_iff (name : Text) :
    (depthFrom 0 (Path.components name)).isSome ↔ StaysInside isSlash name := by
  unfold StaysInside
  rw [piecesBy_isSlash]
  by_cases habsolute : name.head? = some '/'
  · obtain ⟨rest, rfl⟩ := List.head?_eq_some_iff.mp habsolute
    have hnone : depthFrom 0 (Path.components ('/' :: rest)) = none := rfl
    simp [hnone, isSlash]
  · rw [depthFrom_components habsolute, isSome_depthFrom_iff]
    refine (and_iff_right ?_).symm
    cases h : name.head? with
    | none => rfl
    | some c =>
      rw [h, Option.some.injEq] at habsolute
      exact beq_false_of_ne habsolute

/-- The reader's test is passed by the names without NUL that stay inside with
    `/` as the only separator. -/
theorem isConfined_iff (name : Text) :
    isConfined name = true ↔ '\x00' ∉ name ∧ StaysInside isSlash name := by
  unfold isConfined
  rw [Bool.and_eq_true, isSome_depthFrom_components_iff]
  refine and_congr_left fun _ => ?_
  simp

/-! ## The files that are read -/

/-- Whether an entry becomes a file: it is no directory, and its stored name
    has no NUL and stays inside with `/` as the only separator. -/
def IsKept (entry : EntryInfo) : Prop :=
  isDirectoryName entry.name = false ∧ '\x00' ∉ entry.name ∧ StaysInside isSlash entry.name

/-- The test of the reader on an entry. -/
def keeps (entry : EntryInfo) : Bool := !isDirectoryName entry.name && isConfined entry.name

theorem keeps_iff (entry : EntryInfo) : keeps entry = true ↔ IsKept entry := by
  unfold keeps IsKept
  rw [Bool.and_eq_true, isConfined_iff, Bool.not_eq_true']

instance : DecidablePred IsKept := fun entry => decidable_of_iff _ (keeps_iff entry)

/-- What the reader leaves out. -/
theorem skips_iff (entry : EntryInfo) :
    (isDirectoryName entry.name ∨ !isConfined entry.name) ↔ ¬ IsKept entry := by
  rw [← keeps_iff]
  unfold keeps
  cases isDirectoryName entry.name <;> cases isConfined entry.name <;> simp

/-- What one entry adds to the files, if all can be read. -/
theorem readFrom_cons_eq_ok {bytes : Bytes} {index : Nat} {entry : EntryInfo}
    {rest : List EntryInfo} {files : List File}
    (h : readFrom bytes index (entry :: rest) = .ok files) :
    (¬ IsKept entry ∧ readFrom bytes (index + 1) rest = .ok files) ∨
      (IsKept entry ∧ ∃ data tail, files = ⟨pathOfName entry.name, data⟩ :: tail ∧
        readFrom bytes (index + 1) rest = .ok tail) := by
  have hskip := skips_iff entry
  rw [readFrom] at h
  split at h
  · cases h
  · split at h
    · next hs => exact Or.inl ⟨hskip.mp hs, h⟩
    · next hs =>
      have hkept : IsKept entry := Decidable.not_not.mp (mt hskip.mpr hs)
      dsimp only at h
      split at h
      · cases h
      · next data _ =>
        cases hr : readFrom bytes (index + 1) rest with
        | error e =>
          rw [hr] at h
          cases h
        | ok tail =>
          rw [hr] at h
          exact Or.inr ⟨hkept, data, tail, (Except.ok.inj h).symm, rfl⟩

/-- The paths are those of the entries that are kept, in order. -/
theorem map_path_of_readFrom {bytes : Bytes} {entries : List EntryInfo} {index : Nat}
    {files : List File} (h : readFrom bytes index entries = .ok files) :
    files.map (·.path) = (entries.filter (IsKept ·)).map fun e => pathOfName e.name := by
  induction entries generalizing index files with
  | nil =>
    obtain rfl : [] = files := Except.ok.inj h
    rfl
  | cons entry rest ih =>
    rcases readFrom_cons_eq_ok h with ⟨hk, hr⟩ | ⟨hk, data, tail, rfl, hr⟩
    · rw [List.filter_cons_of_neg (by simpa using hk)]
      exact ih hr
    · rw [List.filter_cons_of_pos (by simpa using hk), List.map_cons, List.map_cons, ih hr]

theorem readFiles_eq_ok {bytes : Bytes} {files : List File} (h : readFiles bytes = .ok files) :
    ∃ entries, openEntries bytes = .ok entries ∧ readFrom bytes 0 entries = .ok files := by
  unfold readFiles at h
  split at h
  · cases h
  · next entries ho => exact ⟨entries, ho, h⟩

/-- What all paths fulfil is what the paths of the entries that are kept fulfil. -/
theorem forall_path_of_readFiles {bytes : Bytes} {files : List File} (p : Text → Prop)
    (h : readFiles bytes = .ok files) :
    ∃ entries, openEntries bytes = .ok entries ∧
      ((∀ f ∈ files, p f.path) ↔ ∀ e ∈ entries, IsKept e → p (pathOfName e.name)) := by
  obtain ⟨entries, ho, hr⟩ := readFiles_eq_ok h
  refine ⟨entries, ho, ?_⟩
  calc (∀ f ∈ files, p f.path)
      ↔ ∀ path ∈ files.map (·.path), p path := by
        simp only [List.forall_mem_map]
    _ ↔ ∀ e ∈ entries, IsKept e → p (pathOfName e.name) := by
        rw [map_path_of_readFrom hr]
        simp only [List.forall_mem_map, List.mem_filter, decide_eq_true_iff, and_imp]

/-- **Where the paths lead.**  The files that are read are those of the entries
    that are kept, in order.  Their paths all stay inside the archive just if
    the stored names that are kept also do so when backslashes separate. -/
theorem paths_stay_inside_iff {bytes : Bytes} {files : List File}
    (h : readFiles bytes = .ok files) :
    ∃ entries, openEntries bytes = .ok entries ∧
      files.map (·.path) = (entries.filter (IsKept ·)).map (fun e => pathOfName e.name) ∧
      ((∀ f ∈ files, StaysInside isSlash f.path) ↔
        ∀ e ∈ entries, IsKept e → StaysInside isEitherSlash e.name) := by
  obtain ⟨entries, ho, hr⟩ := readFiles_eq_ok h
  have hpaths := map_path_of_readFrom hr
  refine ⟨entries, ho, hpaths, ?_⟩
  calc (∀ f ∈ files, StaysInside isSlash f.path)
      ↔ ∀ path ∈ files.map (·.path), StaysInside isSlash path := by
        simp only [List.forall_mem_map]
    _ ↔ ∀ e ∈ entries.filter (IsKept ·), StaysInside isSlash (pathOfName e.name) := by
        rw [hpaths]
        simp only [List.forall_mem_map]
    _ ↔ ∀ e ∈ entries, IsKept e → StaysInside isEitherSlash e.name := by
        simp only [List.mem_filter, decide_eq_true_iff, and_imp, staysInside_pathOfName]

/-- Equality of a result is not decidable, but that of the files in it is. -/
theorem readFiles_eq_ok_of_toOption {bytes : Bytes} {files : List File}
    (h : (readFiles bytes).toOption = some files) : readFiles bytes = .ok files := by
  cases hr : readFiles bytes with
  | error e =>
    rw [hr] at h
    cases h
  | ok read =>
    rw [hr] at h
    exact congrArg Except.ok (Option.some.inj h)

/-- An archive of empty files with the given names. -/
def emptyFiles (names : List Text) : Bytes := write (names.map fun name => (name, []))

/-- Backslashes do no harm in a name that stays inside either way. -/
theorem paths_stay_inside_mixed :
    readFiles (emptyFiles ["../x", "a\\..\\b"]) = .ok [⟨"a/../b".toList, []⟩] ∧
      ∃ entries, openEntries (emptyFiles ["../x", "a\\..\\b"]) = .ok entries ∧
        ∀ e ∈ entries, IsKept e → StaysInside isEitherSlash e.name := by
  have h : readFiles (emptyFiles ["../x", "a\\..\\b"]) = .ok [⟨"a/../b".toList, []⟩] :=
    readFiles_eq_ok_of_toOption (by decide +kernel)
  obtain ⟨entries, ho, -, hiff⟩ := paths_stay_inside_iff h
  refine ⟨h, entries, ho, hiff.mp ?_⟩
  decide

/-- Not all paths stay inside: the reader keeps a name whose steps up only show
    once its backslashes are turned into slashes. -/
theorem not_forall_path_staysInside :
    ¬ ∀ (bytes : Bytes) (files : List File), readFiles bytes = .ok files →
      ∀ f ∈ files, StaysInside isSlash f.path := by
  intro h
  have hread : readFiles (emptyFiles ["..\\x"]) = .ok [⟨"../x".toList, []⟩] :=
    readFiles_eq_ok_of_toOption (by decide +kernel)
  have hin : StaysInside isSlash "../x".toList := h _ _ hread _ (List.mem_singleton_self _)
  exact not_neverAbove_zero_up _ hin.2

end Neaten.Archive
