import Neaten.Proofs.Archive.Confinement
import Neaten.Proofs.Archive.Records

/-! # Reading takes back writing

    An archive that was written is read as the members that are files, in
    order and with their data.  The search for the end record goes backwards
    from the end, so signatures in names and data do no harm: before it comes
    to them it meets the true end record.  What looks like another one behind
    its start has too few bytes left. -/

namespace Neaten.Archive

/-! ## The end record is found -/

/-- Signatures in the back are found after those that start in the front. -/
theorem exists_occurrences_append (signature : Bytes) (start : Nat) (front back : Bytes) :
    ∃ before, occurrences signature start (front ++ back) =
      before ++ occurrences signature (start + front.length) back := by
  induction front generalizing start with
  | nil => exact ⟨[], rfl⟩
  | cons b rest ih =>
    obtain ⟨before, hbefore⟩ := ih (start + 1)
    have hplace : start + 1 + rest.length = start + (b :: rest).length := by
      rw [List.length_cons]
      omega
    rw [hplace] at hbefore
    rw [List.cons_append, occurrences, hbefore]
    split
    · exact ⟨start :: before, rfl⟩
    · exact ⟨before, rfl⟩

/-- A signature at the front is found first, and every other one after it. -/
theorem occurrences_of_isPrefix {signature bytes : Bytes} (start : Nat)
    (hne : signature ≠ []) (h : signature <+: bytes) :
    ∃ after, occurrences signature start bytes = start :: after ∧
      ∀ place ∈ after, start < place := by
  have hlater : ∀ (bytes : Bytes) (start : Nat),
      ∀ place ∈ occurrences signature start bytes, start ≤ place := by
    intro bytes
    induction bytes with
    | nil => simp [occurrences]
    | cons b rest ih =>
      intro start place hplace
      rw [occurrences] at hplace
      split at hplace
      · rcases List.mem_cons.mp hplace with rfl | hplace
        · exact Nat.le_refl _
        · exact Nat.le_of_succ_le (ih _ _ hplace)
      · exact Nat.le_of_succ_le (ih _ _ hplace)
  cases bytes with
  | nil => exact absurd (List.prefix_nil.mp h) hne
  | cons b rest =>
    refine ⟨occurrences signature (start + 1) rest, ?_, hlater rest (start + 1)⟩
    rw [occurrences, if_pos (List.isPrefixOf_iff_prefix.mpr h)]

/-- Places where no end record can be read are passed over. -/
theorem exists_openFrom_append {bytes : Bytes} {places : List Nat}
    (h : ∀ place ∈ places, ∃ fault, EndRecord.read bytes place = .error fault)
    (note : Option Fault) (more : List Nat) :
    ∃ note', openFrom bytes note (places ++ more) = openFrom bytes note' more := by
  induction places generalizing note with
  | nil => exact ⟨note, rfl⟩
  | cons place rest ih =>
    obtain ⟨fault, hfault⟩ := h place List.mem_cons_self
    obtain ⟨note', hnote'⟩ := ih (fun p hp => h p (List.mem_cons_of_mem _ hp)) (note <|> some fault)
    refine ⟨note', ?_⟩
    rw [List.cons_append, openFrom, hfault]
    exact hnote'

/-- **The last end record is taken** if it has no comment: an archive that
    ends with a good end record is opened by it, whatever stands before. -/
theorem openEntries_of_drop {bytes : Bytes} {place entries length start : Nat}
    (h : bytes.drop place = writeEnd entries length start)
    {record : EndRecord} (hrecord : EndRecord.read bytes place = .ok record)
    {directory : DirectoryPlace} (hdirectory : record.locate bytes place = .ok directory)
    {infos : List EntryInfo} (hinfos : directory.read? bytes = some infos) :
    openEntries bytes = .ok (collapse infos) := by
  have hlength : bytes.length = place + 22 := by
    have := congrArg List.length h
    rw [List.length_drop, length_writeEnd] at this
    omega
  have hfront : (bytes.take place).length = place := by
    rw [List.length_take]
    omega
  obtain ⟨before, hbefore⟩ :=
    exists_occurrences_append endSignature 0 (bytes.take place) (bytes.drop place)
  have hsignature : endSignature <+: bytes.drop place := by
    rw [h]
    exact List.prefix_append _ _
  obtain ⟨after, hafter, hlater⟩ :=
    occurrences_of_isPrefix (0 + (bytes.take place).length) (by decide) hsignature
  rw [hfront, Nat.zero_add] at hafter hlater
  rw [List.take_append_drop, hfront, Nat.zero_add, hafter] at hbefore
  -- Behind the start of the end record there is no room for another one.
  have hunread : ∀ p ∈ after.reverse, ∃ fault, EndRecord.read bytes p = .error fault := by
    intro p hp
    have := hlater p (List.mem_reverse.mp hp)
    exact ⟨_, read_eq_error (by omega)⟩
  obtain ⟨note, hnote⟩ := exists_openFrom_append hunread none (place :: before.reverse)
  have hplaces : (occurrences endSignature 0 bytes).reverse =
      after.reverse ++ place :: before.reverse := by
    rw [hbefore, List.reverse_append, List.reverse_cons, List.append_assoc]
    rfl
  rw [openEntries, hplaces, hnote, openFrom, hrecord]
  dsimp only
  rw [hdirectory]
  dsimp only
  rw [hinfos]

/-! ## The directory is read -/

/-- The entries of some members, the first of which starts at a place. -/
def entriesOf : (start : Nat) → List Member → List EntryInfo
  | _, [] => []
  | start, m :: rest => entryOf start m :: entriesOf (start + (writeMember m).length) rest

/-- What is stored of some members. -/
def stored (members : List Member) : Bytes := members.flatMap writeMember

@[simp] theorem stored_cons (m : Member) (rest : List Member) :
    stored (m :: rest) = writeMember m ++ stored rest := rfl

theorem map_name_entriesOf (start : Nat) (members : List Member) :
    (entriesOf start members).map (·.name) = members.map Prod.fst := by
  induction members generalizing start with
  | nil => rfl
  | cons m rest ih => rw [entriesOf, List.map_cons, List.map_cons, ih]; rfl

/-- A directory is read back entry by entry. -/
theorem readEntryInfos?_writeDirectory {place : DirectoryPlace} (hshift : place.shift = 0)
    (hplace : place.start < capacity 4) (rest : Bytes) (members : List Member)
    (hfits : ∀ m ∈ members, m.Fits) (start : Nat)
    (hstart : start + (stored members).length ≤ place.start) :
    readEntryInfos? place members.length (writeDirectory start members ++ rest) =
      some (entriesOf start members) := by
  induction members generalizing start with
  | nil => rfl
  | cons m more ih =>
    rw [stored_cons, List.length_append] at hstart
    have hm := length_writeMember m
    have hread := read?_writeEntry 0 (hfits m List.mem_cons_self) start (by omega)
      (writeDirectory (start + (writeMember m).length) more ++ rest)
    have hmore := ih (fun m hm => hfits m (List.mem_cons_of_mem _ hm))
      (start + (writeMember m).length) (by omega)
    have hbefore : (entryOf start m).headerStart < place.start := by
      show start < place.start
      omega
    rw [List.length_cons, writeDirectory, List.append_assoc, readEntryInfos?, hshift, hread]
    dsimp only
    rw [Nat.add_zero, if_pos hbefore, hmore]
    rfl

/-! ## Names that occur once do not collapse -/

theorem addEntry_of_forall_ne {entry : EntryInfo} {entries : List EntryInfo}
    (h : ∀ e ∈ entries, e.name ≠ entry.name) : addEntry entry entries = entries ++ [entry] := by
  induction entries with
  | nil => rfl
  | cons e rest ih =>
    rw [addEntry, if_neg (h e List.mem_cons_self),
      ih fun e he => h e (List.mem_cons_of_mem _ he), List.cons_append]

theorem collapse_of_nodup {entries : List EntryInfo} (h : (entries.map (·.name)).Nodup) :
    collapse entries = entries := by
  -- The entries gathered so far are free, and no later name is among theirs.
  have hfold : ∀ gathered : List EntryInfo, ((gathered ++ entries).map (·.name)).Nodup →
      entries.foldl (fun sum entry => addEntry entry sum) gathered = gathered ++ entries := by
    clear h
    induction entries with
    | nil => intro gathered _; rw [List.foldl_nil, List.append_nil]
    | cons entry rest ih =>
      intro gathered h
      have hfresh : ∀ e ∈ gathered, e.name ≠ entry.name := by
        rw [List.map_append, List.nodup_append] at h
        intro e he
        exact h.2.2 e.name (List.mem_map_of_mem he) entry.name (by simp)
      rw [List.foldl_cons, addEntry_of_forall_ne hfresh, ih, List.append_assoc]
      · rfl
      · rwa [List.append_assoc]
  exact hfold [] h

/-! ## The files are read -/

/-- Whether a member is read back as a file: its name does not end in a slash
    of either kind, has no NUL, and with `/` as the only separator is neither
    absolute nor ever leads above the root. -/
def Member.IsFile (m : Member) : Prop :=
  (m.1.getLast? ≠ some '/' ∧ m.1.getLast? ≠ some '\\') ∧ '\x00' ∉ m.1 ∧ StaysInside isSlash m.1

/-- The file that a member is read back as. -/
def Member.toFile (m : Member) : File := ⟨pathOfName m.1, m.2⟩

theorem isDirectoryName_eq_false_iff (name : Text) :
    isDirectoryName name = false ↔ name.getLast? ≠ some '/' ∧ name.getLast? ≠ some '\\' := by
  unfold isDirectoryName
  cases name.getLast? <;> simp

theorem isKept_entryOf_iff (start : Nat) (m : Member) : IsKept (entryOf start m) ↔ m.IsFile :=
  and_congr_left' (isDirectoryName_eq_false_iff m.1)

instance : DecidablePred Member.IsFile := fun m => decidable_of_iff _ (isKept_entryOf_iff 0 m)

/-- One member after another, those that are files are read. -/
theorem readFrom_entriesOf {bytes : Bytes} (rest : Bytes) (members : List Member)
    (hfits : ∀ m ∈ members, m.Fits) (index start : Nat)
    (h : bytes.drop start = stored members ++ rest) :
    readFrom bytes index (entriesOf start members) =
      .ok ((members.filter (·.IsFile)).map Member.toFile) := by
  induction members generalizing index start with
  | nil => rfl
  | cons m more ih =>
    rw [stored_cons, List.append_assoc] at h
    have hnext : bytes.drop (start + (writeMember m).length) = stored more ++ rest := by
      rw [← List.drop_drop, h, List.drop_left]
    have hmore := ih (fun m hm => hfits m (List.mem_cons_of_mem _ hm)) (index + 1) _ hnext
    rw [entriesOf, readFrom, locate_entryOf (hfits m List.mem_cons_self) h]
    dsimp only
    by_cases hfile : m.IsFile
    · have hkept : IsKept (entryOf start m) := (isKept_entryOf_iff start m).mpr hfile
      rw [if_neg (fun hskip => (skips_iff _).mp hskip hkept), contents_entryOf]
      dsimp only
      rw [hmore, List.filter_cons_of_pos (by simpa using hfile)]
      rfl
    · have hskip : ¬ IsKept (entryOf start m) := mt (isKept_entryOf_iff start m).mp hfile
      rw [if_pos ((skips_iff _).mpr hskip), hmore, List.filter_cons_of_neg (by simpa using hfile)]

/-! ## The whole archive -/

theorem write_eq (members : List Member) :
    write members = stored members ++ (writeDirectory 0 members ++
      writeEnd members.length (writeDirectory 0 members).length (stored members).length) := by
  rw [← List.append_assoc]
  rfl

/-- A directory with entries starts with the signature of the first. -/
theorem entrySignature_isPrefix_writeDirectory (start : Nat) (m : Member) (rest : List Member) :
    entrySignature <+: writeDirectory start (m :: rest) := by
  rw [writeDirectory, writeEntry_eq, List.append_assoc]
  exact List.prefix_append _ _

/-- The place of the directory of an archive that was written. -/
def placeOf (members : List Member) : DirectoryPlace :=
  { start := (stored members).length, shift := 0, entries := members.length,
    sameDisk := true, isSound := true }

/-- The end record of an archive leads to its directory. -/
theorem locate_plain {members : List Member} (hcount : members.length < 65535)
    (hsize : (stored members).length < UInt32.size - 1) (rest : Bytes) :
    (EndRecord.plain members.length (stored members).length).locate
        (stored members ++ (writeDirectory 0 members ++ rest))
        ((stored members).length + (writeDirectory 0 members).length) =
      .ok (placeOf members) := by
  have hsmall : (EndRecord.plain members.length (stored members).length).mayBeLarge = false := by
    have h₁ : members.length ≠ 0xFFFF := by omega
    have h₂ : (stored members).length ≠ 0xFFFFFFFF := by
      unfold UInt32.size at hsize
      omega
    simp [EndRecord.mayBeLarge, EndRecord.plain, h₁, h₂]
  rw [EndRecord.locate, hsmall]
  show EndRecord.directory _ _ _ = _
  cases members with
  | nil => rfl
  | cons m more =>
    have hsignature := entrySignature_isPrefix_writeDirectory 0 m more
    have hdirectory : 0 < (writeDirectory 0 (m :: more)).length :=
      Nat.lt_of_lt_of_le (by decide) hsignature.length_le
    generalize writeDirectory 0 (m :: more) = directory at hsignature hdirectory
    obtain ⟨after, hafter, -⟩ :=
      occurrences_of_isPrefix (stored (m :: more)).length (by decide) hsignature
    have hstart : (EndRecord.plain (m :: more).length (stored (m :: more)).length).directoryStart =
        (stored (m :: more)).length := rfl
    have hbetween : occurrencesBetween entrySignature
        (EndRecord.plain (m :: more).length (stored (m :: more)).length).directoryStart
        ((stored (m :: more)).length + directory.length)
        (stored (m :: more) ++ (directory ++ rest)) = (stored (m :: more)).length :: after := by
      rw [hstart, occurrencesBetween, List.take_length_add_append, List.take_left, List.drop_left,
        hafter]
    have hentries : (EndRecord.plain (m :: more).length (stored (m :: more)).length).entries ≠ 0 :=
      Nat.succ_ne_zero _
    have hbefore : ¬ (stored (m :: more)).length + directory.length ≤
        (EndRecord.plain (m :: more).length (stored (m :: more)).length).directoryStart := by
      rw [hstart]
      omega
    rw [EndRecord.directory, if_neg hentries, if_neg hbefore, hbetween]
    dsimp only
    rw [hstart, Nat.sub_self]
    rfl

/-- **Reading takes back writing.**  An archive of members with different names
    is read as the members that are files, in order, with their data and with
    `/` for every backslash in the names.  It must be small enough for its
    counts and places to be written as they are. -/
theorem readFiles_write {members : List Member} (hnames : (members.map Prod.fst).Nodup)
    (hshort : ∀ m ∈ members, (Utf8.encode m.1).length < 65536)
    (hcount : members.length < 65535) (hsize : (write members).length < UInt32.size - 1) :
    readFiles (write members) =
      .ok ((members.filter (·.IsFile)).map Member.toFile) := by
  have hlength := congrArg List.length (write_eq members)
  rw [List.length_append, List.length_append, length_writeEnd] at hlength
  have hstored : (stored members).length < UInt32.size - 1 := by omega
  have hfour : UInt32.size = capacity 4 := rfl
  have hfits : ∀ m ∈ members, m.Fits := by
    intro m hm
    have hle : (writeMember m).length ≤ (stored members).length :=
      (List.sublist_flatten_of_mem (List.mem_map_of_mem hm)).length_le
    rw [length_writeMember] at hle
    exact ⟨hshort m hm, by omega⟩
  have hend : (write members).drop ((stored members).length + (writeDirectory 0 members).length) =
      writeEnd members.length (writeDirectory 0 members).length (stored members).length := by
    rw [write_eq, ← List.drop_drop, List.drop_left, List.drop_left]
  have hrecord := read_writeEnd hend (Nat.lt_succ_of_lt hcount) (by omega) (by omega)
  have hplace := locate_plain hcount hstored
    (writeEnd members.length (writeDirectory 0 members).length (stored members).length)
  rw [← write_eq] at hplace
  have hinfos : (placeOf members).read? (write members) = some (entriesOf 0 members) := by
    rw [DirectoryPlace.read?, if_pos ⟨rfl, rfl⟩, write_eq]
    show readEntryInfos? _ members.length (List.drop (stored members).length _) = _
    rw [List.drop_left]
    refine readEntryInfos?_writeDirectory rfl ?_ _ members hfits 0 ?_
    · show (stored members).length < capacity 4
      omega
    · exact Nat.le_of_eq (Nat.zero_add _)
  have hopen := openEntries_of_drop hend hrecord hplace hinfos
  rw [collapse_of_nodup (by rwa [map_name_entriesOf])] at hopen
  have hfront : (write members).drop 0 = stored members ++ (writeDirectory 0 members ++
      writeEnd members.length (writeDirectory 0 members).length (stored members).length) :=
    write_eq members
  rw [readFiles, hopen]
  exact readFrom_entriesOf _ members hfits 0 0 hfront

/-- A directory, a name that leads outside, and a file that holds the end of an
    archive without entries and the beginning of a directory. -/
def decoys : List Member :=
  [("src/", []), ("../up", [1]), ("a\\b", writeEnd 0 0 0 ++ entrySignature)]

/-- Signatures in the data are read as data. -/
theorem readFiles_write_decoys :
    (decoys.map Prod.fst).Nodup ∧ (∀ m ∈ decoys, (Utf8.encode m.1).length < 65536) ∧
      decoys.length < 65535 ∧ (write decoys).length < UInt32.size - 1 ∧
      readFiles (write decoys) = .ok [⟨"a/b".toList, writeEnd 0 0 0 ++ entrySignature⟩] := by
  have hnames : (decoys.map Prod.fst).Nodup := by decide
  have hshort : ∀ m ∈ decoys, (Utf8.encode m.1).length < 65536 := by decide
  have hcount : decoys.length < 65535 := by decide
  have hsize : (write decoys).length < UInt32.size - 1 := by decide +kernel
  have hfiles : (decoys.filter (·.IsFile)).map Member.toFile =
      [⟨"a/b".toList, writeEnd 0 0 0 ++ entrySignature⟩] := by decide +kernel
  refine ⟨hnames, hshort, hcount, hsize, ?_⟩
  rw [readFiles_write hnames hshort hcount hsize, hfiles]

end Neaten.Archive
