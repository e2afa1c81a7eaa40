import Mathlib.Data.List.Forall2
import Neaten.Proofs.Archive.Confinement

/-! # How many files an archive has

    The number of entries of a directory is read from a field of at most eight
    bytes, and no file comes up that is not an entry.  So every file of an
    archive has an index of 64 bits. -/

namespace Neaten.Archive

/-! ## Fields -/

theorem fromLittle_lt (bytes : Bytes) : fromLittle bytes < capacity bytes.length := by
  induction bytes with
  | nil => exact Nat.one_pos
  | cons b rest ih =>
    have hb := b.toNat_lt
    rw [fromLittle, List.length_cons, capacity]
    omega

/-- A number that was read fits into the field that it was read from. -/
theorem lt_of_takeNumber?_eq_some {width n : Nat} {bytes rest : Bytes}
    (h : takeNumber? width bytes = some (n, rest)) : n < capacity width := by
  unfold takeNumber? takeBytes? at h
  split at h
  · next hwidth =>
    rw [List.splitAt_eq] at h
    obtain ⟨rfl, -⟩ := Prod.mk.inj (Option.some.inj h)
    have hlt := fromLittle_lt (bytes.take width)
    rwa [List.length_take, Nat.min_eq_left hwidth] at hlt
  · cases h

/-- Numbers that were read fit into their fields. -/
theorem forall₂_of_takeNumbers?_eq_some {widths ns : List Nat} {bytes rest : Bytes}
    (h : takeNumbers? widths bytes = some (ns, rest)) :
    List.Forall₂ (fun width n => n < capacity width) widths ns := by
  induction widths generalizing ns bytes rest with
  | nil =>
    obtain ⟨rfl, -⟩ := Prod.mk.inj (Option.some.inj h)
    exact .nil
  | cons width more ih =>
    rw [takeNumbers?] at h
    obtain ⟨⟨n, after⟩, hn, h⟩ := Option.bind_eq_some_iff.mp h
    obtain ⟨⟨others, last⟩, hothers, h⟩ := Option.bind_eq_some_iff.mp h
    obtain ⟨rfl, -⟩ := Prod.mk.inj (Option.some.inj h)
    exact .cons (lt_of_takeNumber?_eq_some hn) (ih hothers)

/-! ## The directory -/

/-- No field is wider than eight bytes. -/
theorem EndRecord.entriesHere_lt {bytes : Bytes} {place : Nat} {r : EndRecord}
    (h : EndRecord.read bytes place = .ok r) : r.entriesHere < capacity 8 := by
  unfold EndRecord.read at h
  split at h
  · next hfields =>
    split at h
    · obtain rfl := Except.ok.inj h
      have hfit := forall₂_of_takeNumbers?_eq_some hfields
      simp only [List.forall₂_cons] at hfit
      exact Nat.lt_trans hfit.2.2.2.1 (by decide)
    · cases h
  · cases h

theorem Locator.entries_directoryAt_lt {l : Locator} {bytes : Bytes} {place : Nat}
    {d : DirectoryPlace} (h : l.directoryAt bytes place = .ok d) : d.entries < capacity 8 := by
  unfold Locator.directoryAt at h
  split at h
  · next hfields =>
    have hfit := forall₂_of_takeNumbers?_eq_some hfields
    simp only [List.forall₂_cons] at hfit
    -- Of all the checks on the record only that it passes them matters.
    repeat
      split at h
      · cases h
    obtain rfl := Except.ok.inj h
    exact hfit.2.2.2.2.2.2.2.1
  · cases h

theorem Locator.entries_firstDirectory_lt {l : Locator} {bytes : Bytes} {places : List Nat}
    {fault : Option Fault} {d : DirectoryPlace}
    (h : l.firstDirectory bytes fault places = .ok d) : d.entries < capacity 8 := by
  induction places generalizing fault with
  | nil => cases h
  | cons place rest ih =>
    rw [Locator.firstDirectory] at h
    split at h
    · next hdirectory =>
      obtain rfl := Except.ok.inj h
      exact Locator.entries_directoryAt_lt hdirectory
    · exact ih h

/-- A directory has a number of entries that fits into eight bytes. -/
theorem EndRecord.entries_locate_lt {bytes : Bytes} {place : Nat} {r : EndRecord}
    {d : DirectoryPlace} (hread : EndRecord.read bytes place = .ok r)
    (h : r.locate bytes place = .ok d) : d.entries < capacity 8 := by
  have hhere := EndRecord.entriesHere_lt hread
  unfold EndRecord.locate at h
  split at h
  · unfold Locator.directory at h
    split at h
    · cases h
    split at h
    · cases h
    exact Locator.entries_firstDirectory_lt h
  · unfold EndRecord.directory at h
    dsimp only at h
    split at h
    · obtain rfl := Except.ok.inj h
      exact hhere
    split at h
    · cases h
    split at h
    · cases h
    · obtain rfl := Except.ok.inj h
      exact hhere

/-! ## Entries and files -/

theorem length_readEntryInfos? {place : DirectoryPlace} {count : Nat} {bytes : Bytes}
    {entries : List EntryInfo} (h : readEntryInfos? place count bytes = some entries) :
    entries.length = count := by
  induction count generalizing bytes entries with
  | zero =>
    obtain rfl : [] = entries := Option.some.inj h
    rfl
  | succ count ih =>
    rw [readEntryInfos?] at h
    split at h
    · cases h
    · split at h
      · obtain ⟨rest, hrest, rfl⟩ := Option.map_eq_some_iff.mp h
        rw [List.length_cons, ih hrest]
      · cases h

theorem length_addEntry_le (entry : EntryInfo) (entries : List EntryInfo) :
    (addEntry entry entries).length ≤ entries.length + 1 := by
  induction entries with
  | nil => exact Nat.le_refl 1
  | cons e rest ih =>
    rw [addEntry]
    split
    · exact Nat.le_succ _
    · exact Nat.succ_le_succ ih

/-- Collapsing entries of one name gives no more than there were. -/
theorem length_collapse_le (entries : List EntryInfo) :
    (collapse entries).length ≤ entries.length := by
  have hsum : ∀ sum : List EntryInfo,
      (entries.foldl (fun sum entry => addEntry entry sum) sum).length ≤
        sum.length + entries.length := by
    induction entries with
    | nil => exact fun sum => Nat.le_refl _
    | cons entry rest ih =>
      intro sum
      have hadd := length_addEntry_le entry sum
      have hrest := ih (addEntry entry sum)
      rw [List.foldl_cons, List.length_cons]
      omega
  simpa [collapse] using hsum []

theorem length_openFrom_lt {bytes : Bytes} {places : List Nat} {note : Option Fault}
    {entries : List EntryInfo} (h : openFrom bytes note places = .ok entries) :
    entries.length < capacity 8 := by
  induction places generalizing note with
  | nil => cases h
  | cons place rest ih =>
    rw [openFrom] at h
    split at h
    · exact ih h
    · next r hread =>
      split at h
      · exact ih h
      · next d hdirectory =>
        split at h
        · exact ih h
        · next infos hinfos =>
          obtain rfl := Except.ok.inj h
          unfold DirectoryPlace.read? at hinfos
          split at hinfos
          · have hcount := length_readEntryInfos? hinfos
            have hfit := EndRecord.entries_locate_lt hread hdirectory
            have hle := length_collapse_le infos
            omega
          · cases hinfos

/-- **Every file of an archive has an index of 64 bits.** -/
theorem length_readFiles_lt {bytes : Bytes} {files : List File}
    (h : readFiles bytes = .ok files) : files.length < UInt64.size := by
  obtain ⟨entries, hopen, hread⟩ := readFiles_eq_ok h
  have hlength := congrArg List.length (map_path_of_readFrom hread)
  rw [List.length_map, List.length_map] at hlength
  calc files.length
      = (entries.filter (IsKept ·)).length := hlength
    _ ≤ entries.length := List.length_filter_le _ entries
    _ < UInt64.size := length_openFrom_lt hopen

end Neaten.Archive
