import Neaten.Archive.Directory
import Neaten.Archive.Reader
import Neaten.Archive.Writer
import Neaten.Proofs.Text.Encoding

/-! # Records read back as they were written

    A record is a signature and fields of fixed widths, in some of them the
    lengths of what follows.  Whatever comes after it, a reader at the place of
    a record gets the numbers that were written, as long as each fits into its
    field. -/

namespace Neaten.Archive

/-! ## Fields -/

@[simp] theorem fields_nil : fields [] = [] := rfl

@[simp] theorem fields_cons (width n : Nat) (rest : List (Nat × Nat)) :
    fields ((width, n) :: rest) = toLittle width n ++ fields rest := rfl

theorem length_fields (ns : List (Nat × Nat)) :
    (fields ns).length = (ns.map Prod.fst).foldr (· + ·) 0 := by
  induction ns with
  | nil => rfl
  | cons field rest ih =>
    obtain ⟨width, n⟩ := field
    rw [fields_cons, List.length_append, length_toLittle, ih, List.map_cons, List.foldr_cons]

/-- Numbers that fit into their fields are read back, whatever follows. -/
theorem takeNumbers?_fields (ns : List (Nat × Nat)) (h : ∀ f ∈ ns, f.2 < capacity f.1)
    (rest : Bytes) :
    takeNumbers? (ns.map Prod.fst) (fields ns ++ rest) = some (ns.map Prod.snd, rest) := by
  induction ns with
  | nil => rfl
  | cons field more ih =>
    obtain ⟨width, n⟩ := field
    have hn : n < capacity width := h _ List.mem_cons_self
    have hmore := ih fun f hf => h f (List.mem_cons_of_mem _ hf)
    rw [fields_cons, List.append_assoc, List.map_cons, takeNumbers?]
    simp only [takeNumber?_append width n _ hn, hmore, Option.bind_eq_bind, Option.bind_some]
    rfl

/-- Where too few bytes are left, no fields are read. -/
theorem takeNumbers?_eq_none {widths : List Nat} {bytes : Bytes}
    (h : bytes.length < widths.foldr (· + ·) 0) : takeNumbers? widths bytes = none := by
  induction widths generalizing bytes with
  | nil => simp at h
  | cons width more ih =>
    rw [List.foldr_cons] at h
    rw [takeNumbers?, takeNumber?, takeBytes?]
    by_cases hw : width ≤ bytes.length
    · have hrest : (bytes.drop width).length < more.foldr (· + ·) 0 := by
        rw [List.length_drop]
        omega
      simp [if_pos hw, List.splitAt_eq, ih hrest]
    · simp [if_neg hw]

/-- A signature is the field of the number that it is. -/
theorem dropSignature?_append (signature rest : Bytes) :
    dropSignature? signature (signature ++ rest) = some rest := by
  simp [dropSignature?]

/-! ## The end record -/

/-- The record of a directory with so many entries that starts at a place. -/
def EndRecord.plain (entries start : Nat) : EndRecord :=
  { disk := 0, directoryDisk := 0, entriesHere := entries, entries, directoryStart := start }

/-- The numbers of an end record, the signature among them. -/
def endFields (entries length start : Nat) : List (Nat × Nat) :=
  [(4, fromLittle endSignature), (2, 0), (2, 0), (2, entries), (2, entries), (4, length),
    (4, start), (2, 0)]

theorem writeEnd_eq (entries length start : Nat) :
    writeEnd entries length start = fields (endFields entries length start) := rfl

theorem length_writeEnd (entries length start : Nat) :
    (writeEnd entries length start).length = 22 := by
  rw [writeEnd_eq, length_fields]
  rfl

/-- The end record is read back. -/
theorem read_writeEnd {bytes : Bytes} {place entries length start : Nat}
    (h : bytes.drop place = writeEnd entries length start) (hentries : entries < capacity 2)
    (hlength : length < capacity 4) (hstart : start < capacity 4) :
    EndRecord.read bytes place = .ok (.plain entries start) := by
  have hfit : ∀ f ∈ endFields entries length start, f.2 < capacity f.1 := by
    simp only [endFields, List.forall_mem_cons, hentries, hlength, hstart]
    decide
  have hfields := takeNumbers?_fields _ hfit []
  rw [List.append_nil] at hfields
  simp only [endFields, List.map_cons, List.map_nil] at hfields
  rw [EndRecord.read, h, writeEnd_eq, endFields, hfields]
  rfl

/-- Within the last bytes there is no room for an end record. -/
theorem read_eq_error {bytes : Bytes} {place : Nat} (h : bytes.length < place + 22) :
    EndRecord.read bytes place = .error .truncated := by
  have hshort : (bytes.drop place).length < [4, 2, 2, 2, 2, 4, 4, 2].foldr (· + ·) 0 := by
    simp
    omega
  rw [EndRecord.read, takeNumbers?_eq_none hshort]

/-! ## Entries -/

/-- The lengths of a name and of data fit into their fields. -/
structure Member.Fits (m : Member) : Prop where
  name : (Utf8.encode m.1).length < capacity 2
  data : m.2.length < capacity 4

theorem checksum_lt (data : Bytes) : (checksum data).toNat < capacity 4 :=
  (checksum data).toNat_lt

/-- What the directory says of a member whose local header starts at a place. -/
def entryOf (start : Nat) (m : Member) : EntryInfo :=
  { rawName := Utf8.encode m.1, name := m.1, comment := [], method := 0,
    crc := (checksum m.2).toNat, compressedSize := m.2.length, size := m.2.length,
    headerStart := start, isEncrypted := false, hasStrongEncryption := false }

/-- The numbers of a directory entry after its signature. -/
def entryFields (start : Nat) (m : Member) : List (Nat × Nat) :=
  [(2, neededVersion), (2, neededVersion), (2, utf8Flag), (2, 0), (2, 0), (2, 0),
    (4, (checksum m.2).toNat), (4, m.2.length), (4, m.2.length),
    (2, (Utf8.encode m.1).length), (2, 0), (2, 0), (2, 0), (2, 0), (4, 0), (4, start)]

theorem writeEntry_eq (start : Nat) (m : Member) :
    writeEntry start m =
      entrySignature ++ (fields (entryFields start m) ++ Utf8.encode m.1) := by
  simp only [writeEntry, commonFields, entryFields, fields_cons, fields_nil, List.append_assoc,
    List.append_nil]

theorem entryFields_fit {m : Member} (hm : m.Fits) {start : Nat} (hstart : start < capacity 4) :
    ∀ f ∈ entryFields start m, f.2 < capacity f.1 := by
  have hcrc := checksum_lt m.2
  have hname := hm.name
  have hdata := hm.data
  simp only [entryFields, List.forall_mem_cons, hcrc, hname, hdata, hstart]
  decide

/-- Without extra fields nothing is amended. -/
theorem amend_nil (entry : EntryInfo) : ExtraField.amend entry [] = some entry := by
  rw [ExtraField.amend]
  rfl

/-- An entry is read back, its place moved by what stands before the archive. -/
theorem read?_writeEntry (shift : Nat) {m : Member} (hm : m.Fits) (start : Nat)
    (hstart : start < capacity 4) (rest : Bytes) :
    EntryInfo.read? shift (writeEntry start m ++ rest) =
      some (entryOf (start + shift) m, rest) := by
  have hfields := takeNumbers?_fields _ (entryFields_fit hm hstart) (Utf8.encode m.1 ++ rest)
  have hempty : takeBytes? 0 rest = some ([], rest) := takeBytes?_append [] rest
  have hname : decodeName (utf8Flag.testBit 11) (Utf8.encode m.1) = m.1 :=
    Utf8.decodeLossy_encode m.1
  simp only [entryFields, List.map_cons, List.map_nil] at hfields
  rw [EntryInfo.read?, writeEntry_eq, List.append_assoc, dropSignature?_append, List.append_assoc,
    entryFields]
  simp only [Option.bind_eq_bind, Option.bind_some, hfields, takeBytes?_append, hempty, amend_nil,
    hname]
  rfl

/-! ## Members -/

/-- The numbers of a local header, the signature among them. -/
def headerFields (m : Member) : List (Nat × Nat) :=
  [(4, fromLittle localSignature), (2, neededVersion), (2, utf8Flag), (2, 0), (2, 0), (2, 0),
    (4, (checksum m.2).toNat), (4, m.2.length), (4, m.2.length),
    (2, (Utf8.encode m.1).length), (2, 0)]

theorem writeMember_eq (m : Member) :
    writeMember m = fields (headerFields m) ++ (Utf8.encode m.1 ++ m.2) := by
  rw [writeMember, List.append_assoc]
  rfl

theorem length_writeMember (m : Member) :
    (writeMember m).length = 30 + ((Utf8.encode m.1).length + m.2.length) := by
  rw [writeMember_eq, List.length_append, List.length_append, length_fields]
  rfl

theorem headerFields_fit {m : Member} (hm : m.Fits) :
    ∀ f ∈ headerFields m, f.2 < capacity f.1 := by
  have hcrc := checksum_lt m.2
  have hname := hm.name
  have hdata := hm.data
  simp only [headerFields, List.forall_mem_cons, hcrc, hname, hdata]
  decide

/-- The entry of a member leads to the data of the member. -/
theorem locate_entryOf {bytes rest : Bytes} {start : Nat} {m : Member} (hm : m.Fits)
    (h : bytes.drop start = writeMember m ++ rest) :
    locate bytes (entryOf start m) = .ok (.stored, m.2) := by
  have hfields := takeNumbers?_fields _ (headerFields_fit hm) (Utf8.encode m.1 ++ m.2 ++ rest)
  simp only [headerFields, List.map_cons, List.map_nil] at hfields
  have hdata : ((Utf8.encode m.1 ++ m.2 ++ rest).drop ((Utf8.encode m.1).length + 0)).take
      m.2.length = m.2 := by
    rw [Nat.add_zero, List.append_assoc, List.drop_left, List.take_left]
  have hstored : storedData bytes (entryOf start m) = .ok m.2 := by
    rw [storedData, show (entryOf start m).headerStart = start from rfl, h, writeMember_eq,
      List.append_assoc, headerFields, hfields]
    dsimp only
    rw [if_pos rfl]
    exact congrArg Except.ok hdata
  rw [locate, hstored]
  rfl

/-- The data of a member agree with its entry. -/
theorem contents_entryOf (start : Nat) (m : Member) :
    contents (entryOf start m) .stored m.2 = .ok m.2 := by
  rw [contents]
  exact if_pos rfl

end Neaten.Archive
