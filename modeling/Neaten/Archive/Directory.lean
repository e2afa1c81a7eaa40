import Neaten.Archive.EndRecord
import Neaten.Archive.ExtraField
import Neaten.Text.CodePage437

/-! # The directory of an archive

    The directory lists the entries; only it counts, not what the local
    headers repeat.  Entries of the same name collapse into one, which keeps
    the position of the first and has the contents of the last. -/

namespace Neaten.Archive

/-- Decodes a name or comment. -/
def decodeName (isUtf8 : Bool) (bytes : Bytes) : Text :=
  if isUtf8 then Utf8.decodeLossy bytes else CodePage437.decode bytes

/-- The method of a file under strong encryption. -/
def encryptedMethod : Nat := 99

/-- Reads an entry off the front of some bytes. -/
def EntryInfo.read? (shift : Nat) (bytes : Bytes) : Option (EntryInfo × Bytes) := do
  let bytes ← dropSignature? entrySignature bytes
  match ← takeNumbers? [2, 2, 2, 2, 2, 2, 4, 4, 4, 2, 2, 2, 2, 2, 4, 4] bytes with
  | ([_, _, flags, method, _, _, crc, compressedSize, size, nameLength, extraLength,
      commentLength, _, _, _, headerStart], bytes) =>
    let (rawName, bytes) ← takeBytes? nameLength bytes
    let (extra, bytes) ← takeBytes? extraLength bytes
    let (comment, bytes) ← takeBytes? commentLength bytes
    -- The flag tells the encoding of the name and of the comment.
    let isUtf8 := flags.testBit 11
    let entry ← ExtraField.amend
      { rawName, name := decodeName isUtf8 rawName, comment := decodeName isUtf8 comment,
        method, crc, compressedSize, size, headerStart,
        isEncrypted := flags.testBit 0, hasStrongEncryption := false } extra
    -- Only a field of strong encryption tells the method inside.
    if entry.method = encryptedMethod ∧ !entry.hasStrongEncryption then none
    else return ({ entry with headerStart := entry.headerStart + shift }, bytes)
  | _ => none

/-- Reads `count` entries, each with its local header before the directory. -/
def readEntryInfos? (place : DirectoryPlace) : (count : Nat) → Bytes → Option (List EntryInfo)
  | 0, _ => some []
  | count + 1, bytes =>
    match EntryInfo.read? place.shift bytes with
    | none => none
    | some (entry, bytes) =>
      if entry.headerStart < place.start then
        (readEntryInfos? place count bytes).map (entry :: ·)
      else none

/-- The entries of a directory, or nothing if any part of it is wrong. -/
def DirectoryPlace.read? (place : DirectoryPlace) (bytes : Bytes) : Option (List EntryInfo) :=
  if place.isSound ∧ place.sameDisk then
    readEntryInfos? place place.entries (bytes.drop place.start)
  else none

/-- Adds an entry, in place of one of the same name if there is one. -/
def addEntry (entry : EntryInfo) : List EntryInfo → List EntryInfo
  | [] => [entry]
  | e :: rest => if e.name = entry.name then entry :: rest else e :: addEntry entry rest

/-- The entries with those of the same name collapsed. -/
def collapse (entries : List EntryInfo) : List EntryInfo :=
  entries.foldl (fun sum entry => addEntry entry sum) []

/-! ## Opening -/

/-- The entries that the first good end record leads to.  The places are given
    from the last to the first.  A record that leads nowhere leaves a note of
    its fault; one that leads to a directory that cannot be read clears it. -/
def openFrom (bytes : Bytes) : (note : Option Fault) → List Nat → Except Fault (List EntryInfo)
  | note, [] => .error (note.getD .noEndRecord)
  | note, place :: places =>
    match EndRecord.read bytes place with
    | .error fault => openFrom bytes (note <|> some fault) places
    | .ok record =>
      match record.locate bytes place with
      | .error fault => openFrom bytes (some fault) places
      | .ok directory =>
        match directory.read? bytes with
        | none => openFrom bytes none places
        | some entries => .ok (collapse entries)

/-- The entries of an archive. -/
def openEntries (bytes : Bytes) : Except Fault (List EntryInfo) :=
  openFrom bytes none (occurrences endSignature 0 bytes).reverse

end Neaten.Archive
