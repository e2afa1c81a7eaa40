import Neaten.Archive.Directory
import Neaten.Archive.Inflate
import Neaten.Archive.Name

/-! # Reading archives

    The files of an archive in the order of its directory.  Directories are
    left out, and so are files whose stored name leads outside the archive. -/

namespace Neaten.Archive

/-- A file of an archive. -/
structure File where
  /-- The path inside the archive, with `/` between components. -/
  path : Text
  data : Bytes
deriving DecidableEq

/-! ## Contents -/

/-- How the contents of a file are compressed. -/
inductive Method where
  | stored
  | deflated
deriving DecidableEq

/-- The method of a number. -/
def Method.ofNumber? : Nat → Option Method
  | 0 => some stored
  | 8 => some deflated
  | _ => none

/-- Undoes the compression. -/
def Method.expand : Method → Bytes → Except Damage Bytes
  | stored, data => .ok data
  | deflated, data =>
    match Inflate.inflate data with
    | .ok data => .ok data
    | .error .corrupt => .error .corrupt
    | .error .incomplete => .error .incomplete

/-- The stored data of an entry: as many bytes as its directory says, or as
    there are, after the local header, whose name and extra fields may differ
    in length from those of the directory. -/
def storedData (bytes : Bytes) (entry : EntryInfo) : Except Fault Bytes :=
  match takeNumbers? [4, 2, 2, 2, 2, 2, 4, 4, 4, 2, 2] (bytes.drop entry.headerStart) with
  | some ([signature, _, _, _, _, _, _, _, _, nameLength, extraLength], rest) =>
    if signature = fromLittle localSignature then
      .ok ((rest.drop (nameLength + extraLength)).take entry.compressedSize)
    else .error .noLocalHeader
  | _ => .error .truncated

/-- How the contents of an entry are compressed, and the compressed data. -/
def locate (bytes : Bytes) (entry : EntryInfo) : Except Fault (Method × Bytes) := do
  if entry.isEncrypted then throw .encrypted
  let data ← storedData bytes entry
  match Method.ofNumber? entry.method with
  | none => throw .unknownMethod
  | some method =>
    if entry.hasStrongEncryption then throw .wrongPassword
    return (method, data)

/-- The contents of an entry, checked against its checksum. -/
def contents (entry : EntryInfo) (method : Method) (data : Bytes) : Except Damage Bytes := do
  let data ← method.expand data
  if (checksum data).toNat = entry.crc then return data else throw .checksum

/-! ## Files -/

/-- The files of some entries, the first of which has the given index. -/
def readFrom (bytes : Bytes) : (index : Nat) → List EntryInfo → Except Error (List File)
  | _, [] => .ok []
  | index, entry :: rest =>
    match locate bytes entry with
    | .error fault => .error (.entry index fault)
    | .ok (method, data) =>
      -- An entry is located even if it is left out, so a fault in it counts.
      if isDirectoryName entry.name ∨ !isConfined entry.name then
        readFrom bytes (index + 1) rest
      else
        let path := pathOfName entry.name
        match contents entry method data with
        | .error damage => .error (.contents path damage)
        | .ok data => (⟨path, data⟩ :: ·) <$> readFrom bytes (index + 1) rest

/-- The files of an archive. -/
def readFiles (bytes : Bytes) : Except Error (List File) :=
  match openEntries bytes with
  | .error fault => .error (.opening fault)
  | .ok entries => readFrom bytes 0 entries

end Neaten.Archive
