import Neaten.Archive.Checksum
import Neaten.Archive.EndRecord
import Neaten.Text.Utf8

/-! # Writing archives

    A plain archive: every file is stored as it is under a name in UTF-8, the
    directory follows the files in the same order, and the end record follows
    the directory without a comment. -/

namespace Neaten.Archive

/-- A file to be stored: its name and its data. -/
abbrev Member : Type := Text × Bytes

/-- Numbers in fields of the given widths, one after another. -/
def fields (ns : List (Nat × Nat)) : Bytes := ns.flatMap fun (width, n) => toLittle width n

/-- The version that a reader needs. -/
def neededVersion : Nat := 20

/-- The flag bits of a name in UTF-8. -/
def utf8Flag : Nat := 0x800

/-- What a local header and a directory entry say alike: version, flags,
    method, time, date, checksum, both sizes and the lengths of the name and of
    the extra fields. -/
def commonFields (m : Member) : Bytes :=
  fields [(2, neededVersion), (2, utf8Flag), (2, 0), (2, 0), (2, 0),
    (4, (checksum m.2).toNat), (4, m.2.length), (4, m.2.length),
    (2, (Utf8.encode m.1).length), (2, 0)]

/-- A file with its local header. -/
def writeMember (m : Member) : Bytes :=
  localSignature ++ commonFields m ++ Utf8.encode m.1 ++ m.2

/-- The directory entry of a file whose local header starts at a place. -/
def writeEntry (start : Nat) (m : Member) : Bytes :=
  entrySignature ++ fields [(2, neededVersion)] ++ commonFields m ++
    fields [(2, 0), (2, 0), (2, 0), (4, 0), (4, start)] ++ Utf8.encode m.1

/-- The directory of some files, the first of which starts at a place. -/
def writeDirectory : (start : Nat) → List Member → Bytes
  | _, [] => []
  | start, m :: rest =>
    writeEntry start m ++ writeDirectory (start + (writeMember m).length) rest

/-- The end record of a directory with so many entries and bytes, which starts
    at a place. -/
def writeEnd (entries length start : Nat) : Bytes :=
  endSignature ++
    fields [(2, 0), (2, 0), (2, entries), (2, entries), (4, length), (4, start), (2, 0)]

/-- The archive of some files. -/
def write (members : List Member) : Bytes :=
  let stored := members.flatMap writeMember
  let directory := writeDirectory 0 members
  stored ++ directory ++ writeEnd members.length directory.length stored.length

end Neaten.Archive
