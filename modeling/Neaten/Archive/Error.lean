import Neaten.Text.Basic

/-! # Archive errors

    What can be wrong with an archive, from the search for its end record to
    the contents of a file. -/

namespace Neaten.Archive

/-- What is wrong with a record of an archive. -/
inductive Fault where
  /-- The record runs past the end of the bytes. -/
  | truncated
  | noEndRecord
  /-- The comment of the end record runs past the end of the bytes. -/
  | commentTooLong
  /-- The directory is said to start at or after its end record. -/
  | directoryAfterEnd
  | noDirectory
  /-- The large end record is said to start at or after its locator. -/
  | largeEndAfterLocator
  | severalDisks
  | noLargeEnd
  | shortLargeEnd
  | largeEndTooLong
  /-- The large end record and its locator name different disks. -/
  | largeEndDisk
  | largeEndLength
  /-- The large end record counts more files than fit before it. -/
  | largeEndCount
  | encrypted
  | wrongPassword
  | noLocalHeader
  | unknownMethod
deriving DecidableEq

/-- A fault in words. -/
def Fault.message : Fault → Text
  | truncated => "i/o error"
  | noEndRecord => "invalid Zip archive: Could not find EOCD"
  | commentTooLong => "invalid Zip archive: EOCD comment exceeds file boundary"
  | directoryAfterEnd => "invalid Zip archive: Invalid CDFH offset in EOCD"
  | noDirectory => "invalid Zip archive: No CDFH found"
  | largeEndAfterLocator => "invalid Zip archive: Invalid EOCD64 Locator CD offset"
  | severalDisks => "invalid Zip archive: Multi-disk ZIP files are not supported"
  | noLargeEnd => "invalid Zip archive: Could not find EOCD64"
  | shortLargeEnd => "invalid Zip archive: Low EOCD64 record size"
  | largeEndTooLong => "invalid Zip archive: EOCD64 extends beyond EOCD64 locator"
  | largeEndDisk => "invalid Zip archive: Invalid EOCD64: inconsistency with Locator data"
  | largeEndLength => "invalid Zip archive: Invalid EOCD64: inconsistent length"
  | largeEndCount => "invalid Zip archive: Invalid EOCD64: inconsistent number of files"
  | encrypted => "unsupported Zip archive: Password required to decrypt file"
  | wrongPassword => "provided password is incorrect"
  | noLocalHeader => "invalid Zip archive: Invalid local file header"
  | unknownMethod => "unsupported Zip archive: Compression method not supported"

/-- What is wrong with the contents of a file. -/
inductive Damage where
  | corrupt
  /-- The compressed data end before the contents do. -/
  | incomplete
  | checksum
deriving DecidableEq

/-- A damage in words. -/
def Damage.message : Damage → Text
  | corrupt => "corrupt deflate stream"
  | incomplete => "incomplete deflate stream"
  | checksum => "Invalid checksum"

/-- Why an archive could not be read. -/
inductive Error where
  /-- It could not be opened. -/
  | opening (fault : Fault)
  /-- The entry with this index could not be found or is not supported. -/
  | entry (index : Nat) (fault : Fault)
  /-- The contents of the file at this path are damaged. -/
  | contents (path : Text) (damage : Damage)
deriving DecidableEq

/-- An error in words. -/
def Error.message : Error → Text
  | opening fault => fault.message
  | entry index fault => "entry #" ++ Text.decimal index ++ ": " ++ fault.message
  | contents path damage => "failed to read entry '" ++ path ++ "': " ++ damage.message

end Neaten.Archive
