import Neaten.Archive.Number
import Neaten.Archive.Error

/-! # The end of an archive

    An archive is found from its end: the end record says where the directory
    starts and how many entries it has.  Since anything may stand before the
    archive and after it, the record is searched for from the end backwards,
    and the directory from the place it is said to start at.  How far beyond
    that place it lies is how much stands before the archive.

    A count or place that does not fit is kept in a larger end record, which a
    locator before the end record points to. -/

namespace Neaten.Archive

/-! ## Signatures -/

/-- The four bytes that start a local header. -/
def localSignature : Bytes := [0x50, 0x4B, 0x03, 0x04]

/-- The four bytes that start an entry of the directory. -/
def entrySignature : Bytes := [0x50, 0x4B, 0x01, 0x02]

/-- The four bytes that start the end record. -/
def endSignature : Bytes := [0x50, 0x4B, 0x05, 0x06]

/-- The four bytes that start the locator of a large end record. -/
def locatorSignature : Bytes := [0x50, 0x4B, 0x06, 0x07]

/-- The four bytes that start a large end record. -/
def largeEndSignature : Bytes := [0x50, 0x4B, 0x06, 0x06]

/-- The places where a signature starts, from the first to the last, given the
    place of the first byte. -/
def occurrences (signature : Bytes) : (start : Nat) → Bytes → List Nat
  | _, [] => []
  | start, b :: rest =>
    if signature.isPrefixOf (b :: rest) then start :: occurrences signature (start + 1) rest
    else occurrences signature (start + 1) rest

/-- The places from `first` on and before `bound` where a signature starts. -/
def occurrencesBetween (signature : Bytes) (first bound : Nat) (bytes : Bytes) : List Nat :=
  occurrences signature first ((bytes.take bound).drop first)

/-- Drops a signature off the front. -/
def dropSignature? (signature : Bytes) (bytes : Bytes) : Option Bytes :=
  if signature.isPrefixOf bytes then some (bytes.drop signature.length) else none

/-! ## End records -/

/-- What the end record says of the directory. -/
structure EndRecord where
  disk : Nat
  directoryDisk : Nat
  /-- The number of entries on this disk. -/
  entriesHere : Nat
  entries : Nat
  /-- Where the directory is said to start. -/
  directoryStart : Nat
deriving DecidableEq

/-- Reads the end record at a place. -/
def EndRecord.read (bytes : Bytes) (place : Nat) : Except Fault EndRecord :=
  match takeNumbers? [4, 2, 2, 2, 2, 4, 4, 2] (bytes.drop place) with
  | some ([_, disk, directoryDisk, entriesHere, entries, _, directoryStart, comment], rest) =>
    if comment ≤ rest.length then
      .ok { disk, directoryDisk, entriesHere, entries, directoryStart }
    else .error .commentTooLong
  | _ => .error .truncated

/-- Whether the record leaves a number to a large end record. -/
def EndRecord.mayBeLarge (r : EndRecord) : Bool :=
  r.entries == 0xFFFF || r.directoryStart == 0xFFFFFFFF

/-- What points to a large end record. -/
structure Locator where
  /-- Where the locator itself starts. -/
  place : Nat
  disk : Nat
  /-- Where the large end record is said to start. -/
  largeEnd : Nat
  disks : Nat
deriving DecidableEq

/-- Reads the locator in the twenty bytes before an end record. -/
def Locator.read? (bytes : Bytes) (endPlace : Nat) : Option Locator :=
  if endPlace < 20 then none
  else do
    let place := endPlace - 20
    let after ← dropSignature? locatorSignature (bytes.drop place)
    match ← takeNumbers? [4, 8, 4] after with
    | ([disk, largeEnd, disks], _) => return { place, disk, largeEnd, disks }
    | _ => none

/-! ## Where the directory is -/

/-- The directory of an archive, as far as the end of the archive tells. -/
structure DirectoryPlace where
  /-- Where its first entry starts. -/
  start : Nat
  /-- How much stands before the archive. -/
  shift : Nat
  entries : Nat
  /-- Whether it is on the disk that holds the end record. -/
  sameDisk : Bool
  /-- Whether the end record is in order. -/
  isSound : Bool
deriving DecidableEq

/-- The directory that an end record at a place leads to. -/
def EndRecord.directory (r : EndRecord) (bytes : Bytes) (place : Nat) :
    Except Fault DirectoryPlace :=
  let found (start shift : Nat) : DirectoryPlace :=
    { start, shift, entries := r.entriesHere,
      sameDisk := r.disk == r.directoryDisk, isSound := true }
  -- A directory without entries is not searched for.
  if r.entries = 0 then .ok (found (r.directoryStart + (place - r.directoryStart))
    (place - r.directoryStart))
  else if place ≤ r.directoryStart then .error .directoryAfterEnd
  else match occurrencesBetween entrySignature r.directoryStart place bytes with
    | [] => .error .noDirectory
    | start :: _ => .ok (found start (start - r.directoryStart))

/-- The directory that a large end record at a place leads to. -/
def Locator.directoryAt (l : Locator) (bytes : Bytes) (place : Nat) :
    Except Fault DirectoryPlace :=
  match takeNumbers? [4, 8, 2, 2, 4, 4, 8, 8, 8, 8] (bytes.drop place) with
  | some ([_, size, madeBy, needed, disk, directoryDisk, entriesHere, entries, _,
      directoryStart], rest) =>
    -- The size leaves out the signature and the size itself, twelve bytes.
    if size < 44 then .error .shortLargeEnd
    else if l.place - place < size + 12 then .error .largeEndTooLong
    else if rest.length < size - 44 then .error .truncated
    else if directoryDisk ≠ l.disk then .error .largeEndDisk
    else if size + 12 ≠ l.place - place then .error .largeEndLength
    -- The directory lies before this record, and no entry is shorter than 46 bytes.
    else if place < entries * 46 + directoryStart then .error .largeEndCount
    else .ok
      { start := directoryStart + (place - l.largeEnd), shift := place - l.largeEnd, entries,
        sameDisk := disk == directoryDisk,
        isSound := entriesHere ≤ entries && needed ≤ madeBy }
  | _ => .error .truncated

/-- The first of some places where a large end record leads to a directory, or
    the last fault met. -/
def Locator.firstDirectory (l : Locator) (bytes : Bytes) :
    Option Fault → List Nat → Except Fault DirectoryPlace
  | fault, [] => .error (fault.getD .noLargeEnd)
  | _, place :: places =>
    match l.directoryAt bytes place with
    | .ok directory => .ok directory
    | .error fault => l.firstDirectory bytes (some fault) places

/-- The directory that a locator leads to. -/
def Locator.directory (l : Locator) (bytes : Bytes) : Except Fault DirectoryPlace :=
  if l.place ≤ l.largeEnd then .error .largeEndAfterLocator
  else if l.disks > 1 then .error .severalDisks
  else l.firstDirectory bytes none
    (occurrencesBetween largeEndSignature l.largeEnd l.place bytes)

/-- The directory that an end record at a place leads to, through a large end
    record if there is one. -/
def EndRecord.locate (r : EndRecord) (bytes : Bytes) (place : Nat) :
    Except Fault DirectoryPlace :=
  match if r.mayBeLarge then Locator.read? bytes place else none with
  | some l => l.directory bytes
  | none => r.directory bytes place

end Neaten.Archive
