import Neaten.Archive.Number
import Neaten.Archive.Checksum
import Neaten.Text.Utf8

/-! # Extra fields

    A directory entry may be followed by tagged fields that amend it: sizes of
    64 bits, a name or comment in UTF-8, the inner method of an encrypted file.
    Fields that end early leave the entry as amended so far; a field that
    contradicts itself makes the entry unreadable. -/

namespace Neaten.Archive

/-- The parts of a directory entry that extra fields can amend. -/
structure EntryInfo where
  /-- The name as it was stored. -/
  rawName : Bytes
  name : Text
  comment : Text
  /-- How the contents are compressed. -/
  method : Nat
  crc : Nat
  compressedSize : Nat
  size : Nat
  /-- Where the local header starts. -/
  headerStart : Nat
  /-- The flag bit of encryption. -/
  isEncrypted : Bool
  /-- Whether a field of strong encryption was found. -/
  hasStrongEncryption : Bool
deriving DecidableEq

namespace ExtraField

/-- What became of an entry by a field. -/
inductive Step where
  /-- The bytes ended within the field. -/
  | endsEarly
  /-- The field contradicts itself or the entry. -/
  | bad
  | amended (entry : EntryInfo) (rest : Bytes)

/-- A size that does not fit into 32 bits is given in a field. -/
def isOverflow (n : Nat) : Bool := n == 0xFFFFFFFF

/-- The 64-bit number at the front if `present`, else the number as it is,
    together with how many bytes were used. -/
def largeNumber (present : Bool) (n used : Nat) (bytes : Bytes) : Option (Nat × Nat × Bytes) :=
  if present then (takeNumber? 8 bytes).map fun (n, rest) => (n, used + 8, rest)
  else some (n, used, bytes)

/-- The field of 64-bit sizes: those that do not fit, in a fixed order, or all
    of them if the field has room. -/
def large (entry : EntryInfo) (length : Nat) (bytes : Bytes) : Step :=
  let all := 24 ≤ length
  let amended := do
    let (size, used, bytes) ← largeNumber (all || isOverflow entry.size) entry.size 0 bytes
    let (compressedSize, used, bytes) ←
      largeNumber (all || isOverflow entry.compressedSize) entry.compressedSize used bytes
    let (headerStart, used, bytes) ←
      largeNumber (all || isOverflow entry.headerStart) entry.headerStart used bytes
    return ({ entry with size, compressedSize, headerStart }, used, bytes)
  match amended with
  | none => .endsEarly
  | some (entry, used, bytes) =>
    -- What the field has beyond the numbers is passed over.
    if length < used then .bad
    else match takeBytes? (length - used) bytes with
      | none => .bad
      | some (_, rest) => .amended entry rest

/-- A text in UTF-8 that replaces another whose checksum it repeats: the bytes
    and the text, after the version and the checksum. -/
def replacement? (stored : Bytes) (length : Nat) (bytes : Bytes) :
    Option (Option (Bytes × Text) × Bytes) := do
  let (_, bytes) ← takeNumber? 1 bytes
  let (crc, bytes) ← takeNumber? 4 bytes
  -- A field too short for its checksum replaces nothing.
  if length < 5 then return (none, bytes)
  let (replaced, rest) ← takeBytes? (length - 5) bytes
  if (checksum stored).toNat = crc then
    return ((Utf8.decode? replaced).map (replaced, ·), rest)
  else return (none, rest)

/-- The field of the name in UTF-8. -/
def unicodeName (entry : EntryInfo) (length : Nat) (bytes : Bytes) : Step :=
  match replacement? entry.rawName length bytes with
  | none => .endsEarly
  | some (none, _) => .bad
  | some (some (rawName, name), rest) => .amended { entry with rawName, name } rest

/-- The field of the comment in UTF-8. -/
def unicodeComment (entry : EntryInfo) (length : Nat) (bytes : Bytes) : Step :=
  match replacement? (Utf8.encode entry.comment) length bytes with
  | none => .endsEarly
  | some (none, _) => .bad
  | some (some (_, comment), rest) => .amended { entry with comment } rest

/-- The field of strong encryption: a version, the maker's mark, a strength and
    the method inside. -/
def strongEncryption (entry : EntryInfo) (length : Nat) (bytes : Bytes) : Step :=
  if length ≠ 7 then .bad
  else match takeNumbers? [2, 2, 1, 2] bytes with
    | some ([version, maker, strength, method], rest) =>
      if maker = 0x4541 ∧ (version = 1 ∨ version = 2) ∧ (1 ≤ strength ∧ strength ≤ 3) then
        .amended { entry with method, hasStrongEncryption := true } rest
      else .bad
    | _ => .endsEarly

/-- How many of the lowest three bits of a number are set, and of all eight. -/
def timeBits (flags : Nat) : Nat × Nat :=
  (((List.range 3).filter flags.testBit).length, ((List.range 8).filter flags.testBit).length)

/-- The field of times.  Its flags must agree with its length, unless it has
    room for one time only. -/
def times (entry : EntryInfo) (length : Nat) (bytes : Bytes) : Step :=
  match takeNumber? 1 bytes with
  | none => .endsEarly
  | some (flags, bytes) =>
    let (known, all) := timeBits flags
    if length ≠ 5 ∧ length ≠ 1 + 4 * all then .bad
    else match takeBytes? (4 * if length = 5 then 1 else known) bytes with
      | none => .endsEarly
      | some (_, rest) => .amended entry rest

/-- The field of file times in another epoch, which has one fixed shape. -/
def fileTimes (entry : EntryInfo) (length : Nat) (bytes : Bytes) : Step :=
  if length ≠ 32 then .bad
  else match takeNumbers? [4, 2] bytes with
    | some ([_, tag], bytes) =>
      if tag ≠ 1 then .bad
      else match takeNumber? 2 bytes with
        | none => .endsEarly
        | some (size, bytes) =>
          if size ≠ 24 then .bad
          else match takeBytes? 24 bytes with
            | none => .endsEarly
            | some (_, rest) => .amended entry rest
    | _ => .endsEarly

/-- A field that says nothing here. -/
def other (entry : EntryInfo) (length : Nat) (bytes : Bytes) : Step :=
  match takeBytes? length bytes with
  | none => .endsEarly
  | some (_, rest) => .amended entry rest

/-- What a field does, given its tag and length and the bytes after those. -/
def apply (tag : Nat) : EntryInfo → Nat → Bytes → Step :=
  if tag = 0x0001 then large
  else if tag = 0x000A then fileTimes
  else if tag = 0x5455 then times
  else if tag = 0x6375 then unicodeComment
  else if tag = 0x7075 then unicodeName
  else if tag = 0x9901 then strongEncryption
  else other

/-- Amends an entry by its extra fields, or nothing if one of them is bad. -/
def amend (entry : EntryInfo) (fields : Bytes) : Option EntryInfo :=
  match takeNumbers? [2, 2] fields with
  | some ([tag, length], bytes) =>
    match apply tag entry length bytes with
    | .endsEarly => some entry
    | .bad => none
    | .amended entry rest =>
      if rest.length < fields.length then amend entry rest else some entry
  | _ => some entry
termination_by fields.length

end ExtraField

end Neaten.Archive
