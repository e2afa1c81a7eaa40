import Neaten.Text.Basic

/-! # Checksum

    The cyclic redundancy check that an archive stores for each of its files:
    32 bits, the polynomial 0xEDB88320 with the lowest bit first, started and
    ended by inverting every bit. -/

namespace Neaten.Archive

/-- One bit of the check. -/
def checksumBit (crc : UInt32) : UInt32 :=
  if crc &&& 1 = 1 then (crc >>> 1) ^^^ 0xEDB88320 else crc >>> 1

/-- The bits of one byte. -/
def checksumByte (crc : UInt32) (b : UInt8) : UInt32 :=
  (List.range 8).foldl (fun crc _ => checksumBit crc) (crc ^^^ b.toUInt32)

/-- The check of a byte string. -/
def checksum (bytes : Bytes) : UInt32 := bytes.foldl checksumByte 0xFFFFFFFF ^^^ 0xFFFFFFFF

end Neaten.Archive
