import Neaten.Text.Basic

/-! # Little-endian numbers

    The fixed-width numbers of an archive and a reader that takes them off the
    front of a byte string.  Main statement: reading takes back what writing
    put there, whatever follows. -/

namespace Neaten.Archive

/-- The number that some bytes are, the lowest byte first. -/
def fromLittle : Bytes → Nat
  | [] => 0
  | b :: rest => b.toNat + 256 * fromLittle rest

/-- The lowest `width` bytes of a number, the lowest first. -/
def toLittle : (width : Nat) → Nat → Bytes
  | 0, _ => []
  | width + 1, n => UInt8.ofNat n :: toLittle width (n / 256)

/-- How many numbers there are of so many bytes. -/
def capacity : (width : Nat) → Nat
  | 0 => 1
  | width + 1 => 256 * capacity width

@[simp] theorem length_toLittle (width n : Nat) : (toLittle width n).length = width := by
  induction width generalizing n with
  | zero => rfl
  | succ width ih => simp [toLittle, ih]

theorem fromLittle_toLittle (width n : Nat) (h : n < capacity width) :
    fromLittle (toLittle width n) = n := by
  induction width generalizing n with
  | zero => simp [capacity] at h; simp [toLittle, fromLittle, h]
  | succ width ih =>
    have : n / 256 < capacity width := by
      rw [capacity] at h
      exact Nat.div_lt_of_lt_mul (by omega)
    simp only [toLittle, fromLittle, ih _ this, UInt8.toNat_ofNat']
    omega

/-! ## Reading off the front -/

/-- The first `count` bytes and the rest, if there are as many. -/
def takeBytes? (count : Nat) (bytes : Bytes) : Option (Bytes × Bytes) :=
  if count ≤ bytes.length then some (bytes.splitAt count) else none

/-- The number in the first `width` bytes and the rest. -/
def takeNumber? (width : Nat) (bytes : Bytes) : Option (Nat × Bytes) :=
  (takeBytes? width bytes).map fun (front, rest) => (fromLittle front, rest)

/-- The numbers in consecutive fields of the given widths, and the rest. -/
def takeNumbers? : List Nat → Bytes → Option (List Nat × Bytes)
  | [], bytes => some ([], bytes)
  | width :: widths, bytes => do
    let (n, rest) ← takeNumber? width bytes
    let (ns, rest) ← takeNumbers? widths rest
    return (n :: ns, rest)

@[simp] theorem takeBytes?_append (front rest : Bytes) :
    takeBytes? front.length (front ++ rest) = some (front, rest) := by
  simp [takeBytes?, List.splitAt_eq]

theorem takeNumber?_append (width n : Nat) (rest : Bytes) (h : n < capacity width) :
    takeNumber? width (toLittle width n ++ rest) = some (n, rest) := by
  have := takeBytes?_append (toLittle width n) rest
  rw [length_toLittle] at this
  simp [takeNumber?, this, fromLittle_toLittle _ _ h]

end Neaten.Archive
