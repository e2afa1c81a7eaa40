import Neaten.Text.Basic

/-! # Bit streams

    The bits of a byte string, the lowest bit of each byte first.  The bits
    that are left of the byte being read are kept apart from the bytes after
    it, so that a reader can drop them and go on at a byte.

    `size` counts the bits left.  Every operation says what it does to it. -/

namespace Neaten.Archive

/-- What is left to read. -/
structure BitStream where
  /-- The unread bits of the current byte. -/
  pending : List Bool
  /-- The bytes after it. -/
  rest : Bytes

namespace BitStream

/-- The stream of a byte string. -/
def ofBytes (bytes : Bytes) : BitStream := ⟨[], bytes⟩

/-- The number of bits left. -/
def size (s : BitStream) : Nat := s.pending.length + 8 * s.rest.length

/-- The bits of a byte, lowest first. -/
def byteBits (b : UInt8) : List Bool := (List.range 8).map b.toNat.testBit

@[simp] theorem length_byteBits (b : UInt8) : (byteBits b).length = 8 := by simp [byteBits]

/-- The next bit. -/
def next? : BitStream → Option (Bool × BitStream)
  | ⟨bit :: pending, rest⟩ => some (bit, ⟨pending, rest⟩)
  | ⟨[], []⟩ => none
  | ⟨[], b :: rest⟩ => some (b.toNat.testBit 0, ⟨(byteBits b).tail, rest⟩)

theorem size_of_next? {s s' : BitStream} {bit : Bool} (h : s.next? = some (bit, s')) :
    s'.size + 1 = s.size := by
  obtain ⟨pending, rest⟩ := s
  cases pending with
  | cons b p =>
    obtain ⟨rfl, rfl⟩ : b = bit ∧ _ := by simpa [next?] using h
    simp [size]; omega
  | nil =>
    cases rest with
    | nil => simp [next?] at h
    | cons b r =>
      obtain ⟨rfl, rfl⟩ : b.toNat.testBit 0 = bit ∧ _ := by simpa [next?] using h
      simp [size]; omega

/-- The number in the next `count` bits, the lowest first. -/
def take? : (count : Nat) → BitStream → Option (Nat × BitStream)
  | 0, s => some (0, s)
  | count + 1, s =>
    match s.next? with
    | none => none
    | some (bit, s) => (take? count s).map fun (n, s) => (bit.toNat + 2 * n, s)

theorem size_of_take? {count n : Nat} {s s' : BitStream} (h : s.take? count = some (n, s')) :
    s'.size + count = s.size := by
  induction count generalizing n s with
  | zero => obtain ⟨_, rfl⟩ : 0 = n ∧ s = s' := by simpa [take?] using h
            rfl
  | succ count ih =>
    rw [take?] at h
    split at h
    · cases h
    · next bit s₁ hs =>
      obtain ⟨⟨m, s₂⟩, h₁, h₂⟩ := Option.map_eq_some_iff.mp h
      obtain ⟨_, rfl⟩ : _ ∧ s₂ = s' := by simpa using h₂
      have := size_of_next? hs
      have := ih h₁
      omega

/-- The stream from the next whole byte on. -/
def align (s : BitStream) : BitStream := ⟨[], s.rest⟩

theorem size_align (s : BitStream) : s.align.size ≤ s.size := by
  simp [align, size]

/-- The next `count` bytes of an aligned stream. -/
def takeBytes? (count : Nat) (s : BitStream) : Option (Bytes × BitStream) :=
  if count ≤ s.rest.length then some (s.rest.take count, ⟨[], s.rest.drop count⟩) else none

theorem size_of_takeBytes? {count : Nat} {s s' : BitStream} {bytes : Bytes}
    (h : s.takeBytes? count = some (bytes, s')) : s'.size ≤ s.size := by
  rw [takeBytes?] at h
  split at h
  · obtain ⟨_, rfl⟩ : _ ∧ _ = s' := by simpa using h
    simp [size]; omega
  · cases h

end BitStream

end Neaten.Archive
