import Neaten.Archive.PrefixCode

/-! # Inflating

    Undoes the deflate compression: blocks that are stored, or coded with the
    fixed prefix code or with one that the block itself describes.  A coded
    block is a run of literal bytes and of copies, each copy naming a length
    and a distance back.

    The window behind the first byte counts as filled with zeros, so a copy
    that reaches further back than the data is read there.  What follows the
    last block is left alone. -/

namespace Neaten.Archive.Inflate

open PrefixCode (Failure)

/-- The next `count` bits as a number. -/
def bits (count : Nat) (s : BitStream) : Except Failure (Nat × BitStream) :=
  match s.take? count with
  | some r => .ok r
  | none => .error .incomplete

theorem size_of_bits {count n : Nat} {s s' : BitStream} (h : bits count s = .ok (n, s')) :
    s'.size + count = s.size := by
  rw [bits] at h
  split at h
  · next r hr =>
    obtain rfl : r = (n, s') := by simpa using h
    exact BitStream.size_of_take? hr
  · cases h

/-! ## Lengths and distances -/

/-- The length symbols from 257 on: the shortest copy and how many further bits
    are added to it. -/
def lengths : List (Nat × Nat) :=
  [(3, 0), (4, 0), (5, 0), (6, 0), (7, 0), (8, 0), (9, 0), (10, 0), (11, 1), (13, 1),
   (15, 1), (17, 1), (19, 2), (23, 2), (27, 2), (31, 2), (35, 3), (43, 3), (51, 3),
   (59, 3), (67, 4), (83, 4), (99, 4), (115, 4), (131, 5), (163, 5), (195, 5), (227, 5),
   (258, 0)]

/-- The distance symbols: the nearest distance and the further bits. -/
def distances : List (Nat × Nat) :=
  [(1, 0), (2, 0), (3, 0), (4, 0), (5, 1), (7, 1), (9, 2), (13, 2), (17, 3), (25, 3),
   (33, 4), (49, 4), (65, 5), (97, 5), (129, 6), (193, 6), (257, 7), (385, 7), (513, 8),
   (769, 8), (1025, 9), (1537, 9), (2049, 10), (3073, 10), (4097, 11), (6145, 11),
   (8193, 12), (12289, 12), (16385, 13), (24577, 13)]

/-- The number that a symbol of a table and its further bits stand for. -/
def measure (table : List (Nat × Nat)) (symbol : Nat) (s : BitStream) :
    Except Failure (Nat × BitStream) :=
  match table[symbol]? with
  | none => .error .corrupt
  | some (base, extra) => (bits extra s).map fun (n, s) => (base + n, s)

theorem size_of_measure {table : List (Nat × Nat)} {symbol n : Nat} {s s' : BitStream}
    (h : measure table symbol s = .ok (n, s')) : s'.size ≤ s.size := by
  rw [measure] at h
  split at h
  · cases h
  · next base extra _ =>
    cases hb : bits extra s with
    | error e => simp [hb, Except.map] at h
    | ok r =>
      obtain ⟨m, s₁⟩ := r
      obtain ⟨_, rfl⟩ : _ ∧ s₁ = s' := by simpa [hb, Except.map] using h
      have := size_of_bits hb
      omega

/-- What a symbol of the literal code announces. -/
inductive Element where
  | literal (b : UInt8)
  | stop
  /-- A copy, its length given by a row of the table of lengths. -/
  | copy (row : Nat)

/-- The element of a symbol. -/
def Element.ofSymbol (symbol : Nat) : Element :=
  if symbol < 256 then literal (.ofNat symbol)
  else if symbol = 256 then stop
  else copy (symbol - 257)

/-- The length in a row of the table. -/
def copyLength (row : Nat) (s : BitStream) : Except Failure (Nat × BitStream) :=
  measure lengths row s

/-- The distance that a symbol of the distance code stands for. -/
def copyDistance (symbol : Nat) (s : BitStream) : Except Failure (Nat × BitStream) :=
  measure distances symbol s

theorem size_of_copyLength {symbol n : Nat} {s s' : BitStream}
    (h : copyLength symbol s = .ok (n, s')) : s'.size ≤ s.size := size_of_measure h

theorem size_of_copyDistance {symbol n : Nat} {s s' : BitStream}
    (h : copyDistance symbol s = .ok (n, s')) : s'.size ≤ s.size := size_of_measure h

/-- Copies `count` bytes from `distance` bytes back.  The output is kept latest
    byte first. -/
def copy (distance : Nat) : (count : Nat) → Bytes → Bytes
  | 0, out => out
  | count + 1, out => copy distance count ((out[distance - 1]?).getD 0 :: out)

/-! ## Blocks -/

/-- The codes of a block: literals and lengths in one, distances in the other. -/
structure Codes where
  literals : PrefixCode
  distances : PrefixCode

/-- Reads a coded block up to its end symbol. -/
def codedBlock (codes : Codes) (s : BitStream) (out : Bytes) :
    Except Failure (Bytes × BitStream) :=
  match _h₁ : codes.literals.read s with
  | .error e => .error e
  | .ok (symbol, s₁) =>
    match Element.ofSymbol symbol with
    | .literal b => codedBlock codes s₁ (b :: out)
    | .stop => .ok (out, s₁)
    | .copy row =>
      match _h₂ : copyLength row s₁ with
      | .error e => .error e
      | .ok (length, s₂) =>
        match _h₃ : codes.distances.read s₂ with
        | .error e => .error e
        | .ok (symbol, s₃) =>
          match _h₄ : copyDistance symbol s₃ with
          | .error e => .error e
          | .ok (distance, s₄) => codedBlock codes s₄ (copy distance length out)
termination_by s.size
decreasing_by
  · exact PrefixCode.size_of_read _h₁
  · have := PrefixCode.size_of_read _h₁
    have := size_of_copyLength _h₂
    have := PrefixCode.size_of_read _h₃
    have := size_of_copyDistance _h₄
    omega

/-- Reading a coded block takes at least a bit. -/
theorem size_of_codedBlock {codes : Codes} {s s' : BitStream} {out out' : Bytes}
    (h : codedBlock codes s out = .ok (out', s')) : s'.size < s.size := by
  fun_induction codedBlock codes s out with
  | case1 => cases h
  | case2 s out symbol s₁ hr b hb ih =>
    have := PrefixCode.size_of_read hr
    have := ih h
    omega
  | case3 s out symbol s₁ hr hb =>
    obtain ⟨_, rfl⟩ : out = out' ∧ s₁ = s' := by simpa using h
    exact PrefixCode.size_of_read hr
  | case4 => cases h
  | case5 => cases h
  | case6 => cases h
  | case7 s out symbol s₁ hr row hb length s₂ hl dsym s₃ hd distance s₄ hm ih =>
    have := PrefixCode.size_of_read hr
    have := size_of_copyLength hl
    have := PrefixCode.size_of_read hd
    have := size_of_copyDistance hm
    have := ih h
    omega

/-- The codes of a block that describes none. -/
def fixedCodes : Option Codes := do
  let literals ← PrefixCode.ofLengths? true <|
    List.replicate 144 8 ++ List.replicate 112 9 ++ List.replicate 24 7 ++ List.replicate 8 8
  let distances ← PrefixCode.ofLengths? true (List.replicate 32 5)
  return ⟨literals, distances⟩

/-- The order in which a block gives the lengths of the code for lengths. -/
def lengthOrder : List Nat := [16, 17, 18, 0, 8, 7, 9, 6, 10, 5, 11, 4, 12, 3, 13, 2, 14, 1, 15]

/-- Reads `count` numbers of three bits. -/
def threeBits : (count : Nat) → BitStream → Except Failure (List Nat × BitStream)
  | 0, s => .ok ([], s)
  | count + 1, s => do
    let (n, s) ← bits 3 s
    let (ns, s) ← threeBits count s
    return (n :: ns, s)

/-- Reads code lengths, latest first, until there are `total`: a length, or a
    repetition of the length before or of zero. -/
def codeLengths (code : PrefixCode) (total : Nat) (s : BitStream) (soFar : List Nat) :
    Except Failure (List Nat × BitStream) :=
  -- A repetition must not reach beyond the last length.
  if soFar.length > total then .error .corrupt
  else if soFar.length = total then .ok (soFar.reverse, s)
  else
    match _h₁ : code.read s with
    | .error e => .error e
    | .ok (symbol, s₁) =>
      if symbol < 16 then codeLengths code total s₁ (symbol :: soFar)
      else
        match repetition symbol soFar with
        | none => .error .corrupt
        | some (length, least, extra) =>
          match _h₂ : bits extra s₁ with
          | .error e => .error e
          | .ok (more, s₂) =>
            codeLengths code total s₂ (List.replicate (least + more) length ++ soFar)
termination_by s.size
decreasing_by
  · exact PrefixCode.size_of_read _h₁
  · have := PrefixCode.size_of_read _h₁
    have := size_of_bits _h₂
    omega
where
  /-- The length that a symbol repeats, how often at least, and in how many bits
      it says how often more. -/
  repetition (symbol : Nat) (soFar : List Nat) : Option (Nat × Nat × Nat) :=
    match symbol with
    | 16 => soFar.head?.map (·, 3, 2)
    | 17 => some (0, 3, 3)
    | _ => some (0, 11, 7)

/-- Turns a missing code into a failure. -/
def orCorrupt {α : Type} : Option α → Except Failure α
  | some a => .ok a
  | none => .error .corrupt

/-- Reads the codes that a block describes. -/
def describedCodes (s : BitStream) : Except Failure (Codes × BitStream) := do
  let (literals, s) ← bits 5 s
  let (distances, s) ← bits 5 s
  let (count, s) ← bits 4 s
  -- The last two symbols of the fixed codes have no meaning, so no code lists them.
  if literals + 257 > 286 ∨ distances + 1 > 30 then .error .corrupt
  else
    let (given, s) ← threeBits (count + 4) s
    let inOrder := (List.range 19).map fun symbol =>
      ((lengthOrder.zip given).lookup symbol).getD 0
    let code ← orCorrupt (PrefixCode.ofLengths? false inOrder)
    let (all, s) ← codeLengths code (literals + 257 + (distances + 1)) s []
    let literalCode ← orCorrupt (PrefixCode.ofLengths? true (all.take (literals + 257)))
    let distanceCode ← orCorrupt (PrefixCode.ofLengths? true (all.drop (literals + 257)))
    return (⟨literalCode, distanceCode⟩, s)

/-- Reads a stored block: its length, the length inverted, and the bytes. -/
def storedBlock (s : BitStream) (out : Bytes) : Except Failure (Bytes × BitStream) := do
  let (length, s) ← bits 16 s.align
  let (inverted, s) ← bits 16 s
  if length + inverted ≠ 0xFFFF then .error .corrupt
  else
    match s.takeBytes? length with
    | some (bytes, s) => .ok (bytes.reverse ++ out, s)
    | none => .error .incomplete

/-- Reads a block of the given kind. -/
def block (kind : Nat) (s : BitStream) (out : Bytes) : Except Failure (Bytes × BitStream) :=
  match kind with
  | 0 => storedBlock s out
  | 1 => do
    let codes ← orCorrupt fixedCodes
    codedBlock codes s out
  | 2 => do
    let (codes, s) ← describedCodes s
    codedBlock codes s out
  | _ => .error .corrupt

/-! ### Blocks end -/

/-- A result of a step is the result of its last part, after one of its first. -/
theorem bind_eq_ok {α β : Type} {x : Except Failure α} {f : α → Except Failure β} {b : β}
    (h : (x >>= f) = .ok b) : ∃ a, x = .ok a ∧ f a = .ok b := by
  cases x with
  | error e => cases h
  | ok a => exact ⟨a, rfl, h⟩

theorem size_of_threeBits {count : Nat} {ns : List Nat} {s s' : BitStream}
    (h : threeBits count s = .ok (ns, s')) : s'.size ≤ s.size := by
  induction count generalizing ns s with
  | zero =>
    obtain ⟨_, rfl⟩ : [] = ns ∧ s = s' := by simpa [threeBits] using h
    exact Nat.le_refl _
  | succ count ih =>
    obtain ⟨⟨n, s₁⟩, h₁, h⟩ := bind_eq_ok h
    obtain ⟨⟨ms, s₂⟩, h₂, h⟩ := bind_eq_ok h
    obtain ⟨_, rfl⟩ : _ ∧ s₂ = s' := by simpa [pure, Except.pure] using h
    have := size_of_bits h₁
    have := ih h₂
    omega

theorem size_of_codeLengths {code : PrefixCode} {total : Nat} {s s' : BitStream}
    {soFar all : List Nat} (h : codeLengths code total s soFar = .ok (all, s')) :
    s'.size ≤ s.size := by
  fun_induction codeLengths code total s soFar with
  | case1 => cases h
  | case2 s soFar _ _ =>
    obtain ⟨_, rfl⟩ : _ ∧ s = s' := by simpa using h
    exact Nat.le_refl _
  | case3 => cases h
  | case4 s soFar _ _ symbol s₁ hr _ ih =>
    have := PrefixCode.size_of_read hr
    have := ih h
    omega
  | case5 => cases h
  | case6 => cases h
  | case7 s soFar _ _ symbol s₁ hr _ length least extra _ more s₂ hb ih =>
    have := PrefixCode.size_of_read hr
    have := size_of_bits hb
    have := ih h
    omega

theorem size_of_describedCodes {codes : Codes} {s s' : BitStream}
    (h : describedCodes s = .ok (codes, s')) : s'.size ≤ s.size := by
  obtain ⟨⟨_, s₁⟩, h₁, h⟩ := bind_eq_ok h
  obtain ⟨⟨_, s₂⟩, h₂, h⟩ := bind_eq_ok h
  obtain ⟨⟨_, s₃⟩, h₃, h⟩ := bind_eq_ok h
  dsimp only at h
  split at h
  · cases h
  · obtain ⟨⟨_, s₄⟩, h₄, h⟩ := bind_eq_ok h
    obtain ⟨_, _, h⟩ := bind_eq_ok h
    obtain ⟨⟨_, s₅⟩, h₅, h⟩ := bind_eq_ok h
    obtain ⟨_, _, h⟩ := bind_eq_ok h
    obtain ⟨_, _, h⟩ := bind_eq_ok h
    obtain ⟨_, rfl⟩ : _ ∧ s₅ = s' := by simpa [pure, Except.pure] using h
    have := size_of_bits h₁
    have := size_of_bits h₂
    have := size_of_bits h₃
    have := size_of_threeBits h₄
    have : s₅.size ≤ s₄.size := size_of_codeLengths h₅
    omega

theorem size_of_storedBlock {s s' : BitStream} {out out' : Bytes}
    (h : storedBlock s out = .ok (out', s')) : s'.size ≤ s.size := by
  obtain ⟨⟨_, s₁⟩, h₁, h⟩ := bind_eq_ok h
  obtain ⟨⟨_, s₂⟩, h₂, h⟩ := bind_eq_ok h
  dsimp only at h
  split at h
  · cases h
  · split at h
    · next bytes s₃ h₃ =>
      obtain ⟨_, rfl⟩ : _ ∧ s₃ = s' := by simpa using h
      have := BitStream.size_align s
      have := size_of_bits h₁
      have := size_of_bits h₂
      have := BitStream.size_of_takeBytes? h₃
      omega
    · cases h

theorem size_of_block {kind : Nat} {s s' : BitStream} {out out' : Bytes}
    (h : block kind s out = .ok (out', s')) : s'.size ≤ s.size := by
  rw [block.eq_def] at h
  split at h
  · exact size_of_storedBlock h
  · obtain ⟨_, _, h⟩ := bind_eq_ok h
    exact Nat.le_of_lt (size_of_codedBlock h)
  · obtain ⟨⟨_, s₁⟩, h₁, h⟩ := bind_eq_ok h
    have := size_of_describedCodes h₁
    have := size_of_codedBlock h
    omega
  · cases h

/-! ## All of it -/

/-- Reads blocks up to the one marked as the last. -/
def blocks (s : BitStream) (out : Bytes) : Except Failure Bytes :=
  match _h₁ : bits 1 s with
  | .error e => .error e
  | .ok (last, s₁) =>
    match _h₂ : bits 2 s₁ with
    | .error e => .error e
    | .ok (kind, s₂) =>
      match _h₃ : block kind s₂ out with
      | .error e => .error e
      | .ok (out, s₃) => if last = 1 then .ok out.reverse else blocks s₃ out
termination_by s.size
decreasing_by
  have := size_of_bits _h₁
  have := size_of_bits _h₂
  have := size_of_block _h₃
  omega

/-- The bytes that a compressed byte string stands for. -/
def inflate (compressed : Bytes) : Except Failure Bytes :=
  blocks (BitStream.ofBytes compressed) []

end Neaten.Archive.Inflate
