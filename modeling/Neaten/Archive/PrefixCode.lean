import Neaten.Archive.Bits

/-! # Prefix codes

    A canonical prefix code is given by the length of each symbol's code word:
    shorter words come first, and among words of one length the symbols are in
    order.  So the code is kept as one row of symbols for each length, and a
    word is read bit by bit as a distance from the first word of its length. -/

namespace Neaten.Archive

/-- The symbols whose words have one bit, two bits and so on, each row in the
    order of its words. -/
structure PrefixCode where
  rows : List (List Nat)

namespace PrefixCode

/-- The longest word. -/
def maxLength : Nat := 15

/-- The symbols of each length, given the length of every symbol. -/
def rowsOf (lengths : List Nat) : List (List Nat) :=
  (List.range maxLength).map fun k =>
    (lengths.zipIdx.filter (·.1 = k + 1)).map (·.2)

/-- How much of the words of greatest length the rows take up, each row being
    worth half of the one before. -/
def weight (rows : List (List Nat)) : Nat :=
  rows.foldl (fun sum row => 2 * sum + row.length) 0

/-- The code with the given lengths, zero standing for an unused symbol.  The
    words must fill the code exactly; a code of at most one symbol need not,
    if `mayBeSparse`. -/
def ofLengths? (mayBeSparse : Bool) (lengths : List Nat) : Option PrefixCode :=
  let rows := rowsOf lengths
  if weight rows = 1 <<< maxLength ∨ mayBeSparse ∧ rows.flatten.length ≤ 1 then some ⟨rows⟩
  else none

/-- Why no symbol could be read. -/
inductive Failure where
  /-- The bits are no word of the code. -/
  | corrupt
  /-- The bits end within a word. -/
  | incomplete
deriving DecidableEq

/-- Reads a word whose first bits lie `offset` words beyond the first word of
    their length. -/
def readFrom : List (List Nat) → (offset : Nat) → BitStream → Except Failure (Nat × BitStream)
  | [], _, _ => .error .corrupt
  | row :: rows, offset, s =>
    match s.next? with
    | none => .error .incomplete
    | some (bit, s) =>
      let offset := 2 * offset + bit.toNat
      match row[offset]? with
      | some symbol => .ok (symbol, s)
      -- Words of this length are used up: the rest of the offset counts longer ones.
      | none => readFrom rows (offset - row.length) s

/-- The next symbol of a stream. -/
def read (code : PrefixCode) (s : BitStream) : Except Failure (Nat × BitStream) :=
  readFrom code.rows 0 s

/-- Reading a symbol takes at least a bit. -/
theorem size_of_read {code : PrefixCode} {s s' : BitStream} {n : Nat}
    (h : code.read s = .ok (n, s')) : s'.size < s.size := by
  suffices ∀ rows offset s, readFrom rows offset s = .ok (n, s') → s'.size < s.size from
    this _ _ _ h
  intro rows
  induction rows with
  | nil => intro _ _ h; cases h
  | cons row rows ih =>
    intro offset s h
    rw [readFrom] at h
    split at h
    · cases h
    · next bit s₁ hs =>
      have := BitStream.size_of_next? hs
      dsimp only at h
      split at h
      · obtain ⟨_, rfl⟩ : _ ∧ s₁ = s' := by simpa using h
        omega
      · have := ih _ _ h
        omega

end PrefixCode

end Neaten.Archive
