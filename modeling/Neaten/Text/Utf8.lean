import Neaten.Text.Basic

/-! # UTF-8

    Decoding is a machine that reads one byte at a time.  Between characters it
    is at a `boundary`; after a lead byte it `expects` a number of continuation
    bytes, the next of them within bounds that exclude overlong forms,
    surrogates and code points beyond the last plane.

    `scan` lists the characters and, as `none`, each maximal piece that begins
    a character and does not complete one.  Lossy decoding writes U+FFFD for
    those, strict decoding refuses them.

    A text can be cut after a number of bytes, as long as no character is cut
    in two. -/

namespace Neaten.Utf8

/-! ## The machine -/

/-- What the decoder has read of the current character. -/
inductive State where
  | boundary
  /-- The bits so far, how many bytes follow the next one, and the bounds of
      the next one. -/
  | expects (bits : Nat) (more : Nat) (low high : Nat)
deriving DecidableEq

/-- What a byte does at a boundary: it is a character, begins one, or is no
    part of any. -/
inductive Lead where
  | char (c : Char)
  | begins (s : State)
  | invalid

/-- The role of a byte at a boundary. -/
def lead (b : UInt8) : Lead :=
  let n := b.toNat
  if n < 0x80 then .char (Char.ofNat n)
  else if n < 0xC2 then .invalid
  else if n < 0xE0 then .begins (.expects (n - 0xC0) 0 0x80 0xBF)
  else if n = 0xE0 then .begins (.expects 0 1 0xA0 0xBF)
  else if n = 0xED then .begins (.expects 0xD 1 0x80 0x9F)
  else if n < 0xF0 then .begins (.expects (n - 0xE0) 1 0x80 0xBF)
  else if n = 0xF0 then .begins (.expects 0 2 0x90 0xBF)
  else if n < 0xF4 then .begins (.expects (n - 0xF0) 2 0x80 0xBF)
  else if n = 0xF4 then .begins (.expects 4 2 0x80 0x8F)
  else .invalid

/-- The characters of a byte string from a state of the decoder on, with `none`
    for each maximal piece that is not a character. -/
def scanFrom : State → Bytes → List (Option Char)
  | .boundary, [] => []
  | .expects .., [] => [none]
  | .boundary, b :: rest =>
    match lead b with
    | .char c => some c :: scanFrom .boundary rest
    | .begins s => scanFrom s rest
    | .invalid => none :: scanFrom .boundary rest
  | .expects bits more low high, b :: rest =>
    let n := b.toNat
    if low ≤ n ∧ n ≤ high then
      let bits := bits * 64 + (n - 0x80)
      match more with
      | 0 => some (Char.ofNat bits) :: scanFrom .boundary rest
      | more + 1 => scanFrom (.expects bits more 0x80 0xBF) rest
    else
      match lead b with
      | .char c => none :: some c :: scanFrom .boundary rest
      | .begins s => none :: scanFrom s rest
      | .invalid => none :: none :: scanFrom .boundary rest

/-- The characters of a byte string, with `none` for each maximal piece that is
    not a character. -/
def scan (bytes : Bytes) : List (Option Char) := scanFrom .boundary bytes

/-! ## Decoding and encoding -/

/-- Decodes, writing U+FFFD for what is not a character. -/
def decodeLossy (bytes : Bytes) : Text := (scan bytes).map (·.getD '\uFFFD')

/-- Decodes, or nothing if some piece is not a character. -/
def decode? (bytes : Bytes) : Option Text := (scan bytes).mapM id

/-- The bytes of one character. -/
def encodeChar (c : Char) : Bytes :=
  let n := c.toNat
  if n < 0x80 then [.ofNat n]
  else if n < 0x800 then [.ofNat (0xC0 + n / 64), .ofNat (0x80 + n % 64)]
  else if n < 0x10000 then
    [.ofNat (0xE0 + n / 4096), .ofNat (0x80 + n / 64 % 64), .ofNat (0x80 + n % 64)]
  else
    [.ofNat (0xF0 + n / 262144), .ofNat (0x80 + n / 4096 % 64),
      .ofNat (0x80 + n / 64 % 64), .ofNat (0x80 + n % 64)]

/-- The bytes of a text. -/
def encode (t : Text) : Bytes := t.flatMap encodeChar

@[simp] theorem encode_nil : encode [] = [] := rfl

@[simp] theorem encode_cons (c : Char) (t : Text) : encode (c :: t) = encodeChar c ++ encode t :=
  rfl

@[simp] theorem encode_append (s t : Text) : encode (s ++ t) = encode s ++ encode t := by
  simp [encode]

/-! ## Cutting by bytes -/

/-- The number of bytes of a text. -/
def size (t : Text) : Nat := (encode t).length

@[simp] theorem size_nil : size [] = 0 := rfl

@[simp] theorem size_append (s t : Text) : size (s ++ t) = size s + size t := by
  simp [size]

theorem size_cons (c : Char) (t : Text) : size (c :: t) = (encodeChar c).length + size t := by
  simp [size]

theorem length_encodeChar_pos (c : Char) : 0 < (encodeChar c).length := by
  unfold encodeChar
  dsimp only
  split
  · exact Nat.one_pos
  · split
    · exact Nat.two_pos
    · split <;> exact Nat.succ_pos _

/-- The first bytes of a text, so many of them, or all of a shorter text.
    Nothing if they end within a character. -/
def cut? : Text → Nat → Option Text
  | [], _ => some []
  | c :: rest, n =>
    if n = 0 then some []
    else if (encodeChar c).length ≤ n then
      (cut? rest (n - (encodeChar c).length)).map (c :: ·)
    else none

@[simp] theorem cut?_zero (t : Text) : cut? t 0 = some [] := by
  cases t <;> simp [cut?]

/-- What was put behind a text is cut off again by the bytes of the text. -/
@[simp] theorem cut?_append_size (s t : Text) : cut? (s ++ t) (size s) = some s := by
  induction s with
  | nil => exact cut?_zero t
  | cons c rest ih =>
    have hpos := length_encodeChar_pos c
    rw [List.cons_append, cut?, size_cons, if_neg (by omega), if_pos (by omega),
      Nat.add_sub_cancel_left, ih]
    rfl

/-- What is cut off is the beginning of the text, of just so many bytes if the
    text has them. -/
theorem of_cut?_eq_some {t front : Text} {n : Nat} (h : cut? t n = some front)
    (hn : n ≤ size t) : ∃ back, t = front ++ back ∧ size front = n := by
  induction t generalizing n front with
  | nil =>
    obtain rfl : [] = front := Option.some.inj h
    rw [size_nil] at hn ⊢
    exact ⟨[], rfl, by omega⟩
  | cons c rest ih =>
    rw [cut?] at h
    split at h
    · next hzero =>
      obtain rfl : [] = front := Option.some.inj h
      exact ⟨c :: rest, rfl, hzero.symm⟩
    · split at h
      · next hchar =>
        rw [size_cons] at hn
        obtain ⟨more, hmore, rfl⟩ := Option.map_eq_some_iff.mp h
        obtain ⟨back, rfl, hsize⟩ := ih hmore (by omega)
        refine ⟨back, rfl, ?_⟩
        rw [size_cons, hsize]
        omega
      · cases h

end Neaten.Utf8
