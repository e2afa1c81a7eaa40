import Neaten.Text.Utf8

/-! # Decoding takes back encoding

    The bytes of a text are read as exactly its characters.  A character has a
    lead byte, which says how many bytes follow and bounds the next of them,
    and continuation bytes of six bits each; which lead byte it has follows
    from the size of its number. -/

namespace Neaten.Utf8

/-! ## One step of the machine -/

theorem scanFrom_char {b : UInt8} {c : Char} (h : lead b = .char c) (rest : Bytes) :
    scanFrom .boundary (b :: rest) = some c :: scanFrom .boundary rest := by
  rw [scanFrom, h]

theorem scanFrom_begins {b : UInt8} {s : State} (h : lead b = .begins s) (rest : Bytes) :
    scanFrom .boundary (b :: rest) = scanFrom s rest := by
  rw [scanFrom, h]

/-- A continuation byte within its bounds adds six bits, and the last one
    completes the character. -/
theorem scanFrom_last {bits low high n : Nat} (hn : n < 64) (hlow : low ≤ 0x80 + n)
    (hhigh : 0x80 + n ≤ high) (rest : Bytes) :
    scanFrom (.expects bits 0 low high) (.ofNat (0x80 + n) :: rest) =
      some (Char.ofNat (bits * 64 + n)) :: scanFrom .boundary rest := by
  have hb : (UInt8.ofNat (0x80 + n)).toNat = 0x80 + n := by
    rw [UInt8.toNat_ofNat']
    omega
  rw [scanFrom, hb, if_pos ⟨hlow, hhigh⟩, Nat.add_sub_cancel_left]

theorem scanFrom_more {bits more low high n : Nat} (hn : n < 64) (hlow : low ≤ 0x80 + n)
    (hhigh : 0x80 + n ≤ high) (rest : Bytes) :
    scanFrom (.expects bits (more + 1) low high) (.ofNat (0x80 + n) :: rest) =
      scanFrom (.expects (bits * 64 + n) more 0x80 0xBF) rest := by
  have hb : (UInt8.ofNat (0x80 + n)).toNat = 0x80 + n := by
    rw [UInt8.toNat_ofNat']
    omega
  rw [scanFrom, hb, if_pos ⟨hlow, hhigh⟩, Nat.add_sub_cancel_left]

/-! ## Lead bytes -/

/-- The lead byte of two: five bits, not all but the lowest zero. -/
theorem lead_two {n : Nat} (h₁ : 2 ≤ n) (h₂ : n < 32) :
    lead (.ofNat (0xC0 + n)) = .begins (.expects n 0 0x80 0xBF) := by
  have hb : (UInt8.ofNat (0xC0 + n)).toNat = 0xC0 + n := by
    rw [UInt8.toNat_ofNat']
    omega
  rw [lead, hb, if_neg (by omega), if_neg (by omega), if_pos (by omega), Nat.add_sub_cancel_left]

/-- The bounds of the byte after the lead byte of three: no number that two
    bytes can hold, and no surrogate. -/
theorem lead_three {n : Nat} (h : n < 16) :
    ∃ low high, lead (.ofNat (0xE0 + n)) = .begins (.expects n 1 low high) ∧
      (low = if n = 0 then 0xA0 else 0x80) ∧ (high = if n = 13 then 0x9F else 0xBF) := by
  have hb : (UInt8.ofNat (0xE0 + n)).toNat = 0xE0 + n := by
    rw [UInt8.toNat_ofNat']
    omega
  by_cases h0 : n = 0
  · subst h0
    exact ⟨_, _, rfl, rfl, rfl⟩
  by_cases h13 : n = 13
  · subst h13
    exact ⟨_, _, rfl, rfl, rfl⟩
  refine ⟨0x80, 0xBF, ?_, (if_neg h0).symm, (if_neg h13).symm⟩
  rw [lead, hb, if_neg (by omega), if_neg (by omega), if_neg (by omega), if_neg (by omega),
    if_neg (by omega), if_pos (by omega), Nat.add_sub_cancel_left]

/-- The bounds of the byte after the lead byte of four: no number that three
    bytes can hold, and none beyond the last plane. -/
theorem lead_four {n : Nat} (h : n < 5) :
    ∃ low high, lead (.ofNat (0xF0 + n)) = .begins (.expects n 2 low high) ∧
      (low = if n = 0 then 0x90 else 0x80) ∧ (high = if n = 4 then 0x8F else 0xBF) := by
  have hb : (UInt8.ofNat (0xF0 + n)).toNat = 0xF0 + n := by
    rw [UInt8.toNat_ofNat']
    omega
  by_cases h0 : n = 0
  · subst h0
    exact ⟨_, _, rfl, rfl, rfl⟩
  by_cases h4 : n = 4
  · subst h4
    exact ⟨_, _, rfl, rfl, rfl⟩
  refine ⟨0x80, 0xBF, ?_, (if_neg h0).symm, (if_neg h4).symm⟩
  rw [lead, hb, if_neg (by omega), if_neg (by omega), if_neg (by omega), if_neg (by omega),
    if_neg (by omega), if_neg (by omega), if_neg (by omega), if_pos (by omega),
    Nat.add_sub_cancel_left]

/-! ## Characters -/

/-- The number of a character is no surrogate and within the last plane. -/
theorem toNat_lt_or (c : Char) : c.toNat < 0xD800 ∨ 0xDFFF < c.toNat ∧ c.toNat < 0x110000 :=
  c.valid

/-- The bytes of a character are read as that character, whatever follows. -/
theorem scanFrom_encodeChar (c : Char) (rest : Bytes) :
    scanFrom .boundary (encodeChar c ++ rest) = some c :: scanFrom .boundary rest := by
  have hvalid := toNat_lt_or c
  have hc : Char.ofNat c.toNat = c := Char.ofNat_toNat c
  unfold encodeChar
  generalize c.toNat = n at hvalid hc
  dsimp only
  split
  · next h =>
    have hb : (UInt8.ofNat n).toNat = n := by
      rw [UInt8.toNat_ofNat']
      omega
    exact scanFrom_char (by rw [lead, hb, if_pos h, hc]) rest
  split
  · simp only [List.cons_append, List.nil_append]
    rw [scanFrom_begins (lead_two (by omega) (by omega)),
      scanFrom_last (by omega) (by omega) (by omega), show n / 64 * 64 + n % 64 = n by omega, hc]
  split
  · obtain ⟨low, high, hlead, hlow, hhigh⟩ := lead_three (n := n / 4096) (by omega)
    simp only [List.cons_append, List.nil_append]
    rw [scanFrom_begins hlead, scanFrom_more (by omega) (by split at hlow <;> omega)
        (by split at hhigh <;> omega), scanFrom_last (by omega) (by omega) (by omega),
      show (n / 4096 * 64 + n / 64 % 64) * 64 + n % 64 = n by omega, hc]
  · obtain ⟨low, high, hlead, hlow, hhigh⟩ := lead_four (n := n / 262144) (by omega)
    simp only [List.cons_append, List.nil_append]
    rw [scanFrom_begins hlead, scanFrom_more (by omega) (by split at hlow <;> omega)
        (by split at hhigh <;> omega), scanFrom_more (by omega) (by omega) (by omega),
      scanFrom_last (by omega) (by omega) (by omega),
      show ((n / 262144 * 64 + n / 4096 % 64) * 64 + n / 64 % 64) * 64 + n % 64 = n by omega, hc]

/-! ## Texts -/

/-- The bytes of a text are read as its characters. -/
theorem scan_encode (t : Text) : scan (encode t) = t.map some := by
  unfold scan
  induction t with
  | nil => rfl
  | cons c rest ih => rw [encode_cons, scanFrom_encodeChar, ih, List.map_cons]

@[simp] theorem decodeLossy_encode (t : Text) : decodeLossy (encode t) = t := by
  unfold decodeLossy
  rw [scan_encode, List.map_map]
  exact List.map_id t

end Neaten.Utf8
