import Neaten.Text.Basic

/-! # Network addresses

    Addresses of version 4 and 6 as they are read and written.  Four decimal
    octets are written without leading zeros.  Eight groups are written in
    lower case, the first longest run of at least two zero groups as `::`; the
    last two groups may be read as four octets, and are written so when the
    address stands for one of version 4. -/

namespace Neaten.Net

/-- An address of a host. -/
inductive Address where
  | v4 (a b c d : UInt8)
  | v6 (groups : Vector UInt16 8)
deriving DecidableEq

namespace Address

/-- The address of this host. -/
def localhost : Address := v4 127 0 0 1

/-! ## Reading -/

/-- An octet in decimal. -/
def octet? (t : Text) : Option UInt8 :=
  if t = [] ∨ 3 < t.length ∨ !t.all Char.isDigit ∨ (t.head? = some '0' ∧ t ≠ ['0']) then none
  else
    let n := t.foldl (fun n c => 10 * n + (c.toNat - 48)) 0
    if n < 256 then some (.ofNat n) else none

/-- Four octets with dots between. -/
def octets? (t : Text) : Option (UInt8 × UInt8 × UInt8 × UInt8) := do
  match ← (Text.split '.' t).mapM octet? with
  | [a, b, c, d] => return (a, b, c, d)
  | _ => none

/-- The value of a hexadecimal digit. -/
def digit? (c : Char) : Option Nat :=
  if c.isDigit then some (c.toNat - 48)
  else if 'a' ≤ c ∧ c ≤ 'f' then some (c.toNat - 87)
  else if 'A' ≤ c ∧ c ≤ 'F' then some (c.toNat - 55)
  else none

/-- A group of up to four hexadecimal digits. -/
def group? (t : Text) : Option UInt16 :=
  if t = [] ∨ 4 < t.length then none
  else do
    let ds ← t.mapM digit?
    return .ofNat (ds.foldl (fun n d => 16 * n + d) 0)

/-- Two octets as a group. -/
def pair (a b : UInt8) : UInt16 := .ofNat (256 * a.toNat + b.toNat)

/-- Groups with colons between; the last piece may be four octets. -/
def groups? : List Text → Option (List UInt16)
  | [] => some []
  | [last] =>
    match octets? last with
    | some (a, b, c, d) => some [pair a b, pair c d]
    | none => (group? last).map ([·])
  | piece :: rest => do
    let g ← group? piece
    let gs ← groups? rest
    return g :: gs

/-- The pieces between colons.  An empty text has none. -/
def pieces (t : Text) : List Text := if t = [] then [] else Text.split ':' t

/-- The parts of a text before and after its first two colons in a row. -/
def cutGap : Text → Option (Text × Text)
  | ':' :: ':' :: rest => some ([], rest)
  | c :: rest => (cutGap rest).map fun (before, after) => (c :: before, after)
  | [] => none

/-- Eight groups. -/
def ofGroups? (gs : List UInt16) : Option Address :=
  if h : gs.toArray.size = 8 then some (v6 ⟨gs.toArray, h⟩) else none

/-- An address of version 6. -/
def v6? (t : Text) : Option Address :=
  match cutGap t with
  | none => do ofGroups? (← groups? (pieces t))
  | some (before, after) => do
    let front ← (pieces before).mapM group?
    let back ← groups? (pieces after)
    if 7 < front.length + back.length then none
    else ofGroups? (front ++ List.replicate (8 - front.length - back.length) 0 ++ back)

/-- An address. -/
def parse? (t : Text) : Option Address :=
  match octets? t with
  | some (a, b, c, d) => some (v4 a b c d)
  | none => v6? t

/-! ## Writing -/

/-- Four octets with dots between. -/
def printOctets (a b c d : UInt8) : Text :=
  ['.'].intercalate ([a, b, c, d].map fun o => Text.decimal o.toNat)

/-- Groups with colons between. -/
def printGroups (gs : List UInt16) : Text :=
  [':'].intercalate (gs.map fun g => Nat.toDigits 16 g.toNat)

/-- How many zero groups start at each place. -/
def zeroRuns : List UInt16 → List Nat
  | [] => []
  | g :: gs => ((g :: gs).takeWhile (· == 0)).length :: zeroRuns gs

/-- The place and length of the first longest run of zero groups. -/
def longestRun (gs : List UInt16) : Nat × Nat :=
  (zeroRuns gs).zipIdx.foldl
    (fun best (length, place) => if best.2 < length then (place, length) else best) (0, 0)

/-- An address of version 6. -/
def printV6 (gs : List UInt16) : Text :=
  match gs with
  | [0, 0, 0, 0, 0, 0xFFFF, g, h] =>
    "::ffff:" ++ printOctets (.ofNat (g.toNat / 256)) (.ofNat (g.toNat % 256))
      (.ofNat (h.toNat / 256)) (.ofNat (h.toNat % 256))
  | gs =>
    let (place, length) := longestRun gs
    if 1 < length then
      printGroups (gs.take place) ++ "::" ++ printGroups (gs.drop (place + length))
    else printGroups gs

/-- An address in writing. -/
def print : Address → Text
  | v4 a b c d => printOctets a b c d
  | v6 groups => printV6 groups.toList

/-- An address and a port in writing. -/
def printWithPort (host : Address) (port : Text) : Text :=
  match host with
  | v4 .. => host.print ++ ':' :: port
  | v6 _ => '[' :: host.print ++ ']' :: ':' :: port

/-! ## Special addresses -/

/-- Whether an address stands for the host itself. -/
def isLoopback : Address → Bool
  | v4 a _ _ _ => a == 127
  | v6 groups => groups.toList == [0, 0, 0, 0, 0, 0, 0, 1]

/-- Whether an address stands for every address of the host. -/
def isUnspecified : Address → Bool
  | v4 a b c d => a == 0 && b == 0 && c == 0 && d == 0
  | v6 groups => groups.toList == [0, 0, 0, 0, 0, 0, 0, 0]

end Address

end Neaten.Net
