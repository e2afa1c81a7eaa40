import Neaten.CommandLine.Basic
import Neaten.Net.Address

/-! # Values on a command line

    Any text is a title, and any but the empty one a path.  A port is written
    in decimal, with a sign and leading zeros if need be. -/

namespace Neaten.CommandLine

/-- A path. -/
def path (t : Text) : Except Halt Text := if t = [] then .error .invalidValue else .ok t

/-- A number with an optional sign. -/
def signed? : Text → Option Int
  | '+' :: digits => decimal? digits
  | '-' :: digits => (decimal? digits).map (-·)
  | digits => decimal? digits
where
  /-- A number without sign. -/
  decimal? (digits : Text) : Option Int :=
    if digits = [] ∨ !digits.all Char.isDigit then none
    else some (digits.foldl (fun n c => 10 * n + (c.toNat - 48 : Nat)) 0)

/-- A port. -/
def port (t : Text) : Except Halt UInt16 :=
  match signed? t with
  | some n => if 0 ≤ n ∧ n < 65536 then .ok (.ofNat n.toNat) else .error .valueValidation
  | none => .error .valueValidation

/-- An address. -/
def address (t : Text) : Except Halt Net.Address :=
  match Net.Address.parse? t with
  | some a => .ok a
  | none => .error .valueValidation

end Neaten.CommandLine
