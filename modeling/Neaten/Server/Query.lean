import Neaten.Server.Message

/-! # Queries and percent-encoding

    In a target a byte may be written as `%` and two hexadecimal digits, and in
    a query `+` is a blank.  A `%` that is not followed by two digits stands
    for itself. -/

namespace Neaten.Server

/-! ## Percent-encoding -/

/-- The value of a hexadecimal digit. -/
def hexDigit? (b : UInt8) : Option Nat :=
  let n := b.toNat
  if 48 ≤ n ∧ n ≤ 57 then some (n - 48)
  else if 97 ≤ n ∧ n ≤ 102 then some (n - 87)
  else if 65 ≤ n ∧ n ≤ 70 then some (n - 55)
  else none

/-- The byte of two hexadecimal digits. -/
def hexByte? (high low : UInt8) : Option UInt8 := do
  return .ofNat (16 * (← hexDigit? high) + (← hexDigit? low))

/-- The byte of `%`. -/
def percent : UInt8 := 37

/-- Undoes percent-encoding. -/
def percentDecode : Bytes → Bytes
  | [] => []
  | [b] => [b]
  | [b, c] => [b, c]
  | b :: c :: d :: rest =>
    match if b = percent then hexByte? c d else none with
    | some byte => byte :: percentDecode rest
    | none => b :: percentDecode (c :: d :: rest)

/-! ## Queries -/

/-- A name or value of a query. -/
def formText (t : Text) : Text :=
  Utf8.decodeLossy (percentDecode (Utf8.encode (t.map fun c => if c = '+' then ' ' else c)))

/-- A field of a query; without `=` its value is empty. -/
def formField (t : Text) : Text × Text :=
  (formText (t.takeWhile (· ≠ '=')), formText ((t.dropWhile (· ≠ '=')).drop 1))

/-- The fields of a query, in order. -/
def queryFields (query : Text) : List (Text × Text) :=
  ((Text.split '&' query).filter (· ≠ [])).map formField

/-- Why a query is refused. -/
inductive QueryFault where
  | missing (name : Text)
  | duplicate (name : Text)
deriving DecidableEq

/-- A fault in words. -/
def QueryFault.message : QueryFault → Text
  | missing name => "Failed to deserialize query string: missing field \x60" ++ name ++ "\x60"
  | duplicate name => "Failed to deserialize query string: duplicate field \x60" ++ name ++ "\x60"

/-- The value of a field that is given once. -/
def queryField (name : Text) (query : Text) : Except QueryFault Text :=
  -- Other fields may be there and may repeat.
  match (queryFields query).filter (·.1 = name) with
  | [] => .error (.missing name)
  | [(_, v)] => .ok v
  | _ => .error (.duplicate name)

/-! ## Numbers in a path -/

/-- Why a part of a path is no number. -/
inductive IndexFault where
  | notUtf8
  | notANumber (text : Text)
deriving DecidableEq

/-- A fault in words. -/
def IndexFault.message : IndexFault → Text
  | notUtf8 => "Invalid URL: Invalid UTF-8 in \x60index\x60"
  | notANumber t => "Invalid URL: Cannot parse \x60" ++ t ++ "\x60 to a \x60u64\x60"

/-- The digits of a number, which may have a plus sign. -/
def unsigned : Text → Text
  | '+' :: digits => digits
  | digits => digits

/-- A number of 64 bits in decimal. -/
def word? (t : Text) : Option Nat :=
  let digits := unsigned t
  if digits = [] ∨ !digits.all Char.isDigit then none
  else
    let n := digits.foldl (fun n c => 10 * n + (c.toNat - 48)) 0
    if n < UInt64.size then some n else none

/-- The number that a part of a path stands for. -/
def index (segment : Text) : Except IndexFault Nat :=
  match Utf8.decode? (percentDecode (Utf8.encode segment)) with
  | none => .error .notUtf8
  | some t =>
    match word? t with
    | some n => .ok n
    | none => .error (.notANumber t)

end Neaten.Server
