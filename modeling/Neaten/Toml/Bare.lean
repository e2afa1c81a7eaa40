import Neaten.Toml.Quoted

/-! # Bare values in TOML

    A value that is not quoted and not in brackets is a word: a truth value, an
    integer in one of four bases, a number with a fraction or exponent, or a
    date or time.  Digits may be grouped by single underscores. -/

namespace Neaten.Toml

/-- Whether a character may be part of a bare value. -/
def isBareChar (c : Char) : Bool :=
  c.isAlphanum || c == '_' || c == '+' || c == '-' || c == '.' || c == ':'

/-! ## Digits -/

/-- The digits of a group, with the underscores between them left out, if there
    are any and they all are digits. -/
def digits? (isDigit : Char → Bool) (t : Text) : Option Text :=
  let groups := Text.split '_' t
  if groups.all (· ≠ []) ∧ groups.all (·.all isDigit) then some groups.flatten else none

/-- The number that some digits are in a base. -/
def numberOf (base : Nat) (ds : Text) : Nat :=
  ds.foldl (fun n c => base * n + (hexDigit? c).getD 0) 0

/-- The sign at the front, if there is one, and the rest. -/
def cutSign : Text → Option Char × Text
  | '+' :: rest => (some '+', rest)
  | '-' :: rest => (some '-', rest)
  | t => (none, t)

/-- Whether digits start with a zero that could be left out. -/
def hasLeadingZero : Text → Bool
  | '0' :: _ :: _ => true
  | _ => false

/-! ## Integers -/

/-- The range of integers. -/
def inRange (n : Int) : Bool := -9223372036854775808 ≤ n && n ≤ 9223372036854775807

/-- An integer in base ten. -/
def decimalInteger? (t : Text) : Option Int := do
  let (sign, t) := cutSign t
  let ds ← digits? Char.isDigit t
  if hasLeadingZero ds then none
  let n := numberOf 10 ds
  return if sign = some '-' then -n else n

/-- An integer in another base, without a sign. -/
def basedInteger? : Text → Option Int
  | '0' :: 'x' :: t => (digits? (fun c => (hexDigit? c).isSome) t).map fun ds => numberOf 16 ds
  | '0' :: 'o' :: t => (digits? (fun c => '0' ≤ c && c ≤ '7') t).map fun ds => numberOf 8 ds
  | '0' :: 'b' :: t => (digits? (fun c => c == '0' || c == '1') t).map fun ds => numberOf 2 ds
  | _ => none

/-- An integer. -/
def integer? (t : Text) : Option Int :=
  ((basedInteger? t).or (decimalInteger? t)).filter inRange

/-! ## Numbers with a fraction -/

/-- The parts of a text before and after the first character of a kind. -/
def cutAt (isMark : Char → Bool) (t : Text) : Text × Option Text :=
  match t.dropWhile (!isMark ·) with
  | [] => (t, none)
  | _ :: after => (t.takeWhile (!isMark ·), some after)

/-- Whether a text is a number with a fraction, an exponent or both, or one of
    the special numbers. -/
def isFloat (t : Text) : Bool :=
  let (_, t) := cutSign t
  if t = "inf" ∨ t = "nan" then true
  else
    let (mantissa, exponent) := cutAt (fun c => c == 'e' || c == 'E') t
    let (whole, fraction) := cutAt (· == '.') mantissa
    (exponent.isSome || fraction.isSome) &&
      (digits? Char.isDigit whole).any (!hasLeadingZero ·) &&
      fraction.all (fun f => (digits? Char.isDigit f).isSome) &&
      exponent.all (fun e => (digits? Char.isDigit (cutSign e).2).isSome)

/-! ## Dates and times -/

/-- The number that exactly `count` digits at the front are, and the rest. -/
def takeDigits? (count : Nat) (t : Text) : Option (Nat × Text) :=
  if (t.take count).length = count ∧ (t.take count).all Char.isDigit then
    some (numberOf 10 (t.take count), t.drop count)
  else none

/-- The rest after a given character. -/
def dropChar? (c : Char) : Text → Option Text
  | d :: rest => if c = d then some rest else none
  | [] => none

/-- The number of days of a month. -/
def daysIn (year month : Nat) : Nat :=
  if month = 2 then
    (if year % 4 = 0 ∧ (year % 100 ≠ 0 ∨ year % 400 = 0) then 29 else 28)
  else if month = 4 ∨ month = 6 ∨ month = 9 ∨ month = 11 then 30
  else 31

/-- What follows a date. -/
def dropDate? (t : Text) : Option Text := do
  let (year, t) ← takeDigits? 4 t
  let t ← dropChar? '-' t
  let (month, t) ← takeDigits? 2 t
  let t ← dropChar? '-' t
  let (day, t) ← takeDigits? 2 t
  if 1 ≤ month ∧ month ≤ 12 ∧ 1 ≤ day ∧ day ≤ daysIn year month then return t else none

/-- What follows a time of day. -/
def dropTime? (t : Text) : Option Text := do
  let (hour, t) ← takeDigits? 2 t
  let t ← dropChar? ':' t
  let (minute, t) ← takeDigits? 2 t
  let t ← dropChar? ':' t
  let (second, t) ← takeDigits? 2 t
  if 23 < hour ∨ 59 < minute ∨ 60 < second then none
  match t with
  | '.' :: fraction =>
    if (fraction.takeWhile Char.isDigit) = [] then none else return fraction.dropWhile Char.isDigit
  | t => return t

/-- Whether a text is an offset from universal time. -/
def isOffset : Text → Bool
  | ['Z'] => true
  | ['z'] => true
  | t =>
    match cutSign t with
    | (none, _) => false
    | (some _, t) => (do
        let (hour, t) ← takeDigits? 2 t
        let t ← dropChar? ':' t
        let (minute, t) ← takeDigits? 2 t
        return hour ≤ 23 && minute ≤ 59 && t.isEmpty : Option Bool).getD false

/-- Whether a text is a date, a time, or both with or without an offset. -/
def isMoment (t : Text) : Bool :=
  match dropDate? t with
  | none => dropTime? t == some []
  | some [] => true
  | some (mark :: time) =>
    (mark == 'T' || mark == 't' || mark == ' ') &&
      (dropTime? time).any fun offset => offset.isEmpty || isOffset offset

/-! ## Words -/

/-- The value that a word is. -/
def bare? (word : Text) : Option Value :=
  if word = "true" then some (.boolean true)
  else if word = "false" then some (.boolean false)
  else match integer? word with
    | some n => some (.integer n)
    | none =>
      if isFloat word then some (.float word)
      else if isMoment word then some (.moment word)
      else none

/-- The word at the front of some characters, and the rest.  A date takes in a
    time that follows after one blank. -/
def takeWord (t : Text) : Text × Text :=
  let word := t.takeWhile isBareChar
  let rest := t.dropWhile isBareChar
  match rest with
  | ' ' :: c :: more =>
    -- A blank ends every word except a date before a digit.
    if dropDate? word = some [] ∧ c.isDigit then
      (word ++ ' ' :: (c :: more).takeWhile isBareChar, (c :: more).dropWhile isBareChar)
    else (word, rest)
  | _ => (word, rest)

end Neaten.Toml
