import Neaten.Toml.Value

/-! # Quoted text in TOML

    A quoted text stands between single or double quotes, one of them or three
    of them at each end.  Double quotes admit escapes, three quotes admit line
    breaks.  The text is read one character at a time. -/

namespace Neaten.Toml

/-- The value of a hexadecimal digit. -/
def hexDigit? (c : Char) : Option Nat :=
  if c.isDigit then some (c.toNat - 48)
  else if 'a' ≤ c ∧ c ≤ 'f' then some (c.toNat - 87)
  else if 'A' ≤ c ∧ c ≤ 'F' then some (c.toNat - 55)
  else none

/-- The character of a code point, if it is one. -/
def charOfCode? (n : Nat) : Option Char :=
  if n.isValidChar then some (Char.ofNat n) else none

/-- Whether a character may stand in a line as it is. -/
def isLineChar (c : Char) : Bool := c == '\t' || (0x20 ≤ c.toNat && c.toNat != 0x7F)

/-- The character of a one-letter escape. -/
def shortEscape? : Char → Option Char
  | 'b' => some '\x08'
  | 't' => some '\t'
  | 'n' => some '\n'
  | 'f' => some '\x0C'
  | 'r' => some '\r'
  | '"' => some '"'
  | '\\' => some '\\'
  | _ => none

namespace Quoted

/-- What encloses a text. -/
structure Style where
  /-- The quote that starts and ends the text. -/
  quote : Char
  /-- Three quotes at each end. -/
  isLong : Bool
deriving DecidableEq

/-- Whether a backslash starts an escape. -/
def Style.hasEscapes (s : Style) : Bool := s.quote == '"'

/-- What has just been read. -/
inductive Mode where
  | plain
  /-- A backslash. -/
  | escape
  /-- The start of a code point: the number of digits to come, and the value of
      those read. -/
  | code (left value : Nat)
  /-- Quotes that may turn out to be the end. -/
  | quotes (count : Nat)
  /-- A carriage return, after which a line must end. -/
  | carriage
  /-- A backslash that joins lines, and blanks after it: whether the end of the
      line has been met, and whether a carriage return has. -/
  | joining (ended carriage : Bool)
deriving DecidableEq

/-- What a character leads to. -/
inductive Step where
  /-- On with the next character; the text so far stands backwards. -/
  | next (mode : Mode) (read : Text)
  /-- The text is over, and the character is the first one after it. -/
  | before (read : Text)
  /-- The text is over with this character. -/
  | after (read : Text)
  | fail

/-- A character that nothing special came before. -/
def plainStep (s : Style) (read : Text) (c : Char) : Step :=
  if c = s.quote then (if s.isLong then .next (.quotes 1) read else .after read)
  else if c = '\\' ∧ s.hasEscapes then .next .escape read
  else if isLineChar c then .next .plain (c :: read)
  else if s.isLong ∧ c = '\n' then .next .plain (c :: read)
  else if s.isLong ∧ c = '\r' then .next .carriage read
  else .fail

/-- What a character leads to. -/
def step (s : Style) : Mode → (read : Text) → Char → Step
  | .plain, read, c => plainStep s read c
  | .escape, read, c =>
    match shortEscape? c with
    | some d => .next .plain (d :: read)
    | none =>
      if c = 'u' then .next (.code 4 0) read
      else if c = 'U' then .next (.code 8 0) read
      else if !s.isLong then .fail
      else if c = ' ' ∨ c = '\t' then .next (.joining false false) read
      else if c = '\n' then .next (.joining true false) read
      else if c = '\r' then .next (.joining false true) read
      else .fail
  | .code left value, read, c =>
    match hexDigit? c with
    | none => .fail
    | some d =>
      let value := 16 * value + d
      if left ≤ 1 then
        match charOfCode? value with
        | some c => .next .plain (c :: read)
        | none => .fail
      else .next (.code (left - 1) value) read
  | .quotes count, read, c =>
    -- Up to two quotes before the last three belong to the text.
    if c = s.quote then (if count < 5 then .next (.quotes (count + 1)) read else .fail)
    else if count < 3 then plainStep s (List.replicate count s.quote ++ read) c
    else .before (List.replicate (count - 3) s.quote ++ read)
  | .carriage, read, c => if c = '\n' then .next .plain (c :: read) else .fail
  | .joining ended carriage, read, c =>
    if carriage then (if c = '\n' then .next (.joining true false) read else .fail)
    else if c = ' ' ∨ c = '\t' then .next (.joining ended false) read
    else if c = '\n' then .next (.joining true false) read
    else if c = '\r' then .next (.joining ended true) read
    else if ended then plainStep s read c
    else .fail

/-- The quoted text at the front of some characters, and what comes after its
    last quote. -/
def scan (s : Style) : Mode → (read : Text) → Text → Option (Text × Text)
  | .quotes count, read, [] =>
    if 3 ≤ count then some ((List.replicate (count - 3) s.quote ++ read).reverse, []) else none
  | _, _, [] => none
  | mode, read, c :: rest =>
    match step s mode read c with
    | .next mode read => scan s mode read rest
    | .before read => some (read.reverse, c :: rest)
    | .after read => some (read.reverse, rest)
    | .fail => none

/-- Drops a line break. -/
def dropLineBreak : Text → Text
  | '\n' :: rest => rest
  | '\r' :: '\n' :: rest => rest
  | t => t

/-- The quoted text at the front of some characters, on one line. -/
def short? : Text → Option (Text × Text)
  | '"' :: rest => scan ⟨'"', false⟩ .plain [] rest
  | '\'' :: rest => scan ⟨'\'', false⟩ .plain [] rest
  | _ => none

/-- The quoted text at the front of some characters.  A line break right after
    three quotes does not count. -/
def any? : Text → Option (Text × Text)
  | '"' :: '"' :: '"' :: rest => scan ⟨'"', true⟩ .plain [] (dropLineBreak rest)
  | '\'' :: '\'' :: '\'' :: rest => scan ⟨'\'', true⟩ .plain [] (dropLineBreak rest)
  | t => short? t

end Quoted

end Neaten.Toml
