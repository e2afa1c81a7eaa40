import Neaten.Text.Printable

/-! # Quoted text in messages

    A path in a message stands between double quotes.  Quotes and backslashes
    get a backslash, and characters that do not show are written as escapes. -/

namespace Neaten.Text

/-- One character between quotes. -/
def quoteChar (c : Char) : Text :=
  if c = '"' then "\\\""
  else if c = '\\' then "\\\\"
  else if c = '\n' then "\\n"
  else if c = '\r' then "\\r"
  else if c = '\t' then "\\t"
  else if c = '\x00' then "\\0"
  else if isPrintable c then [c]
  else "\\u\x7b" ++ Nat.toDigits 16 c.toNat ++ "\x7d"

/-- A text between quotes. -/
def quote (t : Text) : Text := '"' :: (t.flatMap quoteChar ++ ['"'])

end Neaten.Text
