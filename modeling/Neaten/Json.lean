import Neaten.Text.Basic

/-! # JSON

    Values and their compact form, without blanks.  In a text only quotes,
    backslashes and control characters are escaped. -/

namespace Neaten

/-- A value. -/
inductive Json where
  | null
  | bool (b : Bool)
  | number (n : Nat)
  | text (t : Text)
  | array (values : List Json)
  | object (fields : List (Text × Json))

namespace Json

/-! ## Texts -/

/-- The escape of a control character that has no letter of its own. -/
def controlEscape (c : Char) : Text :=
  ['\\', 'u', '0', '0', Nat.digitChar (c.toNat / 16), Nat.digitChar (c.toNat % 16)]

/-- One character between quotes. -/
def escape (c : Char) : Text :=
  if c = '"' then ['\\', '"']
  else if c = '\\' then ['\\', '\\']
  else if c = '\x08' then ['\\', 'b']
  else if c = '\x0c' then ['\\', 'f']
  else if c = '\n' then ['\\', 'n']
  else if c = '\r' then ['\\', 'r']
  else if c = '\t' then ['\\', 't']
  else if c.toNat < 32 then controlEscape c
  else [c]

/-- A text between quotes. -/
def quote (t : Text) : Text := '"' :: (t.flatMap escape ++ ['"'])

/-! ## Values -/

/-- The word for nothing. -/
def nullText : Text := ['n', 'u', 'l', 'l']

/-- A truth value in words. -/
def boolText (b : Bool) : Text := if b then ['t', 'r', 'u', 'e'] else ['f', 'a', 'l', 's', 'e']

mutual

/-- A value in writing. -/
def print : Json → Text
  | null => nullText
  | bool b => boolText b
  | number n => Text.decimal n
  | text t => quote t
  | array values => '[' :: (printArray values ++ [']'])
  | object fields => '{' :: (printObject fields ++ ['}'])

/-- Some values with commas between. -/
def printArray : List Json → Text
  | [] => []
  | v :: rest => print v ++ printArrayRest rest

/-- Some values with a comma before each. -/
def printArrayRest : List Json → Text
  | [] => []
  | v :: rest => ',' :: (print v ++ printArrayRest rest)

/-- Some fields with commas between. -/
def printObject : List (Text × Json) → Text
  | [] => []
  | (key, v) :: rest => quote key ++ ':' :: (print v ++ printObjectRest rest)

/-- Some fields with a comma before each. -/
def printObjectRest : List (Text × Json) → Text
  | [] => []
  | (key, v) :: rest => ',' :: (quote key ++ ':' :: (print v ++ printObjectRest rest))

end

/-- A text, or nothing. -/
def optionalText : Option Text → Json
  | some t => text t
  | none => null

end Json

end Neaten
