import Neaten.Text.Basic

/-! # TOML values

    Numbers with a fraction, dates and times are told apart and kept as they
    are written, since nothing asks for their value.

    A table remembers how it came about, because that decides what may be
    added to it later. -/

namespace Neaten.Toml

/-- How a table came about. -/
inductive Origin where
  /-- Written between braces; nothing is added to it. -/
  | inline
  /-- The whole document, or a table with a header. -/
  | header
  /-- Only named on the way to another table. -/
  | implied
  /-- Named on the left of a dotted key. -/
  | dotted
deriving DecidableEq

/-- A value of a document. -/
inductive Value where
  | text (t : Text)
  | integer (n : Int)
  | boolean (b : Bool)
  | float (written : Text)
  | moment (written : Text)
  | array (values : List Value)
  | table (origin : Origin) (fields : List (Text × Value))
  /-- Tables that share a doubled header. -/
  | tables (all : List (List (Text × Value)))

/-- The fields of a table, in the order they were added. -/
abbrev Fields : Type := List (Text × Value)

/-- Puts a field into a table, in place of one of the same name. -/
def Fields.set (key : Text) (v : Value) : Fields → Fields
  | [] => [(key, v)]
  | (k, old) :: rest => if k = key then (k, v) :: rest else (k, old) :: Fields.set key v rest

end Neaten.Toml
