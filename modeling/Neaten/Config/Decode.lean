import Neaten.Config.Basic
import Neaten.Toml.Value

/-! # Configuration files as data

    The settings stand in three sections.  A section is a table with no fields
    but its own, or an array of their values in order, of which the last may
    be left out and any further ones count for nothing. -/

namespace Neaten.Config

open Toml (Value)

/-! ## Sections -/

/-- The values of some keys in a section, in the order of the keys. -/
def section? (keys : List Text) : Value → Option (List (Option Value))
  | .table _ fields =>
    if fields.all fun (key, _) => keys.contains key then some (keys.map fun key => fields.lookup key)
    else none
  | .array values => some (keys.zipIdx.map fun (_, place) => values[place]?)
  | .tables all => some (keys.zipIdx.map fun (_, place) => all[place]?.map (.table .header))
  | _ => none

/-- A section that may be left out. -/
def optionalSection? (keys : List Text) : Option Value → Option (List (Option Value))
  | none => some (keys.map fun _ => none)
  | some v => section? keys v

/-! ## Settings -/

/-- A text. -/
def text? : Value → Option Text
  | .text t => some t
  | _ => none

/-- A truth value. -/
def boolean? : Value → Option Bool
  | .boolean b => some b
  | _ => none

/-- A number that is not negative. -/
def number? : Value → Option Nat
  | .integer n => if 0 ≤ n then some n.toNat else none
  | _ => none

/-- A port. -/
def port? (v : Value) : Option UInt16 := do
  let n ← number? v
  if n < 65536 then some (.ofNat n) else none

/-- An address, written as a text. -/
def host? (v : Value) : Option Net.Address := do Net.Address.parse? (← text? v)

/-! ## All of it -/

/-- What a document sets, or nothing if it does not say so properly. -/
def Layer.ofToml? (document : Toml.Fields) : Option Layer := do
  let sections ← section? ["formatter", "output", "serve"] (.table .header document)
  match sections with
  | [formatter, output, serve] =>
    let formatter ← optionalSection? ["max_indent_level"] formatter
    let output ← optionalSection? ["directory", "readme_file"] output
    let serve ← optionalSection? ["host", "port", "enable_cors"] serve
    match formatter, output, serve with
    | [limit], [directory, readmeFile], [host, port, crossOrigin] =>
      return {
        indentLimit := ← limit.mapM number?
        directory := ← directory.mapM text?
        readmeFile := ← readmeFile.mapM text?
        host := ← host.mapM host?
        port := ← port.mapM port?
        crossOrigin := ← crossOrigin.mapM boolean? }
    | _, _, _ => none
  | _ => none

end Neaten.Config
