import Neaten.Toml.Value

/-! # Building TOML tables

    A field may be set once.  A dotted key makes the tables it names; it may
    add to tables made by dotted keys, and to no others.  A header defines a
    table that was at most implied before; a doubled header adds a table to
    those of its name. -/

namespace Neaten.Toml

/-- A table under construction. -/
structure Table where
  origin : Origin
  fields : Fields

namespace Table

/-- The document before its first line. -/
def document : Table := ⟨.header, []⟩

/-- A table between braces before its first field. -/
def braces : Table := ⟨.inline, []⟩

/-- The table with one field set. -/
def set (t : Table) (key : Text) (v : Value) : Table := { t with fields := t.fields.set key v }

/-- Changes the table at the end of a path, making the tables on the way that
    do not exist.  Among tables that share a header the last one is meant.
    `isDotted` says that the path is the front of a dotted key. -/
def within (isDotted : Bool) : List Text → (Table → Option Table) → Table → Option Table
  | [], change, t => change t
  | key :: path, change, t =>
    match t.fields.lookup key with
    | none =>
      let child : Table := ⟨if isDotted then .dotted else .implied, []⟩
      (within isDotted path change child).map fun c => t.set key (.table c.origin c.fields)
    | some (.table origin fields) =>
      if origin = .inline ∨ (isDotted ∧ origin = .header) then none
      else (within isDotted path change ⟨origin, fields⟩).map fun c =>
        t.set key (.table c.origin c.fields)
    | some (.tables all) =>
      match all.getLast? with
      | none => none
      | some fields =>
        (within isDotted path change ⟨.header, fields⟩).map fun c =>
          t.set key (.tables (all.dropLast ++ [c.fields]))
    | some _ => none

/-- Adds a field that is not there yet. -/
def add (key : Text) (v : Value) (t : Table) : Option Table :=
  match t.fields.lookup key with
  | none => some (t.set key v)
  | some _ => none

/-- Adds the field of a dotted key. -/
def addDotted (path : List Text) (key : Text) (v : Value) (t : Table) : Option Table :=
  within true path
    -- A table of dotted keys takes fields by dotted keys only.
    (fun t => if (t.origin == .dotted) == path.isEmpty then none else add key v t) t

/-- Starts the table of a header. -/
def startTable (path : List Text) (key : Text) (t : Table) : Option Table :=
  within false path
    (fun t =>
      match t.fields.lookup key with
      | none => some (t.set key (.table .header []))
      | some (.table .implied fields) => some (t.set key (.table .header fields))
      | some _ => none) t

/-- Starts a table of a doubled header. -/
def startAnother (path : List Text) (key : Text) (t : Table) : Option Table :=
  within false path
    (fun t =>
      match t.fields.lookup key with
      | none => some (t.set key (.tables [[]]))
      | some (.tables all) => some (t.set key (.tables (all ++ [[]])))
      | some _ => none) t

end Table

end Neaten.Toml
