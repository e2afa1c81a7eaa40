import Neaten.Text.Basic

/-! # Reading a command line

    A command line is a list of words.  A command has options, which start with
    `-` or `--`, and may have one operand.  An option may take a value, written
    after `=` or as the next word; short options may share a `-`.  After `--`
    every word is an operand.

    A value counts only when the next option or operand is met or the line
    ends.  So of two faults the one that is reported need not be the first. -/

namespace Neaten.CommandLine

/-! ## Options -/

/-- Why a command line is not carried out. -/
inductive Halt where
  /-- Help is asked for instead. -/
  | help
  /-- The version of a command is asked for instead. -/
  | version (command : Text)
  | unknownArgument
  /-- A value is missing, or empty where it must not be. -/
  | invalidValue
  /-- A value is not of the kind that is needed. -/
  | valueValidation
  /-- An option is given twice, or beside one that excludes it. -/
  | argumentConflict
  /-- A value is given to an option that takes none. -/
  | tooManyValues
  | missingRequiredArgument
  | noCommand
deriving DecidableEq

/-- What an option does to the request that is being read. -/
inductive Effect (ρ : Type) where
  /-- Takes no value, and is given once at most. -/
  | flag (set : ρ → ρ)
  /-- Takes no value, and may be given many times. -/
  | count
  | value (read : Text → Except Halt (ρ → ρ))
  | halt (reason : Halt)

/-- An option of a command. -/
structure Switch (ρ : Type) where
  long : Text
  short : Option Char
  effect : Effect ρ

/-- The options and the operand of a command. -/
structure Grammar (ρ : Type) where
  switches : List (Switch ρ)
  operand : Option (Text → Except Halt (ρ → ρ))

variable {ρ : Type}

/-- The option with a long name. -/
def Grammar.ofLong? (g : Grammar ρ) (name : Text) : Option (Switch ρ) :=
  g.switches.find? (·.long = name)

/-- The option with a short name. -/
def Grammar.ofShort? (g : Grammar ρ) (c : Char) : Option (Switch ρ) :=
  g.switches.find? (·.short = some c)

/-! ## The state of reading -/

/-- Something that has been met and does not count yet. -/
structure Pending (ρ : Type) where
  /-- The long name of an option, or nothing for the operand. -/
  name : Option Text
  read : Text → Except Halt (ρ → ρ)
  /-- The value, once it has been met. -/
  value : Option Text

/-- How far a command line has been read. -/
structure Reading (ρ : Type) where
  request : ρ
  /-- The names of the options that count already. -/
  used : List Text
  operandMet : Bool
  pending : Option (Pending ρ)

/-- Nothing has been read yet. -/
def Reading.start (request : ρ) : Reading ρ := ⟨request, [], false, none⟩

/-- An option counts, unless it does already. -/
def Reading.use (r : Reading ρ) (name : Option Text) : Except Halt (Reading ρ) :=
  match name with
  | none => .ok r
  | some name =>
    if name ∈ r.used then .error .argumentConflict else .ok { r with used := name :: r.used }

/-- Makes count what has been met. -/
def Reading.settle (r : Reading ρ) : Except Halt (Reading ρ) :=
  match r.pending with
  | none => .ok r
  | some p =>
    match p.value with
    | none => .error .invalidValue
    | some v => do
      -- Being given twice is noticed before what the value says.
      let r ← r.use p.name
      let change ← p.read v
      return { r with request := change r.request, pending := none }

/-- Meets an option, or the operand, that takes a value. -/
def Reading.meet (r : Reading ρ) (p : Pending ρ) : Except Halt (Reading ρ) := do
  return { ← r.settle with pending := some p }

/-! ## Words -/

/-- Meets an option, with the value that is attached to it, if any. -/
def Reading.option (r : Reading ρ) (s : Switch ρ) (attached : Option Text) :
    Except Halt (Reading ρ) :=
  match s.effect, attached with
  | .value read, none => r.meet ⟨some s.long, read, none⟩
  | .value read, some v => do (← r.meet ⟨some s.long, read, some v⟩).settle
  | _, some _ => .error .tooManyValues
  | .halt reason, none => do
    -- What was met before may still be at fault.
    let _ ← r.settle
    throw reason
  | .count, none => r.settle
  | .flag set, none => do
    let r ← (← r.settle).use (some s.long)
    return { r with request := set r.request }

/-- Meets short options that share a `-`.  What follows one that takes a value
    is that value. -/
def Reading.shorts (g : Grammar ρ) (r : Reading ρ) : Text → Except Halt (Reading ρ)
  | [] => .ok r
  | c :: rest =>
    match g.ofShort? c with
    | none => .error .unknownArgument
    | some s =>
      match s.effect with
      | .value _ =>
        match rest with
        | [] => r.option s none
        | '=' :: v => r.option s (some v)
        | v => r.option s (some v)
      | _ => do shorts g (← r.option s none) rest

/-- The name and the attached value of a long option. -/
def cutAttached (t : Text) : Text × Option Text :=
  match t.dropWhile (· ≠ '=') with
  | [] => (t, none)
  | _ :: v => (t.takeWhile (· ≠ '='), some v)

/-- Meets an operand. -/
def Reading.operand (g : Grammar ρ) (r : Reading ρ) (word : Text) : Except Halt (Reading ρ) :=
  match g.operand with
  | some read =>
    if r.operandMet then .error .unknownArgument
    else do
      let r ← r.meet ⟨none, read, some word⟩
      return { r with operandMet := true }
  | none => .error .unknownArgument

/-- Meets a word that no option claims. -/
def Reading.plain (g : Grammar ρ) (r : Reading ρ) (word : Text) : Except Halt (Reading ρ) :=
  match r.pending with
  | some ⟨name, read, none⟩ => .ok { r with pending := some ⟨name, read, some word⟩ }
  | _ => r.operand g word

/-- Reads the words after `--`. -/
def Reading.operands (g : Grammar ρ) (r : Reading ρ) : List Text → Except Halt (Reading ρ)
  | [] => .ok r
  | word :: rest => do (← r.operand g word).operands g rest

/-- Reads some words. -/
def Reading.words (g : Grammar ρ) (r : Reading ρ) : List Text → Except Halt (Reading ρ)
  | [] => .ok r
  | ['-', '-'] :: rest => r.operands g rest
  | word :: rest => do
    let r ←
      match word with
      | '-' :: '-' :: long =>
        let (name, attached) := cutAttached long
        match g.ofLong? name with
        | none => throw .unknownArgument
        | some s => r.option s attached
      | '-' :: c :: more => r.shorts g (c :: more)
      | word => r.plain g word
    r.words g rest

/-- Reads the words of a command, starting from a request. -/
def Grammar.read (g : Grammar ρ) (start : ρ) (words : List Text) : Except Halt ρ := do
  let r ← (Reading.start start).words g words
  return (← r.settle).request

end Neaten.CommandLine
