import Neaten.Command.Format
import Neaten.Command.Readme
import Neaten.Command.Serve
import Neaten.CommandLine.Value

/-! # Requests on a command line

    The options of each command, and what makes a request complete: laying out
    and describing need an input, and a README is either printed or saved. -/

namespace Neaten.CommandLine

open Command (FormatRequest ReadmeRequest ServeRequest)

/-- The option that asks for help. -/
def help {ρ : Type} : Switch ρ := ⟨"help", some 'h', .halt .help⟩

/-- What every command accepts as part of the program: to say more, and to say
    its version. -/
def common {ρ : Type} (command : Text) : List (Switch ρ) :=
  [⟨"verbose", some 'v', .count⟩, ⟨"version", some 'V', .halt (.version command)⟩]

/-- An input that must be given. -/
def required (input : Option Text) : Except Halt Text :=
  match input with
  | some path => .ok path
  | none => .error .missingRequiredArgument

/-! ## Laying out -/

/-- A request to lay out, of which the input may be missing yet. -/
structure FormatDraft where
  input : Option Text := none
  output : Option Text := none

/-- What is accepted when laying out, besides some further options. -/
def formatGrammar (more : List (Switch FormatDraft)) : Grammar FormatDraft where
  switches :=
    ⟨"output", some 'o', .value fun t => do
      let p ← path t
      return fun d => { d with output := some p }⟩ :: help :: more
  operand := some fun t => do
    let p ← path t
    return fun d => { d with input := some p }

/-- The request of some words after the command. -/
def readFormat (words : List Text) (more : List (Switch FormatDraft) := []) :
    Except Halt FormatRequest := do
  let d ← (formatGrammar more).read {} words
  return { input := ← required d.input, output := d.output }

/-! ## Describing -/

/-- A request to describe, of which the input may be missing yet. -/
structure ReadmeDraft where
  input : Option Text := none
  output : Option Text := none
  print : Bool := false
  title : Option Text := none

/-- What is accepted when describing, besides some further options. -/
def readmeGrammar (more : List (Switch ReadmeDraft)) : Grammar ReadmeDraft where
  switches :=
    ⟨"output", some 'o', .value fun t => do
      let p ← path t
      return fun d => { d with output := some p }⟩ ::
    ⟨"stdout", none, .flag fun d => { d with print := true }⟩ ::
    ⟨"title", none, .value fun t => .ok fun d => { d with title := some t }⟩ :: help :: more
  operand := some fun t => do
    let p ← path t
    return fun d => { d with input := some p }

/-- The request of some words after the command. -/
def readReadme (words : List Text) (more : List (Switch ReadmeDraft) := []) :
    Except Halt ReadmeRequest := do
  let d ← (readmeGrammar more).read {} words
  if d.print ∧ d.output.isSome then throw .argumentConflict
  return { input := ← required d.input, output := d.output, print := d.print, title := d.title }

/-! ## Serving -/

/-- What is accepted when serving, besides some further options. -/
def serveGrammar (more : List (Switch ServeRequest)) : Grammar ServeRequest where
  switches :=
    ⟨"port", some 'p', .value fun t => do
      let p ← port t
      return fun d => { d with port := some p }⟩ ::
    ⟨"host", none, .value fun t => do
      let a ← address t
      return fun d => { d with host := some a }⟩ ::
    ⟨"no-cors", none, .flag fun d => { d with sameOrigin := true }⟩ :: help :: more
  operand := none

/-- The request of some words after the command. -/
def readServe (words : List Text) (more : List (Switch ServeRequest) := []) :
    Except Halt ServeRequest :=
  (serveGrammar more).read {} words

/-! ## The program -/

/-- A request of any kind. -/
inductive Request where
  | format (r : FormatRequest)
  | readme (r : ReadmeRequest)
  | serve (r : ServeRequest)
deriving DecidableEq

/-- The name of the program. -/
def programName : Text := "codetidy"

/-- The version of the program. -/
def programVersion : Text := "0.1.0"

/-- What is said when the version of a command is asked for. -/
def versionMessage (command : Text) : Text := command ++ ' ' :: programVersion ++ ['\n']

/-- The full name of a command. -/
def commandName (command : Text) : Text := programName ++ '-' :: command

/-- The commands that help can be asked about. -/
def helpTopics : List Text := ["format", "f", "readme", "r", "serve", "help"]

/-- What is accepted before the command. -/
def programGrammar : Grammar Unit := ⟨help :: common programName, none⟩

/-- The request of a command and the words after it. -/
def readCommand (command : Text) (words : List Text) : Except Halt Request :=
  if command = "format" ∨ command = "f" then
    .format <$> readFormat words (common (commandName "format"))
  else if command = "readme" ∨ command = "r" then
    .readme <$> readReadme words (common (commandName "readme"))
  else if command = "serve" then
    .serve <$> readServe words (common (commandName "serve"))
  else if command = "help" then
    if words.all helpTopics.contains then throw .help else throw .unknownArgument
  else throw .unknownArgument

/-- Whether a word comes before the command. -/
def isOption : Text → Bool
  | '-' :: _ :: _ => true
  | _ => false

/-- The request of a whole command line.  Options before the command are those
    of the program, and no command follows `--`. -/
def read (words : List Text) : Except Halt Request := do
  let options := words.takeWhile isOption
  let _ ← programGrammar.read () options
  if options.contains "--" then throw .unknownArgument
  match words.dropWhile isOption with
  | [] => throw .noCommand
  | command :: rest => readCommand command rest

end Neaten.CommandLine
