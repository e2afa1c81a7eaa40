import Neaten.Config.Load
import Neaten.Upload

/-! # Commands

    A command reads what it needs from the files of a place, prints text and
    may leave the files changed.  When it fails, what it has changed until then
    stays. -/

namespace Neaten.Command

/-- What a command leaves behind. -/
structure Outcome where
  failure : Option Failure
  printed : Text
  files : FileSystem

/-- A command that prints a text. -/
def Outcome.done (printed : Text) (files : FileSystem) : Outcome := ⟨none, printed, files⟩

/-- A command that fails. -/
def Outcome.failed (f : Failure) (files : FileSystem) : Outcome := ⟨some f, [], files⟩

/-- Whether a command succeeded. -/
def Outcome.succeeded (o : Outcome) : Bool := o.failure.isNone

/-! ## Common steps -/

/-- The configuration that a command goes by. -/
def settings (place : Place) (fs : FileSystem) : Except Failure Config :=
  Failure.within .loadingConfig (Config.load place fs)

/-- Takes in the file at a path under its own name. -/
def takeIn (limit : Nat) (place : Place) (fs : FileSystem) (path : Text) :
    Except Failure (List SourceFile) :=
  match fs.read place.cwd path with
  | .error e => .error ⟨[.reading path], .call e⟩
  | .ok data =>
    match Path.fileName? path with
    | none => .error ⟨[], .noFileName path⟩
    | some name => SourceFile.ofUpload limit name data

end Neaten.Command
