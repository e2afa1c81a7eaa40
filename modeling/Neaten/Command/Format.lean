import Neaten.Command.Basic
import Neaten.FileSystem.Saving

/-! # Laying out files

    Lays out a file, or every file of an archive.  The result is printed, or
    saved under a directory: the files of an archive at their own paths, a
    single file under the name it is offered by. -/

namespace Neaten.Command

/-- What is to be laid out, and where to. -/
structure FormatRequest where
  input : Text
  /-- The directory to save in; the result is printed if there is none. -/
  output : Option Text
deriving DecidableEq

/-- Whether a path names an archive. -/
def isArchivePath (path : Text) : Bool := (Path.fileName? path).any Archive.isArchiveName

/-! ## Printing -/

/-- A single file as it is printed. -/
def printFile (f : SourceFile) : Text := f.shownText ++ ['\n']

/-- A file of an archive as it is printed, under its path. -/
def printSection (f : SourceFile) : Text :=
  "==> " ++ f.path ++ " <==\n" ++ f.shownText ++ "\n\n"

/-- Some files as they are printed. -/
def listing (isArchive : Bool) (files : List SourceFile) : Text :=
  files.flatMap (if isArchive then printSection else printFile)

/-! ## Saving -/

/-- Where a file is saved under a directory. -/
def target (isArchive : Bool) (directory : Text) (f : SourceFile) : Except Failure Text :=
  if isArchive then Path.below directory f.path
  else .ok (Path.join directory (formattedName f.name))

/-- Where each file is saved, and what is saved there. -/
def targets (isArchive : Bool) (directory : Text) (files : List SourceFile) :
    Except Failure (List (Text × Text)) :=
  files.mapM fun f => (·, f.shownText) <$> target isArchive directory f

/-- What is said after saving. -/
def savedMessage (count : Nat) (directory : Text) : Text :=
  "✅ Wrote " ++ Text.decimal count ++ " formatted file(s) to " ++ directory ++ "\n"

/-- Saves files under a directory. -/
def saveIn (place : Place) (fs : FileSystem) (isArchive : Bool) (directory : Text)
    (files : List SourceFile) : Outcome :=
  match targets isArchive directory files with
  | .error f => .failed f fs
  | .ok pairs =>
    match fs.saveAll place.cwd pairs with
    | (.error f, fs) => .failed f fs
    | (.ok (), fs) => .done (savedMessage pairs.length directory) fs

/-! ## The command -/

/-- The files that a request is about. -/
def FormatRequest.files (request : FormatRequest) (place : Place) (fs : FileSystem) :
    Except Failure (List SourceFile) := do
  let config ← settings place fs
  takeIn config.indentLimit place fs request.input

/-- Lays out what a request asks for. -/
def format (place : Place) (request : FormatRequest) (fs : FileSystem) : Outcome :=
  let isArchive := isArchivePath request.input
  match request.files place fs with
  | .error f => .failed f fs
  | .ok files =>
    match request.output with
    | none => .done (listing isArchive files) fs
    | some directory => saveIn place fs isArchive directory files

end Neaten.Command
