import Neaten.Command.Basic
import Neaten.FileSystem.Saving

/-! # Describing an archive

    Writes the README of an archive, to a path that is named or to the one of
    the configuration, or prints it.  Anything else than an archive is refused
    before the configuration is looked at. -/

namespace Neaten.Command

/-- What is to be described, under which title, and where to. -/
structure ReadmeRequest where
  input : Text
  /-- The path to save at, in place of the one of the configuration. -/
  output : Option Text
  /-- Whether to print the README. -/
  print : Bool
  /-- The title, in place of the one that the archive's name gives. -/
  title : Option Text
deriving DecidableEq

/-- The name of the archive that a request is about. -/
def ReadmeRequest.archiveName (request : ReadmeRequest) : Except Failure Text :=
  match Path.fileName? request.input with
  | none => .error ⟨[], .noFileName request.input⟩
  | some name =>
    if Archive.isArchiveName name then .ok name else .error ⟨[], .notAnArchive name⟩

/-- The README of an archive's files. -/
def ReadmeRequest.describe (request : ReadmeRequest) (name : Text) (files : List SourceFile) :
    Except Failure Text :=
  Failure.within (.describing name) <|
    match request.title with
    | some title => Readme.generate title files
    | none => Readme.ofArchive name files

/-- Where a README goes by the configuration. -/
def readmePath (config : Config) : Text := Path.join config.directory config.readmeFile

/-- What is said after saving. -/
def describedMessage (path : Text) (count : Nat) : Text :=
  "✅ Generated " ++ path ++ " documenting " ++ Text.decimal count ++ " files.\n"

/-- The configuration, the archive's files and their README. -/
def ReadmeRequest.prepare (request : ReadmeRequest) (place : Place) (fs : FileSystem) :
    Except Failure (Config × List SourceFile × Text) := do
  let name ← request.archiveName
  let config ← settings place fs
  let files ← takeIn config.indentLimit place fs request.input
  let readme ← request.describe name files
  return (config, files, readme)

/-- Describes what a request asks for. -/
def readme (place : Place) (request : ReadmeRequest) (fs : FileSystem) : Outcome :=
  match request.prepare place fs with
  | .error f => .failed f fs
  | .ok (config, files, text) =>
    -- Printing leaves the files as they are.
    if request.print then .done text fs
    else
      let path := request.output.getD (readmePath config)
      match fs.save place.cwd path text with
      | (.error f, fs) => .failed f fs
      | (.ok (), fs) => .done (describedMessage path files.length) fs

end Neaten.Command
