import Neaten.Config.Decode
import Neaten.Failure
import Neaten.Place
import Neaten.Text.Utf8
import Neaten.Toml.Parser

/-! # Loading the configuration

    The user has one file and every project may have one.  The project's is
    looked for in the working directory and upwards, but not beyond a directory
    that holds a repository.  What both say together is checked before it is
    used. -/

namespace Neaten.Config

/-! ## Finding the project's file -/

/-- The name of a project's file. -/
def projectName : Text := ".codetidy.toml"

/-- The name of the directory that marks a repository. -/
def repositoryName : Text := ".git"

/-- Whether a project's file stands in a directory. -/
def holdsFile (fs : FileSystem) (cwd : Location) (directory : Text) : Bool :=
  fs.isFile cwd (Path.join directory projectName)

/-- Whether a directory holds a repository. -/
def holdsRepository (fs : FileSystem) (cwd : Location) (directory : Text) : Bool :=
  fs.isDirectory cwd (Path.join directory repositoryName)

/-- The path of a project's file in the first of some directories to have one,
    unless one before it holds a repository. -/
def projectFileIn? (fs : FileSystem) (cwd : Location) : List Text → Option Text
  | [] => none
  | directory :: rest =>
    if holdsFile fs cwd directory then some (Path.join directory projectName)
    -- The directory that holds the repository is itself still searched.
    else if holdsRepository fs cwd directory then none
    else projectFileIn? fs cwd rest

/-- The path of the project's file, as seen from a directory. -/
def projectFile? (fs : FileSystem) (cwd : Location) (start : Text) : Option Text :=
  projectFileIn? fs cwd (Path.upward start)

/-! ## Reading -/

/-- What the contents of a file at a path set. -/
def Layer.ofBytes (path : Text) (data : Bytes) : Except Failure Layer :=
  match Utf8.decode? data with
  | none => .error ⟨[.readingConfig path], .notUtf8⟩
  | some text =>
    match (Toml.parse? text).bind Layer.ofToml? with
    | none => .error ⟨[.parsingConfig path], .badToml⟩
    | some layer => .ok layer

/-- What the file at a path sets. -/
def Layer.ofFile (place : Place) (fs : FileSystem) (path : Text) : Except Failure Layer :=
  match fs.read place.cwd path with
  | .error e => .error ⟨[.readingConfig path], .call e⟩
  | .ok data => Layer.ofBytes path data

/-- What the user's file sets, if there is one. -/
def Layer.ofUser (place : Place) (fs : FileSystem) : Except Failure Layer :=
  if fs.pathExists place.cwd place.userFile then Layer.ofFile place fs place.userFile
  else .ok {}

/-- What the project's file sets, if there is one. -/
def Layer.ofProject (place : Place) (fs : FileSystem) : Except Failure Layer :=
  match projectFile? fs place.cwd place.cwd.path with
  | none => .ok {}
  | some path => Layer.ofFile place fs path

/-! ## Checking -/

/-- Whether a configuration may be used, and if not, why. -/
def check (place : Place) (fs : FileSystem) (c : Config) : Except Fault Unit :=
  if c.indentLimit = 0 then .error .zeroLimit
  else if !isPlainName c.readmeFile then .error (.readmeNotPlain c.readmeFile)
  else if fs.pathExists place.cwd c.directory ∧ ¬ fs.isDirectory place.cwd c.directory then
    .error (.notADirectory c.directory)
  else .ok ()

/-- The configuration of a place. -/
def load (place : Place) (fs : FileSystem) : Except Failure Config := do
  let user ← Layer.ofUser place fs
  let project ← Layer.ofProject place fs
  let c := (user.toConfig.merge project.toConfig).expand place.home
  match c.check place fs with
  | .ok () => return c
  | .error fault => throw ⟨[.checkingConfig], .config fault⟩

end Neaten.Config
