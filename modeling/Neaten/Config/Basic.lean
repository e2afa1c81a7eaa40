import Neaten.Layout
import Neaten.Net.Address

/-! # Configuration

    A configuration has a value for each of six settings.  A layer, which is
    what one file says, sets any of them; the rest keep their initial value.

    Two files are combined setting by setting.  The project's value counts
    where it differs from the initial one, and the user's counts elsewhere. -/

namespace Neaten

/-- A value for every setting. -/
structure Config where
  /-- The deepest level that a line may ask for. -/
  indentLimit : Nat := Layout.defaultLimit
  /-- Where a README is written. -/
  directory : Text := "."
  /-- What the file of a README is called. -/
  readmeFile : Text := "README.md"
  /-- The address that the server listens at. -/
  host : Net.Address := .localhost
  /-- The first port that the server tries. -/
  port : UInt16 := 8000
  /-- Whether pages of other origins may use the server. -/
  crossOrigin : Bool := true
deriving DecidableEq

namespace Config

/-- Every setting at its initial value. -/
def initial : Config := {}

/-! ## Layers -/

/-- What one file sets. -/
structure Layer where
  indentLimit : Option Nat := none
  directory : Option Text := none
  readmeFile : Option Text := none
  host : Option Net.Address := none
  port : Option UInt16 := none
  crossOrigin : Option Bool := none
deriving DecidableEq

/-- A configuration with what a layer sets put in. -/
def Layer.over (l : Layer) (c : Config) : Config where
  indentLimit := l.indentLimit.getD c.indentLimit
  directory := l.directory.getD c.directory
  readmeFile := l.readmeFile.getD c.readmeFile
  host := l.host.getD c.host
  port := l.port.getD c.port
  crossOrigin := l.crossOrigin.getD c.crossOrigin

/-- The configuration that a single file stands for. -/
def Layer.toConfig (l : Layer) : Config := l.over initial

/-! ## Combining two files -/

/-- Of two values the project's, unless it is the initial one. -/
def prefer {α : Type} [DecidableEq α] (start user project : α) : α :=
  if project ≠ start then project else user

@[simp] theorem prefer_self {α : Type} [DecidableEq α] (start user : α) :
    prefer start user start = user := by simp [prefer]

theorem prefer_of_ne {α : Type} [DecidableEq α] {start user project : α} (h : project ≠ start) :
    prefer start user project = project := by simp [prefer, h]

/-- The user's configuration with the project's put over it. -/
def merge (user project : Config) : Config where
  indentLimit := prefer initial.indentLimit user.indentLimit project.indentLimit
  directory := prefer initial.directory user.directory project.directory
  readmeFile := prefer initial.readmeFile user.readmeFile project.readmeFile
  host := prefer initial.host user.host project.host
  port := prefer initial.port user.port project.port
  crossOrigin := prefer initial.crossOrigin user.crossOrigin project.crossOrigin

/-- A project that asks for the initial values alone changes nothing. -/
@[simp] theorem merge_initial (user : Config) : user.merge initial = user := by
  simp [merge]

/-! ## The user's home -/

/-- A path with `~` at its start replaced by the user's home, if it stands
    alone there or before a `/`. -/
def expandHome (home : Text) : Text → Text
  | ['~'] => home
  | '~' :: '/' :: rest => home ++ '/' :: rest
  | path => path

/-- The configuration with the directory's `~` replaced. -/
def expand (home : Text) (c : Config) : Config :=
  { c with directory := expandHome home c.directory }

/-! ## Faults -/

/-- Why a configuration is refused. -/
inductive Fault where
  /-- No line may be indented at all. -/
  | zeroLimit
  /-- The file of a README is not named by a single component. -/
  | readmeNotPlain (name : Text)
  /-- Something that is not a directory stands at the path of the directory. -/
  | notADirectory (path : Text)
deriving DecidableEq

/-- A fault in words. -/
def Fault.message : Fault → Text
  | zeroLimit => "formatter.max_indent_level must be greater than zero."
  | readmeNotPlain name => "output.readme_file must be a plain file name, got '" ++ name ++ "'."
  | notADirectory path =>
    "Configured output path '" ++ path ++ "' exists but is not a directory."

/-- Whether a name is accepted for the file of a README. -/
def isPlainName (name : Text) : Bool := !name.isEmpty && !name.contains '/' && !name.contains '\\'

end Config

end Neaten
