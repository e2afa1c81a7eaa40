import Neaten.FileSystem.Calls

/-! # Where a command runs

    A command runs in a working directory, for a user who has a home.  The
    user's settings stand in a directory of their own where one is named, and
    in the home otherwise. -/

namespace Neaten

namespace Location

/-- The path from the root to a location. -/
def path (l : Location) : Text := '/' :: ['/'].intercalate l

/-- A location and those above it, the root last. -/
def upward : Location → List Location
  | [] => [[]]
  | name :: rest => (upward rest).map (name :: ·) ++ [[]]

@[simp] theorem upward_nil : upward [] = [[]] := rfl

/-- What is above a location is what is above its last name, after the
    location itself. -/
theorem upward_concat (l : Location) (name : Text) :
    upward (l ++ [name]) = (l ++ [name]) :: upward l := by
  induction l with
  | nil => rfl
  | cons head rest ih => simp [upward, ih]

end Location

/-- Where a command runs. -/
structure Place where
  cwd : Location
  /-- The path of the user's home. -/
  home : Text
  /-- The path that settings are kept under, if one is named. -/
  settings : Option Text

/-- The path of the user's configuration file.  A path for settings counts only
    if it is absolute. -/
def Place.userFile (place : Place) : Text :=
  let settings :=
    match place.settings with
    | some path => if Path.isAbsolute path then path else Path.join place.home ".config"
    | none => Path.join place.home ".config"
  Path.join (Path.join settings "codetidy") "config.toml"

end Neaten
