import Neaten.Failure
import Neaten.Text.Utf8

/-! # Saving text

    A text is saved at a path together with the directories above it.  A path
    from elsewhere is placed under a directory only if it goes down from there,
    by at least one name. -/

namespace Neaten.FileSystem

/-! ## Saving -/

/-- Makes sure that a directory stands at a path. -/
def ensureDirectory (fs : FileSystem) (cwd : Location) (path : Text) :
    Except Failure Unit × FileSystem :=
  if !fs.pathExists cwd path then
    let (result, fs) := fs.makeDirectories cwd path
    (result.mapError fun e => ⟨[.makingDirectory path], .call e⟩, fs)
  else if !fs.isDirectory cwd path then (.error ⟨[], .notADirectory path⟩, fs)
  else (.ok (), fs)

/-- Makes sure that a directory stands above a path. -/
def ensureParent (fs : FileSystem) (cwd : Location) (path : Text) :
    Except Failure Unit × FileSystem :=
  match Path.parent? path with
  | none => (.ok (), fs)
  | some above => if above = [] then (.ok (), fs) else fs.ensureDirectory cwd above

/-- Saves a text at a path. -/
def save (fs : FileSystem) (cwd : Location) (path text : Text) :
    Except Failure Unit × FileSystem :=
  match fs.ensureParent cwd path with
  | (.error f, fs) => (.error f, fs)
  | (.ok (), fs) =>
    match fs.write cwd path (Utf8.encode text) with
    | .error e => (.error ⟨[.writing path], .call e⟩, fs)
    | .ok fs => (.ok (), fs)

/-- Saves some texts one after another, up to the first that fails. -/
def saveAll (fs : FileSystem) (cwd : Location) :
    List (Text × Text) → Except Failure Unit × FileSystem
  | [] => (.ok (), fs)
  | (path, text) :: rest =>
    match fs.save cwd path text with
    | (.error f, fs) => (.error f, fs)
    | (.ok (), fs) => fs.saveAll cwd rest

end Neaten.FileSystem

/-! ## Placing paths under a directory -/

namespace Neaten.Path

/-- The names of a path that only goes down, if it does. -/
def downward? : List Component → Option (List Text)
  | [] => some []
  | .normal name :: rest => (downward? rest).map (name :: ·)
  | .current :: rest => downward? rest
  | .parent :: _ => none
  | .root :: _ => none

/-- A path placed under a directory. -/
def below (base path : Text) : Except Failure Text :=
  match downward? (components path) with
  | none => .error ⟨[], .outside path⟩
  | some [] => .error ⟨[], .emptyPath path⟩
  | some names => .ok (names.foldl join base)

end Neaten.Path
