import Neaten.Command.Format
import Neaten.Command.Readme

/-! # What a command looks at

    A command only depends on what stands at some locations: those of the
    configuration files, those along the paths that it is given, and those
    along the paths that it saves at.  Which the last are shows once the first
    are known, so a disk is looked at twice before a command runs on what was
    seen. -/

namespace Neaten

/-- The locations met on the way from a location. -/
def Location.trail : Location → List Text → List Location
  | l, [] => [l]
  | l, piece :: rest => l :: trail (FileSystem.step l piece) rest

/-- The locations met along a path. -/
def Place.along (place : Place) (path : Text) : List Location :=
  Location.trail (if Path.isAbsolute path then [] else place.cwd) (FileSystem.steps path)

namespace Command

/-- Where configuration files may stand, and what bounds the search. -/
def configReach (place : Place) : List Location :=
  place.cwd.upward.flatMap
      (fun l => [l, l ++ [Config.projectName], l ++ [Config.repositoryName]]) ++
    place.along place.userFile

/-- Where the configured directory is. -/
def directoryReach (place : Place) (fs : FileSystem) : List Location :=
  match settings place fs with
  | .ok config => place.along config.directory
  | .error _ => []

/-- What laying out looks at, as far as some files tell. -/
def FormatRequest.reach (request : FormatRequest) (place : Place) (fs : FileSystem) :
    List Location :=
  configReach place ++ directoryReach place fs ++ place.along request.input ++
    match request.output, request.files place fs with
    | some directory, .ok files =>
      match targets (isArchivePath request.input) directory files with
      | .ok pairs => pairs.flatMap fun (path, _) => place.along path
      | .error _ => []
    | _, _ => []

/-- What describing looks at, as far as some files tell. -/
def ReadmeRequest.reach (request : ReadmeRequest) (place : Place) (fs : FileSystem) :
    List Location :=
  configReach place ++ directoryReach place fs ++ place.along request.input ++
    match request.output, settings place fs with
    | some path, _ => place.along path
    | none, .ok config => place.along (readmePath config)
    | none, .error _ => []

end Command

end Neaten
