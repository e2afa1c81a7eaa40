import Neaten.FileSystem.Basic

/-! # Calls on a file system

    A path is resolved from the working directory, one component at a time,
    and every component but the last must lead to a directory.  The calls are
    asking what stands at a path, reading and writing a file, and making a
    directory with or without those above it. -/

namespace Neaten.FileSystem

/-- Why a call failed. -/
inductive CallError where
  | notFound
  | exists
  | notDirectory
  | isDirectory
deriving DecidableEq

/-- A failure in words. -/
def CallError.message : CallError → Text
  | notFound => "No such file or directory (os error 2)"
  | «exists» => "File exists (os error 17)"
  | notDirectory => "Not a directory (os error 20)"
  | isDirectory => "Is a directory (os error 21)"

/-! ## Resolving paths -/

/-- The pieces of a path that are followed one after another. -/
def steps (path : Text) : List Text := (Text.split '/' path).filter (· ≠ [])

/-- Where a single step from a directory leads. -/
def step (l : Location) (piece : Text) : Location :=
  if piece = "." then l else if piece = ".." then l.dropLast else l ++ [piece]

/-- Where some steps from a location lead, if each starts in a directory. -/
def walk (fs : FileSystem) : Location → List Text → Except CallError Location
  | l, [] => .ok l
  | l, piece :: rest =>
    match fs.get? l with
    | none => .error .notFound
    | some (.file _) => .error .notDirectory
    | some .directory => fs.walk (step l piece) rest

/-- The location that a path means in a working directory. -/
def resolve (fs : FileSystem) (cwd : Location) (path : Text) : Except CallError Location :=
  if path = [] then .error .notFound
  else fs.walk (if Path.isAbsolute path then [] else cwd) (steps path)

/-- Whether a path can only mean a directory, by its end. -/
def endsInSlash (path : Text) : Bool := path.getLast? == some '/'

/-! ## Asking -/

/-- What stands at a path. -/
def stat (fs : FileSystem) (cwd : Location) (path : Text) : Except CallError Entry := do
  let l ← fs.resolve cwd path
  match fs.get? l with
  | none => throw .notFound
  | some .directory => return .directory
  | some (.file data) => if endsInSlash path then throw .notDirectory else return .file data

/-- Whether anything stands at a path. -/
def pathExists (fs : FileSystem) (cwd : Location) (path : Text) : Bool :=
  (fs.stat cwd path).toBool

/-- Whether a directory stands at a path. -/
def isDirectory (fs : FileSystem) (cwd : Location) (path : Text) : Bool :=
  match fs.stat cwd path with
  | .ok .directory => true
  | _ => false

/-- Whether a file stands at a path. -/
def isFile (fs : FileSystem) (cwd : Location) (path : Text) : Bool :=
  match fs.stat cwd path with
  | .ok (.file _) => true
  | _ => false

/-! ## Reading and writing -/

/-- The contents of the file at a path. -/
def read (fs : FileSystem) (cwd : Location) (path : Text) : Except CallError Bytes := do
  match ← fs.stat cwd path with
  | .file data => return data
  | .directory => throw .isDirectory

/-- Writes a file at a path, in place of what it held. -/
def write (fs : FileSystem) (cwd : Location) (path : Text) (data : Bytes) :
    Except CallError FileSystem := do
  let l ← fs.resolve cwd path
  -- A path that ends in a slash is never that of a file, new or old.
  match fs.get? l with
  | some .directory => throw .isDirectory
  | some (.file _) => if endsInSlash path then throw .isDirectory else return fs.put l (.file data)
  | none => if endsInSlash path then throw .isDirectory else return fs.put l (.file data)

/-! ## Making directories -/

/-- Makes a directory in one that exists. -/
def makeDirectory (fs : FileSystem) (cwd : Location) (path : Text) :
    Except CallError FileSystem := do
  let l ← fs.resolve cwd path
  match fs.get? l with
  | some _ => throw .exists
  | none => return fs.put l .directory

/-- Makes a directory and those above it that do not exist.  Those above it
    stay even if it cannot be made itself. -/
def makeDirectories (fs : FileSystem) (cwd : Location) (path : Text) :
    Except CallError Unit × FileSystem :=
  match _h : Path.parent? path with
  | none => (.ok (), fs)
  | some above =>
    match fs.makeDirectory cwd path with
    | .ok fs => (.ok (), fs)
    | .error .notFound =>
      -- What is above comes first, and then the directory itself once more.
      match fs.makeDirectories cwd above with
      | (.error e, fs) => (.error e, fs)
      | (.ok (), fs) =>
        match fs.makeDirectory cwd path with
        | .ok fs => (.ok (), fs)
        | .error e => (if e = .exists ∧ fs.isDirectory cwd path then .ok () else .error e, fs)
    | .error e => (if e = .exists ∧ fs.isDirectory cwd path then .ok () else .error e, fs)
termination_by path.length
decreasing_by exact Path.length_parent?_lt _h

end Neaten.FileSystem
