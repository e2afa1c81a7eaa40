import Neaten.Path

/-! # Names in an archive

    A stored name is the name of a directory if it ends in a separator, and it
    is confined if, read as a path with `/` between components, it stays below
    the root of the archive at every step.  The path of a file is its stored
    name with every backslash turned into `/`. -/

namespace Neaten.Archive

/-- Whether a stored name is that of a directory. -/
def isDirectoryName (name : Text) : Bool :=
  match name.getLast? with
  | some c => c == '/' || c == '\\'
  | none => false

/-- How far below the start the components lead, or nothing if they are
    absolute or climb above the start on the way. -/
def depthFrom : Nat → List Path.Component → Option Nat
  | depth, [] => some depth
  | _, .root :: _ => none
  | depth, .current :: rest => depthFrom depth rest
  | 0, .parent :: _ => none
  | depth + 1, .parent :: rest => depthFrom depth rest
  | depth, .normal _ :: rest => depthFrom (depth + 1) rest

/-- Whether a stored name stays inside the archive. -/
def isConfined (name : Text) : Bool :=
  !name.elem '\x00' && (depthFrom 0 (Path.components name)).isSome

/-- The path of a file with a stored name. -/
def pathOfName (name : Text) : Text := name.map fun c => if c = '\\' then '/' else c

end Neaten.Archive
