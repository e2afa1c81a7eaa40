import Neaten.Path

/-! # File systems

    A file system says what stands at each location.  A location is the list
    of names on the way from the root, the outermost first.  The root is always
    a directory.

    Files and directories are all there is.  There are no links, neither symbolic
    nor hard, so no two locations are the same file, and there are no devices or
    other special files.  No name is too long, and neither is a path. -/

namespace Neaten

/-- The names on the way from the root. -/
abbrev Location : Type := List Text

/-- What stands at a location. -/
inductive Entry where
  | file (data : Bytes)
  | directory
deriving DecidableEq

/-- What stands where.  Of several entries for a location the first counts. -/
structure FileSystem where
  entries : List (Location × Entry)

namespace FileSystem

/-- Nothing but the root. -/
def empty : FileSystem := ⟨[]⟩

/-- What stands at a location. -/
def get? (fs : FileSystem) : Location → Option Entry
  | [] => some .directory
  | name :: rest => fs.entries.lookup (name :: rest)

/-- The file system with something put at a location. -/
def put (fs : FileSystem) (at_ : Location) (e : Entry) : FileSystem := ⟨(at_, e) :: fs.entries⟩

theorem get?_put_self (fs : FileSystem) {l : Location} (e : Entry) (h : l ≠ []) :
    (fs.put l e).get? l = some e := by
  cases l with
  | nil => exact absurd rfl h
  | cons name rest => simp [put, get?]

@[simp] theorem get?_put_of_ne (fs : FileSystem) {l m : Location} (e : Entry) (h : m ≠ l) :
    (fs.put l e).get? m = fs.get? m := by
  cases m with
  | nil => rfl
  | cons name rest => simp [put, get?, List.lookup_cons, beq_false_of_ne h]

/-- Whether every entry stands in a directory. -/
def WellFormed (fs : FileSystem) : Prop :=
  ∀ l name, (fs.get? (l ++ [name])).isSome → fs.get? l = some .directory

end FileSystem

end Neaten
