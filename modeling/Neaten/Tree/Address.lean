import Mathlib.Data.List.Infix
import Neaten.Tree.Line

/-! # Addresses in a tree

    The address of an entry has a number for each directory around it and one
    for the entry itself: its place among its siblings, counted from zero.  In
    the order of their addresses entries come up as a walk through the tree
    meets them, each directory before what it holds.

    An address alone tells which directories are around its entry, and the tree
    tells of each whether it is the last of its siblings.  That is all a line of
    a drawing shows besides the entry itself. -/

namespace Neaten

/-- What a node shows beside its name. -/
def Node.label? : Node → Option Text
  | .file leaf => some leaf.label
  | .directory _ => none

namespace Tree

/-- Places among siblings, the outermost first. -/
abbrev Address : Type := List Nat

/-! ## What stands at an address -/

/-- The entries of a directory, the first one first. -/
def entries : Tree → List (Text × Node)
  | empty => []
  | file name leaf later => (name, .file leaf) :: later.entries
  | directory name contents later => (name, .directory contents) :: later.entries

/-- The entry at an address, with its name. -/
def entryAt? : Tree → Address → Option (Text × Node)
  | _, [] => none
  | t, [i] => t.entries[i]?
  | t, i :: j :: rest =>
    match t.entries[i]? with
    | some (_, .directory contents) => contents.entryAt? (j :: rest)
    | _ => none

/-- The address of the next sibling. -/
def next : Address → Address
  | [] => []
  | [i] => [i + 1]
  | i :: j :: rest => i :: next (j :: rest)

/-- Whether no sibling comes after the entry at an address. -/
def isLastAt (t : Tree) (a : Address) : Bool := (t.entryAt? (next a)).isNone

/-- The addresses of the directories around an entry, the outermost first. -/
def around (a : Address) : List Address := a.dropLast.inits.tail

/-- The line of the entry at an address. -/
def lineAt? (t : Tree) (a : Address) : Option Line :=
  (t.entryAt? a).map fun (name, node) =>
    { around := (around a).map t.isLastAt, isLast := t.isLastAt a, name, label := node.label? }

/-! ## All addresses -/

/-- The addresses of a tree as a walk meets them. -/
def addresses : Tree → List Address
  | empty => []
  | file _ _ later => [0] :: later.addresses.map (List.modifyHead (· + 1))
  | directory _ contents later =>
    [0] :: (contents.addresses.map (0 :: ·) ++ later.addresses.map (List.modifyHead (· + 1)))

end Tree

end Neaten
