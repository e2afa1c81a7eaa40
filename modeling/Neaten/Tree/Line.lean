import Neaten.Tree.Drawing

/-! # The lines of a drawing

    What each line of a drawing shows: for every directory around the entry
    whether it is the last one of its siblings, and the same for the entry. -/

namespace Neaten.Tree

/-- A line of a drawing. -/
structure Line where
  /-- For each directory around the entry, the outermost first, whether it is
      the last of its siblings. -/
  around : List Bool
  /-- Whether the entry is the last of its siblings. -/
  isLast : Bool
  name : Text
  /-- The label of a file; nothing for a directory. -/
  label : Option Text
deriving DecidableEq

/-- What is written for an entry itself. -/
def Line.entry (l : Line) : Text :=
  match l.label with
  | some label => l.name ++ " (" ++ label ++ ")"
  | none => l.name ++ ['/']

/-- A line in writing: four blanks or a bar for each directory around the entry,
    by whether that is the last of its siblings, then an elbow or a tee, by
    whether the entry is, then the entry. -/
def Line.print (l : Line) : Text :=
  l.around.flatMap (fun isLast => (if isLast then "    " else "│   " : Text)) ++
    (if l.isLast then "└── " else "├── " : Text) ++ l.entry ++ ['\n']

/-- The lines of a tree with the given directories around it. -/
def linesFrom : (around : List Bool) → Tree → List Line
  | _, empty => []
  | around, file name leaf later =>
    ⟨around, later == empty, name, some leaf.label⟩ :: later.linesFrom around
  | around, directory name contents later =>
    ⟨around, later == empty, name, none⟩ ::
      (contents.linesFrom (around ++ [later == empty]) ++ later.linesFrom around)

/-- The lines of a tree, each directory before what it holds. -/
def lines (t : Tree) : List Line := t.linesFrom []

end Neaten.Tree
