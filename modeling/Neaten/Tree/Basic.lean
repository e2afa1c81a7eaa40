import Neaten.SourceFile

/-! # Directory trees

    A tree is what a directory holds, in order: each entry is followed by the
    entries after it.  Files go in at the end of the directory they belong to,
    or in place of what stands there under their name.  A file that stands
    where a directory is needed gives way to one. -/

namespace Neaten

/-- What a tree keeps of a file. -/
structure Leaf where
  label : Text
  /-- The number of characters. -/
  size : Nat
deriving DecidableEq

/-- The entries of a directory, the first one first. -/
inductive Tree where
  | empty
  | file (name : Text) (leaf : Leaf) (later : Tree)
  | directory (name : Text) (contents later : Tree)
deriving DecidableEq

/-- What stands at a place of a tree. -/
inductive Node where
  | file (leaf : Leaf)
  | directory (contents : Tree)
deriving DecidableEq

namespace Tree

/-! ## Looking up -/

/-- The names of the entries. -/
def names : Tree → List Text
  | empty => []
  | file name _ later => name :: later.names
  | directory name _ later => name :: later.names

/-- The names of the entries that are directories. -/
def directoryNames : Tree → List Text
  | empty => []
  | file _ _ later => later.directoryNames
  | directory name _ later => name :: later.directoryNames

/-- What stands at the end of the path that starts with `first`. -/
def find? : Tree → (first : Text) → (rest : List Text) → Option Node
  | empty, _, _ => none
  | file name leaf later, first, rest =>
    if name = first then (if rest = [] then some (.file leaf) else none)
    else later.find? first rest
  | directory name contents later, first, rest =>
    if name = first then
      match rest with
      | [] => some (.directory contents)
      | next :: more => contents.find? next more
    else later.find? first rest

/-- What stands at the end of a path.  At the end of the empty path stands the
    tree itself. -/
def lookup? (t : Tree) : List Text → Option Node
  | [] => some (.directory t)
  | first :: rest => t.find? first rest

/-! ## Inserting -/

/-- The tree of a single file at the end of a path. -/
def branch : (first : Text) → (rest : List Text) → Leaf → Tree
  | first, [], leaf => file first leaf empty
  | first, next :: more, leaf => directory first (branch next more leaf) empty

/-- Puts a file at the end of the path that starts with `first`. -/
def insertAt : Tree → (first : Text) → (rest : List Text) → Leaf → Tree
  | empty, first, rest, leaf => branch first rest leaf
  | file name old later, first, rest, leaf =>
    if name = first then
      match rest with
      | [] => file name leaf later
      -- A file cannot hold anything, so a directory takes its place.
      | next :: more => directory name (branch next more leaf) later
    else file name old (later.insertAt first rest leaf)
  | directory name contents later, first, rest, leaf =>
    if name = first then
      match rest with
      | [] => file name leaf later
      | next :: more => directory name (contents.insertAt next more leaf) later
    else directory name contents (later.insertAt first rest leaf)

/-- Puts a file at the end of a path.  Nothing goes at the empty path. -/
def insert (t : Tree) : List Text → Leaf → Tree
  | [], _ => t
  | first :: rest, leaf => t.insertAt first rest leaf

/-- What a tree keeps of a source file. -/
def leafOf (f : SourceFile) : Leaf := ⟨f.label, f.content.length⟩

/-- The tree of some files, put in one after another. -/
def ofFiles (files : List SourceFile) : Tree :=
  files.foldl (fun t f => t.insert f.segments (leafOf f)) empty

/-! ## Small laws -/

theorem find?_branch_self (first : Text) (rest : List Text) (leaf : Leaf) :
    (branch first rest leaf).find? first rest = some (.file leaf) := by
  induction rest generalizing first with
  | nil => simp [branch, find?]
  | cons next more ih => simp [branch, find?, ih]

/-- A file is found where it was put. -/
theorem find?_insertAt_self (t : Tree) (first : Text) (rest : List Text) (leaf : Leaf) :
    (t.insertAt first rest leaf).find? first rest = some (.file leaf) := by
  induction t generalizing first rest with
  | empty => simp [insertAt, find?_branch_self]
  | file name old later ih =>
    by_cases h : name = first
    · subst h
      cases rest <;> simp [insertAt, find?, find?_branch_self]
    · simp [insertAt, find?, h, ih]
  | directory name contents later ihc ihl =>
    by_cases h : name = first
    · subst h
      cases rest <;> simp [insertAt, find?, ihc]
    · simp [insertAt, find?, h, ihl]

/-! ## Rows -/

/-- An entry as it comes up when a tree is walked from the top, each directory
    before what it holds. -/
structure Row where
  /-- How many directories lie around the entry. -/
  depth : Nat
  name : Text
  /-- Nothing for a directory. -/
  leaf : Option Leaf
deriving DecidableEq

/-- The entries of a tree as they come up, those at the top at a depth. -/
def rowsFrom : (depth : Nat) → Tree → List Row
  | _, empty => []
  | depth, file name leaf later => ⟨depth, name, some leaf⟩ :: later.rowsFrom depth
  | depth, directory name contents later =>
    ⟨depth, name, none⟩ :: (contents.rowsFrom (depth + 1) ++ later.rowsFrom depth)

/-- The entries of a tree as they come up. -/
def rows (t : Tree) : List Row := t.rowsFrom 0

end Tree

end Neaten
