import Neaten.Language

/-! # Source files

    A file as it was taken in: its name, its path, its text, and the text as
    laid out.  The name of a file that is taken in is the last part of its
    path, and the style of its layout follows from its name. -/

namespace Neaten

/-- A file and its layout. -/
structure SourceFile where
  name : Text
  path : Text
  content : Text
  /-- The content laid out, once that has been done. -/
  formatted : Option Text
deriving DecidableEq

namespace SourceFile

/-- Takes in a file at a path, laying out its content under a limit. -/
def ofContent (limit : Nat) (path content : Text) : SourceFile :=
  let name := Text.lastPiece '/' path
  { name, path, content
    formatted := some (Layout.format (Language.ofFileName name).style limit content).text }

/-- The language of a file, by its name. -/
def language (f : SourceFile) : Language := Language.ofFileName f.name

/-- The label of a file. -/
def label (f : SourceFile) : Text := f.language.label

/-- The text to show: the layout, or the content where there is none. -/
def shownText (f : SourceFile) : Text := f.formatted.getD f.content

/-- The parts of a path that count, from the outermost. -/
def segments (f : SourceFile) : List Text := (Text.split '/' f.path).filter (· ≠ [])

/-- A file that is taken in is laid out in the style of its language. -/
@[simp] theorem formatted_ofContent (limit : Nat) (path content : Text) :
    (ofContent limit path content).formatted =
      some (Layout.format (ofContent limit path content).language.style limit content).text := rfl

end SourceFile

end Neaten
