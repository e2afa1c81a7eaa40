import Neaten.Archive.Reader
import Neaten.Failure
import Neaten.Readme.Document
import Neaten.SourceFile
import Neaten.Text.Utf8

/-! # Uploads

    An upload is a name and bytes.  A name that ends in `.zip` makes it an
    archive, whose files are taken in one by one and described in a README;
    any other upload is a single file, whatever its bytes. -/

namespace Neaten

/-! ## Names -/

namespace Archive

/-- The end of the name of an archive. -/
def nameEnd : Text := ".zip"

/-- Whether a name is that of an archive, in whatever letter case. -/
def isArchiveName (name : Text) : Bool := nameEnd.isSuffixOf (Text.lower name)

/-- The name of an archive without its end, unless nothing is left.  The end is
    looked for in the last four bytes, so a character must begin there. -/
def title? (name : Text) : Option Text :=
  if Utf8.size name ≤ 4 then none
  else
    match Utf8.cut? name (Utf8.size name - 4) with
    | some stem =>
      if Text.sameLetters (name.drop stem.length) nameEnd then some stem else none
    | none => none

end Archive

/-- The name that a file is offered under once it is laid out. -/
def formattedName (name : Text) : Text := "formatted_" ++ name

/-! ## Taking in -/

/-- The README of an archive's files, under the title that its name gives. -/
def Readme.ofArchive (name : Text) (files : List SourceFile) : Except Failure Text :=
  Readme.generate ((Archive.title? name).getD Readme.defaultTitle) files

/-- The files of an upload. -/
def SourceFile.ofUpload (limit : Nat) (name : Text) (bytes : Bytes) :
    Except Failure (List SourceFile) :=
  if Archive.isArchiveName name then
    match Archive.readFiles bytes with
    | .error e => .error ⟨[.openingArchive name], .archive e⟩
    | .ok files => .ok (files.map fun f => ofContent limit f.path (Utf8.decodeLossy f.data))
  -- A single file loses the directories in its name.
  else .ok [ofContent limit (Text.lastPiece '/' name) (Utf8.decodeLossy bytes)]

/-- An upload that has been processed. -/
structure Upload where
  name : Text
  files : List SourceFile
  /-- The README, for an archive. -/
  readme : Option Text
deriving DecidableEq

namespace Upload

/-- Whether an upload is an archive. -/
def isArchive (u : Upload) : Bool := Archive.isArchiveName u.name

/-- The README of an upload, if it is an archive. -/
def describe (name : Text) (files : List SourceFile) : Except Failure (Option Text) :=
  if Archive.isArchiveName name then
    some <$> Failure.within .describingUpload (Readme.ofArchive name files)
  else .ok none

/-- Processes an upload. -/
def process (limit : Nat) (name : Text) (bytes : Bytes) : Except Failure Upload := do
  let files ← SourceFile.ofUpload limit name bytes
  let readme ← describe name files
  return { name, files, readme }

end Upload

end Neaten
