import Neaten.SourceFile

/-! # Frameworks

    A framework is recognised by a piece of text: either in the manifest, which
    is the first file called package.json, or in lower case anywhere in the
    files. -/

namespace Neaten.Readme

/-- Where a framework shows. -/
inductive Scope where
  /-- In the manifest, letter case counting. -/
  | manifest
  /-- In the text of all files, letter case not counting. -/
  | anywhere
deriving DecidableEq

/-- How a framework is recognised. -/
structure Sign where
  needle : Text
  scope : Scope
  label : Text

/-- The signs, in the order in which frameworks are listed. -/
def signs : List Sign :=
  [⟨"\"react\"", .manifest, "React"⟩,
   ⟨"\"vue\"", .manifest, "Vue.js"⟩,
   ⟨"\"@angular/core\"", .manifest, "Angular"⟩,
   ⟨"django", .anywhere, "Django"⟩,
   ⟨"flask", .anywhere, "Flask"⟩,
   ⟨"express", .anywhere, "Express.js"⟩,
   ⟨"spring-boot", .anywhere, "Spring Boot"⟩]

/-- The name of the manifest. -/
def manifestName : Text := "package.json"

/-- The text of the manifest, if there is one. -/
def manifest? (files : List SourceFile) : Option Text :=
  (files.find? (·.name = manifestName)).map (·.content)

/-- The text of all files in lower case, each on lines of its own. -/
def allContent (files : List SourceFile) : Text :=
  ['\n'].intercalate (files.map fun f => Text.lower f.content)

/-- Whether some files show a sign. -/
def Sign.shows (sign : Sign) (files : List SourceFile) : Bool :=
  match sign.scope with
  | .manifest => (manifest? files).any (Text.occursIn sign.needle)
  | .anywhere => Text.occursIn sign.needle (allContent files)

/-- The frameworks that some files use. -/
def frameworks (files : List SourceFile) : List Text :=
  (signs.filter (·.shows files)).map (·.label)

end Neaten.Readme
