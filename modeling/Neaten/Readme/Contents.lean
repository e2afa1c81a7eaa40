import Neaten.Readme.EntryPoint
import Neaten.Readme.Frameworks
import Neaten.Readme.Statistics
import Neaten.Tree.Drawing

/-! # What a README says

    Everything in a README that depends on the files: the drawing of their
    tree, counts, frameworks, the entry point, and a line for each directory
    at the top and for each configuration file. -/

namespace Neaten.Readme

/-! ## Directories and configuration files -/

/-- Something to say about a name or path. -/
structure Remark where
  subject : Text
  remark : Text
deriving DecidableEq

/-- What directories of a given name, in lower case, tend to hold. -/
def directoryRemarks : List (Text × Text) :=
  [("src", "Source code"), ("lib", "Library code"),
   ("test", "Test files"), ("tests", "Test files"), ("__tests__", "Test files"),
   ("docs", "Documentation"),
   ("public", "Static assets"), ("static", "Static assets"), ("assets", "Static assets"),
   ("components", "Reusable UI components"), ("config", "Configuration files"),
   ("scripts", "Utility scripts"), ("api", "API handlers"), ("utils", "Utility functions")]

/-- What a directory seems to hold, by its name. -/
def describeDirectory (name : Text) : Text :=
  (directoryRemarks.lookup (Text.lower name)).getD "Project files"

/-- Whether a file looks like configuration, by its name. -/
def isConfiguration (f : SourceFile) : Bool :=
  Text.occursIn "config" f.name || Text.occursIn ".rc" f.name ||
    (".json" : Text).isSuffixOf f.name

/-- What a configuration file is for. -/
def describeConfiguration (f : SourceFile) : Text :=
  if f.name = manifestName then "Project dependencies and scripts" else "Configuration settings"

/-- The configuration files, in order. -/
def configurationFiles (files : List SourceFile) : List Remark :=
  (files.filter isConfiguration).map fun f => ⟨f.path, describeConfiguration f⟩

/-! ## Development lines -/

/-- Some items with a comma between. -/
def commaList (items : List Text) : Text := (", " : Text).intercalate items

/-- The frameworks, or else up to three languages, or else plain text. -/
def stackSummary (frameworks : List Text) (counts : List LabelCount) : Text :=
  if frameworks ≠ [] then commaList frameworks
  else
    let languages := (labels counts).filter (· ≠ Language.plainText.label)
    if languages = [] then "Plain text files" else commaList (languages.take 3)

/-- How the files are spread over directories. -/
def structureNote (directories : List Text) : Text :=
  if directories = [] then "Flat layout; every file lives in the project root."
  else if directories.contains "src" then
    "Source code lives under `src/`, separate from root-level configuration."
  else
    "Code is organized into " ++ Text.decimal directories.length ++ " top-level director" ++
      (if directories.length = 1 then "y" else "ies" : Text) ++ "."

/-- What there is to say about the languages. -/
def languageNote (files : List SourceFile) : Text :=
  if files.any (·.language.isTypeScript) then
    "TypeScript is used; run the type checker before committing."
  else if files.any fun f => f.language = .javaScript ∨ f.language = .jsx then
    "Plain JavaScript is used; consider TypeScript for static type checking."
  else "No JavaScript or TypeScript sources were found."

/-! ## All of it -/

/-- The entry point as it is shown. -/
structure Excerpt where
  path : Text
  /-- The extension of the file, which marks the block of code. -/
  tag : Text
  lines : Text
deriving DecidableEq

/-- The excerpt of a file. -/
def Excerpt.ofFile (f : SourceFile) : Excerpt :=
  ⟨f.path, (Language.extension? f.name).getD [], excerpt f.content⟩

/-- What a README says. -/
structure Contents where
  title : Text
  drawing : Text
  fileCount : Nat
  counts : List LabelCount
  frameworks : List Text
  entryPoint : Option Excerpt
  directories : List Remark
  configuration : List Remark
  stack : Text
  structureNote : Text
  languageNote : Text

/-- What the README of some files says under a title. -/
def Contents.ofFiles (title : Text) (files : List SourceFile) : Contents :=
  let tree := Tree.ofFiles files
  let counts := statistics files
  let used := Readme.frameworks files
  { title, counts
    drawing := tree.draw
    fileCount := files.length
    frameworks := used
    entryPoint := (entryPoint? files).map .ofFile
    directories := tree.directoryNames.map fun name => ⟨name, describeDirectory name⟩
    configuration := configurationFiles files
    stack := stackSummary used counts
    structureNote := Readme.structureNote tree.directoryNames
    languageNote := Readme.languageNote files }

end Neaten.Readme
