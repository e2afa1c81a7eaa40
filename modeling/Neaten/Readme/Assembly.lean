import Neaten.Readme.Contents
import Neaten.Tree.Address

/-! # A README put together directly

    The same document as the template gives, as a plain concatenation: fixed
    text, and in between the values one after another.  Each of the values is
    told by the title and the files alone. -/

namespace Neaten.Readme

/-! ## The values -/

/-- The labels of some files, in the order in which they first come up. -/
def labelsOf (files : List SourceFile) : List Text := (files.map (·.label)).eraseDups

/-- The names of the directories at the top. -/
def topDirectories (files : List SourceFile) : List Text :=
  ((Tree.ofFiles files).entries.filter (·.2.label? = none)).map (·.1)

/-- What some files are made with: the frameworks, or else the first three
    languages, or else plain text. -/
def madeWith (files : List SourceFile) : Text :=
  let languages := (labelsOf files).filter (· ≠ ("Plain text" : Text))
  if frameworks files ≠ [] then (", " : Text).intercalate (frameworks files)
  else if languages ≠ [] then (", " : Text).intercalate (languages.take 3)
  else "Plain text files"

/-- How some files are arranged. -/
def arrangement (files : List SourceFile) : Text :=
  let tops := topDirectories files
  if tops = [] then "Flat layout; every file lives in the project root."
  else if ∃ top ∈ tops, top = ("src" : Text) then
    "Source code lives under \x60src/\x60, separate from root-level configuration."
  else if tops.length = 1 then "Code is organized into 1 top-level directory."
  else "Code is organized into " ++ Text.decimal tops.length ++ " top-level directories."

/-- What there is to say about TypeScript and JavaScript. -/
def scriptRemark (files : List SourceFile) : Text :=
  if ∃ f ∈ files, f.language = .typeScript ∨ f.language = .tsx then
    "TypeScript is used; run the type checker before committing."
  else if ∃ f ∈ files, f.language = .javaScript ∨ f.language = .jsx then
    "Plain JavaScript is used; consider TypeScript for static type checking."
  else "No JavaScript or TypeScript sources were found."

/-- What there is to say about some files under a title, value by value. -/
def Contents.toldBy (title : Text) (files : List SourceFile) : Contents where
  title := title
  drawing := (Tree.ofFiles files).draw
  fileCount := files.length
  counts := (labelsOf files).map fun label => ⟨label, files.countP (·.label = label)⟩
  frameworks := Readme.frameworks files
  entryPoint := (entryPoint? files).map fun f =>
    ⟨f.path, (Language.extension? f.name).getD [], excerpt f.content⟩
  directories := (topDirectories files).map fun top => ⟨top, describeDirectory top⟩
  configuration := (files.filter isConfiguration).map fun f =>
    ⟨f.path, if f.name = ("package.json" : Text) then "Project dependencies and scripts"
      else "Configuration settings"⟩
  stack := madeWith files
  structureNote := arrangement files
  languageNote := scriptRemark files

/-! ## The document -/

/-- Lines of fixed text, each ended. -/
def fixed (lines : List String) : Text := lines.flatMap fun l => l.toList ++ ['\n']

/-- The line of a count. -/
def LabelCount.line (c : LabelCount) : Text :=
  "  - " ++ c.label ++ ": " ++ Text.decimal c.count ++ "\n"

/-- The line of a directory. -/
def Remark.directoryLine (r : Remark) : Text :=
  "- **" ++ r.subject ++ "/**: " ++ r.remark ++ "\n"

/-- The line of a configuration file. -/
def Remark.configurationLine (r : Remark) : Text :=
  "- \x60" ++ r.subject ++ "\x60: " ++ r.remark ++ "\n"

/-- The section on frameworks, if there are any. -/
def frameworkSection (labels : List Text) : Text :=
  if labels = [] then []
  else
    fixed ["## 🛠️ Frameworks & Technologies", ""] ++
      labels.flatMap (fun label => '-' :: ' ' :: (label ++ ['\n'])) ++ ['\n']

/-- The block of the entry point, or the note that there is none. -/
def entryPointBlock : Option Excerpt → Text
  | some e =>
    "The main entry point appears to be \x60" ++ e.path ++ "\x60:\n\n" ++
      "\x60\x60\x60" ++ e.tag ++ "\n" ++ e.lines ++ "\n\x60\x60\x60\n"
  | none => "No clear entry point detected.\n"

/-- Some lines, or a note if there are none. -/
def linesOr (note : Text) (lines : List Text) : Text :=
  if lines = [] then note ++ ['\n'] else lines.flatten

/-- What stands between the frameworks and the entry point. -/
def gettingStarted : Text :=
  fixed ["## 🚀 Getting Started", "", "### Prerequisites", "",
    "- Install the runtime and package manager used by this project.", "",
    "### Installation", "", "1. Clone the repository", "2. Install the dependencies",
    "3. Start the application from its main entry point", "", "## 📝 Main Entry Point", ""]

/-- What stands at the end. -/
def closing : Text :=
  fixed ["", "## 🤝 Contributing", "", "1. Fork the repository",
    "2. Create a feature branch (\x60git checkout -b feature/my-change\x60)",
    "3. Commit your changes (\x60git commit -m \"Describe the change\"\x60)",
    "4. Push the branch (\x60git push origin feature/my-change\x60)",
    "5. Open a pull request", "", "## 📄 License", "",
    "This project is licensed under the MIT License. See the \x60LICENSE\x60 file for details."]

/-- The document that says some contents. -/
def Contents.assemble (c : Contents) : Text :=
  "# " ++ c.title ++ "\n" ++
  fixed ["", "## 📁 Project Structure", "", "\x60\x60\x60"] ++
  c.drawing ++
  fixed ["\x60\x60\x60", "", "## 📊 Project Statistics", ""] ++
  "- **Total Files:** " ++ Text.decimal c.fileCount ++ "\n" ++
  fixed ["- **File Types:**"] ++
  c.counts.flatMap LabelCount.line ++ "\n" ++
  frameworkSection c.frameworks ++
  gettingStarted ++
  entryPointBlock c.entryPoint ++
  fixed ["", "## 📂 Directory Overview", ""] ++
  linesOr "All files are located in the project root."
    (c.directories.map Remark.directoryLine) ++
  fixed ["", "## ⚙️ Configuration Files", ""] ++
  linesOr "No configuration files detected."
    (c.configuration.map Remark.configurationLine) ++
  fixed ["", "## 💻 Development", ""] ++
  "- **Stack:** " ++ c.stack ++ "\n" ++
  "- **Structure:** " ++ c.structureNote ++ "\n" ++
  "- **Language:** " ++ c.languageNote ++ "\n" ++
  closing

end Neaten.Readme
