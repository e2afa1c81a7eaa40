import Neaten.Readme.Contents
import Neaten.Template.Fill

/-! # README documents

    A README is a template filled in with what there is to say about some
    files.  Every value is written as it is, whatever the files contain. -/

namespace Neaten.Readme

/-- The title where no better one is known. -/
def defaultTitle : Text := "Project Documentation"

/-- The name of the template, which is also the usual name of the file. -/
def templateName : Text := "README.md"

/-- The lines of the template, the last of them empty. -/
def templateLines : List String :=
  ["# \x7b\x7b title \x7d\x7d",
   "",
   "## 📁 Project Structure",
   "",
   "```",
   "\x7b\x7b tree \x7d\x7d```",
   "",
   "## 📊 Project Statistics",
   "",
   "- **Total Files:** \x7b\x7b total_files \x7d\x7d",
   "- **File Types:**",
   "\x7b% for stat in stats %\x7d  - \x7b\x7b stat.label \x7d\x7d: \x7b\x7b stat.count \x7d\x7d",
   "\x7b% endfor %\x7d",
   "\x7b% if frameworks | length > 0 %\x7d## 🛠️ Frameworks & Technologies",
   "",
   "\x7b% for framework in frameworks %\x7d- \x7b\x7b framework \x7d\x7d",
   "\x7b% endfor %\x7d",
   "\x7b% endif %\x7d## 🚀 Getting Started",
   "",
   "### Prerequisites",
   "",
   "- Install the runtime and package manager used by this project.",
   "",
   "### Installation",
   "",
   "1. Clone the repository",
   "2. Install the dependencies",
   "3. Start the application from its main entry point",
   "",
   "## 📝 Main Entry Point",
   "",
   "\x7b% if main_file %\x7dThe main entry point appears to be `\x7b\x7b main_file.path \x7d\x7d`:",
   "",
   "```\x7b\x7b main_file.language \x7d\x7d",
   "\x7b\x7b main_file.excerpt \x7d\x7d",
   "```",
   "\x7b% else %\x7dNo clear entry point detected.",
   "\x7b% endif %\x7d",
   "## 📂 Directory Overview",
   "",
   "\x7b% if directories | length > 0 %\x7d\x7b% for dir in directories %\x7d- **\x7b\x7b dir.name \x7d\x7d/**: \x7b\x7b dir.description \x7d\x7d",
   "\x7b% endfor %\x7d\x7b% else %\x7dAll files are located in the project root.",
   "\x7b% endif %\x7d",
   "## ⚙️ Configuration Files",
   "",
   "\x7b% if config_files | length > 0 %\x7d\x7b% for file in config_files %\x7d- `\x7b\x7b file.path \x7d\x7d`: \x7b\x7b file.note \x7d\x7d",
   "\x7b% endfor %\x7d\x7b% else %\x7dNo configuration files detected.",
   "\x7b% endif %\x7d",
   "## 💻 Development",
   "",
   "- **Stack:** \x7b\x7b stack_summary \x7d\x7d",
   "- **Structure:** \x7b\x7b structure_note \x7d\x7d",
   "- **Language:** \x7b\x7b language_note \x7d\x7d",
   "",
   "## 🤝 Contributing",
   "",
   "1. Fork the repository",
   "2. Create a feature branch (`git checkout -b feature/my-change`)",
   "3. Commit your changes (`git commit -m \"Describe the change\"`)",
   "4. Push the branch (`git push origin feature/my-change`)",
   "5. Open a pull request",
   "",
   "## 📄 License",
   "",
   "This project is licensed under the MIT License. See the `LICENSE` file for details.",
   ""]

/-- The template of a README. -/
def templateText : Text := ['\n'].intercalate (templateLines.map String.toList)

/-! ## Values -/

open Template (Value)

/-- A count as a value. -/
def LabelCount.toValue (entry : LabelCount) : Value :=
  .object [("label", .text entry.label), ("count", .number entry.count)]

/-- A remark as a value whose fields have the given names. -/
def Remark.toValue (subject remark : Text) (r : Remark) : Value :=
  .object [(subject, .text r.subject), (remark, .text r.remark)]

/-- An excerpt as a value. -/
def Excerpt.toValue (e : Excerpt) : Value :=
  .object [("path", .text e.path), ("language", .text e.tag), ("excerpt", .text e.lines)]

/-- The variables of the template. -/
def Contents.scope (c : Contents) : Template.Scope :=
  [("title", .text c.title),
   ("tree", .text c.drawing),
   ("total_files", .number c.fileCount),
   ("stats", .list (c.counts.map LabelCount.toValue)),
   ("frameworks", .list (c.frameworks.map .text)),
   ("main_file", (c.entryPoint.map Excerpt.toValue).getD .null),
   ("directories", .list (c.directories.map (Remark.toValue "name" "description"))),
   ("config_files", .list (c.configuration.map (Remark.toValue "path" "note"))),
   ("stack_summary", .text c.stack),
   ("structure_note", .text c.structureNote),
   ("language_note", .text c.languageNote)]

/-- The README that says some contents. -/
def Contents.render (c : Contents) : Except Failure Text :=
  Template.fill templateName templateText (.object c.scope)

/-- The README of some files under a title. -/
def generate (title : Text) (files : List SourceFile) : Except Failure Text :=
  (Contents.ofFiles title files).render

end Neaten.Readme
