import Neaten.SourceFile

/-! # The entry point

    The file a reader starts from is found by its name, and shown by its first
    lines. -/

namespace Neaten.Readme

/-- The names of entry points, the best first. -/
def entryPointNames : List Text :=
  ["index.ts", "index.js", "main.py", "app.py", "server.js", "app.js", "index.html"]

/-- The file with the best name, letter case not counting. -/
def entryPoint? (files : List SourceFile) : Option SourceFile :=
  entryPointNames.findSome? fun name => files.find? (Text.lower ·.name = name)

/-- How many lines of a file are shown. -/
def excerptLines : Nat := 10

/-- The first lines of a text, and three dots below them if there are more. -/
def excerpt (content : Text) : Text :=
  let lines := Text.split '\n' content
  ['\n'].intercalate (lines.take excerptLines) ++
    (if lines.length > excerptLines then "\n..." else "" : Text)

end Neaten.Readme
