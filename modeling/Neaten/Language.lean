import Neaten.Text.Case
import Neaten.Layout

/-! # Languages

    A file is classified by the text after the last dot of its name.  A
    language carries a label, shown in statistics and file trees, and a style
    of layout.  The two are independent: Go and Rust have a label of their own
    and the plain style, C and C++ headers are laid out like C and labelled as
    plain text. -/

namespace Neaten

/-- The kinds of file that are told apart. -/
inductive Language where
  | javaScript | jsx | typeScript | tsx
  | css | scss | html | json | markdown
  | python | java | cpp | c | cHeader | cppHeader
  | go | rust | php | ruby
  | plainText
deriving DecidableEq, Repr

namespace Language

/-- The languages with an extension, each with the one that stands for it. -/
def extensions : List (Text × Language) :=
  [("js", javaScript), ("jsx", jsx), ("ts", typeScript), ("tsx", tsx),
   ("css", css), ("scss", scss), ("html", html), ("json", json), ("md", markdown),
   ("py", python), ("java", java), ("cpp", cpp), ("c", c), ("h", cHeader),
   ("hpp", cppHeader), ("go", go), ("rs", rust), ("php", php), ("rb", ruby)]

/-- The language of an extension in lower case. -/
def ofExtension (ext : Text) : Language := (extensions.lookup ext).getD plainText

/-- The text after the last dot of a file name. -/
def extension? (name : Text) : Option Text := (Text.cutLast '.' name).map (·.2)

/-- The language of a file name.  Letter case in the extension does not count. -/
def ofFileName (name : Text) : Language :=
  match extension? name with
  | some ext => ofExtension (Text.lower ext)
  | none => plainText

/-- The name shown for a language.  Headers have none of their own. -/
def label : Language → Text
  | javaScript => "JavaScript"
  | jsx => "React JSX"
  | typeScript => "TypeScript"
  | tsx => "React TSX"
  | css => "CSS"
  | scss => "SCSS"
  | html => "HTML"
  | json => "JSON"
  | markdown => "Markdown"
  | python => "Python"
  | java => "Java"
  | cpp => "C++"
  | c => "C"
  | go => "Go"
  | rust => "Rust"
  | php => "PHP"
  | ruby => "Ruby"
  | cHeader | cppHeader | plainText => "Plain text"

/-- How files of a language are laid out. -/
def style : Language → Style
  | javaScript | jsx | typeScript | tsx => .braceDepth "  "
  | java | c | cpp | cHeader | cppHeader => .braceDepth "    "
  | python => .colonCount "    "
  | _ => .flat

/-- The two languages that a README calls TypeScript. -/
def isTypeScript : Language → Bool
  | typeScript | tsx => true
  | _ => false

end Language

end Neaten
