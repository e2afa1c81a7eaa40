import Neaten.Text.Blank

/-! # Layout

    Lays out a text line by line.  Each line is trimmed, blank lines are
    dropped, and what is left is indented by a level that depends on that line
    alone, so nothing is carried from one line to the next.

    If some line asks for a deeper level than the limit allows, the text is
    passed through as it is, together with the first such line. -/

namespace Neaten

/-! ## Styles -/

/-- What decides the level of a line, and the unit it is indented by. -/
inductive Style where
  /-- Opening braces less closing braces. -/
  | braceDepth (indent : Text)
  /-- The number of colons. -/
  | colonCount (indent : Text)
  /-- No indentation. -/
  | flat
deriving DecidableEq

/-- How many more braces a line opens than it closes. -/
def braceBalance (line : Text) : Int := line.count '{' - line.count '}'

/-- The number of colons of a line. -/
def colonCount (line : Text) : Nat := line.count ':'

namespace Style

/-- The level that a line asks for.  A line that closes more than it opens asks
    for none. -/
def level : Style → Text → Nat
  | braceDepth _, line => (braceBalance line).toNat
  | colonCount _, line => Neaten.colonCount line
  | flat, _ => 0

/-- What one level is written as. -/
def unit : Style → Text
  | braceDepth indent => indent
  | colonCount indent => indent
  | flat => []

/-- A line behind the indentation it asks for. -/
def indented (s : Style) (line : Text) : Text :=
  (List.replicate (s.level line) s.unit).flatten ++ line

/-- Nothing asks for no level. -/
@[simp] theorem level_nil (s : Style) : s.level [] = 0 := by cases s <;> rfl

end Style

/-! ## Laying out lines -/

namespace Layout

/-- A line asked for a level beyond the limit. -/
structure TooDeep where
  /-- The number of the line, from one, blank lines counted. -/
  line : Nat
  level : Nat
  limit : Nat
deriving DecidableEq

/-- The reason in words. -/
def TooDeep.message (e : TooDeep) : Text :=
  "line " ++ Text.decimal e.line ++ " requests indent level " ++ Text.decimal e.level ++
    " (limit " ++ Text.decimal e.limit ++ ")"

/-- What laying out a text gives. -/
inductive Outcome where
  | formatted (text : Text)
  /-- The text as it came, and why. -/
  | passedThrough (text : Text) (reason : TooDeep)
deriving DecidableEq

/-- The text to show, whichever way it came about. -/
def Outcome.text : Outcome → Text
  | formatted t => t
  | passedThrough t _ => t

@[simp] theorem Outcome.text_formatted (t : Text) : (formatted t).text = t := rfl

/-- The lines of the result, or the first line that is too deep.  The first of
    the given lines has the number `n`. -/
def reindent (s : Style) (limit : Nat) : Nat → List Text → Except TooDeep (List Text)
  | _, [] => .ok []
  | n, raw :: rest =>
    let line := Text.trim raw
    -- A blank line leaves no trace but counts for the numbers.
    if line = [] then reindent s limit (n + 1) rest
    else if s.level line > limit then .error ⟨n, s.level line, limit⟩
    else (s.indented line :: ·) <$> reindent s limit (n + 1) rest

/-- Lays out a text in a style. -/
def format (s : Style) (limit : Nat) (text : Text) : Outcome :=
  match reindent s limit 1 (Text.split '\n' text) with
  | .ok lines => .formatted (['\n'].intercalate lines)
  | .error reason => .passedThrough text reason

/-- The limit of a line's level where none is chosen. -/
def defaultLimit : Nat := 64

end Layout

end Neaten
