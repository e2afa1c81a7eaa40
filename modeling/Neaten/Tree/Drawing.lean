import Neaten.Text.Utf8
import Neaten.Tree.Basic

/-! # Drawings of trees

    A tree is drawn with one line for each entry.  The margin of a line has a
    piece for each directory around the entry: a bar as long as that directory
    has entries after it, and blanks below its last one.

    There is one pen for the whole drawing.  Its margin grows by a piece before
    the contents of a directory are drawn, and afterwards as many bytes are cut
    off again as that piece takes up. -/

namespace Neaten.Tree

/-- What joins an entry to its directory: the last entry ends the line down. -/
def connector (isLast : Bool) : Text := if isLast then "└── " else "├── "

/-- What the entries of a directory have in their margin. -/
def marginPiece (isLast : Bool) : Text := if isLast then "    " else "│   "

/-! ## The pen -/

/-- What a tree is drawn with: the margin of the next line, and what has been
    drawn. -/
structure Pen where
  margin : Text := []
  drawn : Text := []

namespace Pen

/-- Draws a line behind the margin. -/
def line (pen : Pen) (text : Text) : Pen :=
  { pen with drawn := pen.drawn ++ (pen.margin ++ text ++ ['\n']) }

/-- Moves the margin in by a piece. -/
def moveIn (pen : Pen) (piece : Text) : Pen := { pen with margin := pen.margin ++ piece }

/-- Moves the margin out by the bytes of a piece, unless that cuts a character
    in two. -/
def moveOut? (pen : Pen) (piece : Text) : Option Pen :=
  (Utf8.cut? pen.margin (Utf8.size pen.margin - Utf8.size piece)).map ({ pen with margin := · })

/-- Moving out takes back moving in, whatever was drawn in between. -/
@[simp] theorem moveOut?_append (margin piece drawn : Text) :
    moveOut? ⟨margin ++ piece, drawn⟩ piece = some ⟨margin, drawn⟩ := by
  simp [moveOut?]

end Pen

/-! ## Drawing -/

/-- Draws a tree with a pen, unless the margin gets lost. -/
def drawWith? : Tree → Pen → Option Pen
  | empty, pen => some pen
  | file name leaf later, pen =>
    later.drawWith? (pen.line (connector (later == empty) ++ name ++ " (" ++ leaf.label ++ ")"))
  | directory name contents later, pen => do
    let isLast := later == empty
    let inside := (pen.line (connector isLast ++ name ++ ['/'])).moveIn (marginPiece isLast)
    let outside ← (← contents.drawWith? inside).moveOut? (marginPiece isLast)
    later.drawWith? outside

/-- The drawing of a tree behind a margin. -/
def drawFrom : (margin : Text) → Tree → Text
  | _, empty => []
  | margin, file name leaf later =>
    margin ++ connector (later == empty) ++ name ++ " (" ++ leaf.label ++ ")\n" ++
      later.drawFrom margin
  | margin, directory name contents later =>
    margin ++ connector (later == empty) ++ name ++ "/\n" ++
      contents.drawFrom (margin ++ marginPiece (later == empty)) ++ later.drawFrom margin

/-- The margin never gets lost: a pen comes back with the one it had, and has
    drawn the tree behind it. -/
theorem drawWith?_eq (t : Tree) (pen : Pen) :
    t.drawWith? pen = some ⟨pen.margin, pen.drawn ++ t.drawFrom pen.margin⟩ := by
  induction t generalizing pen with
  | empty => simp [drawWith?, drawFrom]
  | file name leaf later ih =>
    rw [drawWith?, ih]
    simp [drawFrom, Pen.line]
  | directory name contents later ihc ihl =>
    rw [drawWith?, ihc]
    simp [drawFrom, Pen.line, Pen.moveIn, ihl]

/-- The drawing of a tree. -/
def draw (t : Tree) : Text := ((t.drawWith? {}).get (by simp [drawWith?_eq])).drawn

theorem draw_eq_drawFrom (t : Tree) : t.draw = t.drawFrom [] := by
  simp [draw, drawWith?_eq]

end Neaten.Tree
