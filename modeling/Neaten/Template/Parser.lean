import Neaten.Template.Basic

/-! # Reading templates

    A template is written as text with tags: two braces around an expression
    stand for its value; a brace and a percent sign enclose the beginning,
    middle or end of a block; a brace and a hash sign enclose a remark.  All
    else stands for itself.

    The text is cut into pieces, each piece is read on its own, and the pieces
    are put together from the last to the first, so that the end of a block
    opens it and its beginning closes it. -/

namespace Neaten.Template

/-! ## Pieces -/

/-- A stretch of a template. -/
inductive Piece where
  | text (t : Text)
  /-- What stands between the braces of a value. -/
  | value (inner : Text)
  /-- What stands between the marks of a tag. -/
  | tag (inner : Text)
deriving DecidableEq

/-- Where in a template a character stands. -/
inductive Zone where
  | outside
  | inValue
  | inTag
  | inRemark
deriving DecidableEq

/-- A stretch of text, unless it is empty. -/
def Piece.ofText (reversed : Text) : List Piece :=
  if reversed = [] then [] else [text reversed.reverse]

/-- The pieces of the rest of a template, given what has been read of the
    current one, backwards. -/
def piecesFrom : Zone → (read : Text) → Text → Except Fault (List Piece)
  | .outside, read, [] => .ok (Piece.ofText read)
  | .outside, read, '{' :: '{' :: rest => do
    return Piece.ofText read ++ (← piecesFrom .inValue [] rest)
  | .outside, read, '{' :: '%' :: rest => do
    return Piece.ofText read ++ (← piecesFrom .inTag [] rest)
  | .outside, read, '{' :: '#' :: rest => do
    return Piece.ofText read ++ (← piecesFrom .inRemark [] rest)
  | .outside, read, c :: rest => piecesFrom .outside (c :: read) rest
  | .inValue, read, '}' :: '}' :: rest => do
    return .value read.reverse :: (← piecesFrom .outside [] rest)
  | .inTag, read, '%' :: '}' :: rest => do
    return .tag read.reverse :: (← piecesFrom .outside [] rest)
  | .inRemark, _, '#' :: '}' :: rest => piecesFrom .outside [] rest
  | _, _, [] => .error .unclosed
  | zone, read, c :: rest => piecesFrom zone (c :: read) rest

/-- The pieces of a template. -/
def pieces (t : Text) : Except Fault (List Piece) := piecesFrom .outside [] t

/-! ## Expressions -/

/-- A word or mark within a tag. -/
inductive Token where
  | word (w : Text)
  | bar
  | greater
deriving DecidableEq

/-- Whether a character is part of a word. -/
def isWordChar (c : Char) : Bool := c.isAlphanum || c == '_' || c == '.'

/-- Whether a character stands between words. -/
def isSpace (c : Char) : Bool := c == ' ' || c == '\t' || c == '\n' || c == '\r'

/-- A word, unless it is empty. -/
def Token.ofWord (reversed : Text) : List Token :=
  if reversed = [] then [] else [word reversed.reverse]

/-- The tokens of the rest of a tag, given the word being read, backwards. -/
def tokensFrom : (read : Text) → Text → Except Fault (List Token)
  | read, [] => .ok (Token.ofWord read)
  | read, c :: rest =>
    if isWordChar c then tokensFrom (c :: read) rest
    else if isSpace c then do return Token.ofWord read ++ (← tokensFrom [] rest)
    else if c = '|' then do return Token.ofWord read ++ .bar :: (← tokensFrom [] rest)
    else if c = '>' then do return Token.ofWord read ++ .greater :: (← tokensFrom [] rest)
    else .error .badExpression

/-- The tokens of a tag. -/
def tokens (inner : Text) : Except Fault (List Token) := tokensFrom [] inner

/-- Whether a word is a name: not empty, and not starting with a digit. -/
def isName : Text → Bool
  | [] => false
  | c :: _ => !c.isDigit

/-- The filters at the front of some tokens, and the tokens after them. -/
def filtersOf : List Token → List Text × List Token
  | .bar :: .word name :: rest =>
    let (filters, rest) := filtersOf rest
    (name :: filters, rest)
  | rest => ([], rest)

/-- The expression at the front of some tokens, and the tokens after it. -/
def expressionOf : List Token → Except Fault (Expression × List Token)
  | .word w :: rest =>
    match Text.split '.' w with
    | name :: fields =>
      if isName name ∧ fields.all isName then
        let (filters, rest) := filtersOf rest
        .ok (⟨name, fields, filters⟩, rest)
      else .error .badExpression
    | [] => .error .badExpression
  | _ => .error .badExpression

/-- The number that a word of digits is. -/
def numberOf? (w : Text) : Option Nat :=
  if w ≠ [] ∧ w.all Char.isDigit then some (w.foldl (fun n c => 10 * n + (c.toNat - 48)) 0)
  else none

/-- The expression that some tokens are. -/
def wholeExpression (ts : List Token) : Except Fault Expression := do
  match ← expressionOf ts with
  | (e, []) => return e
  | _ => throw .badExpression

/-- The condition that some tokens are. -/
def wholeCondition (ts : List Token) : Except Fault Condition := do
  match ← expressionOf ts with
  | (e, []) => return .holds e
  | (e, [.greater, .word w]) =>
    match numberOf? w with
    | some n => return .above e n
    | none => throw .badExpression
  | _ => throw .badExpression

/-! ## Statements -/

/-- What a piece says. -/
inductive Statement where
  | text (t : Text)
  | print (e : Expression)
  | ifStart (c : Condition)
  | otherwise
  | ifEnd
  | eachStart (name : Text) (e : Expression)
  | eachEnd
deriving DecidableEq

/-- What a tag says, by its first word. -/
def Statement.ofTag : List Token → Except Fault Statement
  | .word w :: rest =>
    if w = "if" then ifStart <$> wholeCondition rest
    else if w = "else" ∧ rest = [] then .ok otherwise
    else if w = "endif" ∧ rest = [] then .ok ifEnd
    else if w = "endfor" ∧ rest = [] then .ok eachEnd
    else if w = "for" then
      match rest with
      | .word x :: .word i :: rest =>
        if i = "in" ∧ isName x ∧ !x.elem '.' then eachStart x <$> wholeExpression rest
        else .error .badExpression
      | _ => .error .badExpression
    else .error .unknownTag
  | _ => .error .unknownTag

/-- What a piece says. -/
def Statement.ofPiece : Piece → Except Fault Statement
  | .text t => .ok (text t)
  | .value inner => do print <$> wholeExpression (← tokens inner)
  | .tag inner => do ofTag (← tokens inner)

/-! ## Blocks -/

/-- A block whose end has been met and whose beginning has not: what comes
    after it, and in a choice the part for the condition being false. -/
inductive Open where
  | choice (after : Template) (no : Option Template)
  | each (after : Template)
deriving DecidableEq

/-- Puts a statement before a template that stands within some open blocks. -/
def Statement.before : Statement → Template → List Open →
    Except Fault (Template × List Open)
  | text t, next, opened => .ok (.text t next, opened)
  | print e, next, opened => .ok (.print e next, opened)
  -- Read backwards, an end opens its block and a start closes it.
  | ifEnd, next, opened => .ok (.done, .choice next none :: opened)
  | otherwise, no, .choice after none :: opened => .ok (.done, .choice after (some no) :: opened)
  | ifStart c, yes, .choice after none :: opened => .ok (.branch c yes .done after, opened)
  | ifStart c, yes, .choice after (some no) :: opened => .ok (.branch c yes no after, opened)
  | eachEnd, next, opened => .ok (.done, .each next :: opened)
  | eachStart x e, body, .each after :: opened => .ok (.each x e body after, opened)
  | _, _, _ => .error .unbalanced

/-- Puts statements together, from the last to the first. -/
def assemble : List Statement → Except Fault (Template × List Open)
  | [] => .ok (.done, [])
  | s :: rest => do
    let (next, opened) ← assemble rest
    s.before next opened

/-- Reads a template. -/
def parse (t : Text) : Except Fault Template := do
  let statements ← (← pieces t).mapM Statement.ofPiece
  match ← assemble statements with
  | (template, []) => return template
  | _ => throw .unbalanced

/-- Reads a template and renders it with the fields of an object as variables. -/
def render (t : Text) (context : Value) : Except Fault Text :=
  match context with
  | .object fields => do (← parse t).renderIn fields
  | _ => .error .noFields

end Neaten.Template
