import Neaten.Toml.Bare
import Neaten.Toml.Table

/-! # Reading TOML documents

    A document is a sequence of lines, each of them empty, a header or a field.
    Only arrays and text between three quotes go over several lines.

    Every reader takes something off the front of the characters and returns
    the rest.  Those that nest take a bound on their steps, which a document
    of a given length never reaches. -/

namespace Neaten.Toml

/-! ## Blanks -/

/-- Drops blanks within a line. -/
def skipBlanks (t : Text) : Text := t.dropWhile fun c => c == ' ' || c == '\t'

/-- Drops a comment up to the end of its line, if there is one and its
    characters are admitted. -/
def skipComment? : Text → Option Text
  | '#' :: rest =>
    match rest.dropWhile isLineChar with
    | [] => some []
    | '\n' :: more => some ('\n' :: more)
    | '\r' :: '\n' :: more => some ('\r' :: '\n' :: more)
    | _ => none
  | t => some t

/-- What comes after the end of a line, blanks and a comment before it left
    out.  The last line may end with the document. -/
def endLine? (t : Text) : Option Text := do
  match ← skipComment? (skipBlanks t) with
  | [] => return []
  | '\n' :: rest => return rest
  | '\r' :: '\n' :: rest => return rest
  | _ => none

/-- Drops blanks, comments and ends of lines, in at most so many lines. -/
def skipLines? : (steps : Nat) → Text → Option Text
  | 0, _ => none
  | steps + 1, t =>
    match skipBlanks t with
    | '\n' :: rest => skipLines? steps rest
    | '\r' :: '\n' :: rest => skipLines? steps rest
    | '#' :: rest =>
      match skipComment? ('#' :: rest) with
      | some t => skipLines? steps t
      | none => none
    | t => some t

/-! ## Keys -/

/-- Whether a character may be part of a bare key. -/
def isKeyChar (c : Char) : Bool := c.isAlphanum || c == '_' || c == '-'

/-- A single key. -/
def simpleKey? (t : Text) : Option (Text × Text) :=
  match t with
  | '"' :: _ => Quoted.short? t
  | '\'' :: _ => Quoted.short? t
  | _ =>
    let key := t.takeWhile isKeyChar
    if key = [] then none else some (key, t.dropWhile isKeyChar)

/-- Keys with dots between, and blanks around the dots. -/
def keys? : (steps : Nat) → Text → Option (List Text × Text)
  | 0, _ => none
  | steps + 1, t => do
    let (key, t) ← simpleKey? (skipBlanks t)
    match skipBlanks t with
    | '.' :: rest =>
      let (more, rest) ← keys? steps rest
      return (key :: more, rest)
    | t => return ([key], t)

/-- A dotted key as its path and its last part. -/
def splitLast? (keys : List Text) : Option (List Text × Text) :=
  keys.getLast?.map (keys.dropLast, ·)

/-! ## Values -/

mutual

/-- A value. -/
def value? : (steps : Nat) → Text → Option (Value × Text)
  | 0, _ => none
  | steps + 1, t =>
    match t with
    | '"' :: _ => (Quoted.any? t).map fun (s, rest) => (.text s, rest)
    | '\'' :: _ => (Quoted.any? t).map fun (s, rest) => (.text s, rest)
    | '[' :: rest => (elements? steps [] rest).map fun (vs, rest) => (.array vs, rest)
    | '{' :: rest =>
      match skipBlanks rest with
      | '}' :: rest => some (.table .inline [], rest)
      | _ => (members? steps .braces rest).map fun (t, rest) => (.table .inline t.fields, rest)
    | _ =>
      let (word, rest) := takeWord t
      (bare? word).map (·, rest)

/-- The elements of an array from some place on, given those before it
    backwards, and what follows its bracket. -/
def elements? : (steps : Nat) → List Value → Text → Option (List Value × Text)
  | 0, _, _ => none
  | steps + 1, before, t =>
    match skipLines? (t.length + 1) t with
    | none => none
    | some (']' :: rest) => some (before.reverse, rest)
    | some t =>
      match value? steps t with
      | none => none
      | some (v, t) =>
        match skipLines? (t.length + 1) t with
        | some (',' :: rest) => elements? steps (v :: before) rest
        | some (']' :: rest) => some ((v :: before).reverse, rest)
        | _ => none

/-- The fields of a table between braces from some place on, added to those
    before it, and what follows its brace. -/
def members? : (steps : Nat) → Table → Text → Option (Table × Text)
  | 0, _, _ => none
  | steps + 1, table, t =>
    match keys? (t.length + 1) t with
    | some (keys, '=' :: rest) =>
      match splitLast? keys, value? steps (skipBlanks rest) with
      | some (path, key), some (v, rest) =>
        match table.addDotted path key v, skipBlanks rest with
        | some table, ',' :: rest => members? steps table rest
        | some table, '}' :: rest => some (table, rest)
        | _, _ => none
      | _, _ => none
    | _ => none

end

/-- More steps than any value in some characters takes. -/
def enoughSteps (t : Text) : Nat := 2 * t.length + 2

/-! ## Documents -/

/-- What a document says up to some line: the whole table, and where the fields
    of the next lines go. -/
structure Progress where
  document : Table
  current : List Text

/-- The keys of a header up to its closing bracket, and what follows. -/
def headerKeys? (t : Text) : Option (List Text × Text) :=
  match keys? (t.length + 1) t with
  | some (keys, ']' :: rest) => some (keys, rest)
  | _ => none

/-- Reads a line that is not empty. -/
def line? (p : Progress) (t : Text) : Option (Progress × Text) :=
  match t with
  | '[' :: '[' :: rest => do
    match ← headerKeys? rest with
    | (keys, ']' :: rest) =>
      let (path, key) ← splitLast? keys
      let document ← p.document.startAnother path key
      return (⟨document, keys⟩, rest)
    | _ => none
  | '[' :: rest => do
    let (keys, rest) ← headerKeys? rest
    let (path, key) ← splitLast? keys
    let document ← p.document.startTable path key
    return (⟨document, keys⟩, rest)
  | t => do
    match ← keys? (t.length + 1) t with
    | (keys, '=' :: rest) =>
      let (path, key) ← splitLast? keys
      let rest := skipBlanks rest
      let (v, rest) ← value? (enoughSteps rest) rest
      let document ← p.document.within false p.current (Table.addDotted path key v)
      return ({ p with document }, rest)
    | _ => none

/-- Reads lines to the end, at most so many. -/
def lines? : (steps : Nat) → Progress → Text → Option Progress
  | 0, _, _ => none
  | steps + 1, p, t =>
    match skipLines? (t.length + 1) t with
    | none => none
    | some [] => some p
    | some t =>
      match line? p t with
      | none => none
      | some (p, t) =>
        match endLine? t with
        | none => none
        | some t => lines? steps p t

/-- Drops the byte order mark at the start of a text. -/
def dropMark : Text → Text
  | '\uFEFF' :: rest => rest
  | t => t

/-- The fields of a document, or nothing if it is not well formed. -/
def parse? (t : Text) : Option Fields :=
  let t := dropMark t
  (lines? (t.length + 1) ⟨.document, []⟩ t).map (·.document.fields)

end Neaten.Toml
