import Neaten.Text.Utf8

/-! # Requests and responses

    A request names a method and a target, which has a path and may have a
    query.  A response has a status, header fields and a body. -/

namespace Neaten.Server

/-- The target of a request. -/
structure Target where
  path : Text
  query : Text
deriving DecidableEq

/-- What comes after the first occurrence of a piece, if there is one. -/
def after? (piece : Text) : Text → Option Text
  | [] => if piece.isEmpty then some [] else none
  | c :: rest =>
    if piece.isPrefixOf (c :: rest) then some ((c :: rest).drop piece.length)
    else after? piece rest

/-- The path and the query of what stands before a fragment. -/
def Target.ofParts (t : Text) : Target :=
  let t := t.takeWhile (· ≠ '#')
  ⟨t.takeWhile (· ≠ '?'), (t.dropWhile (· ≠ '?')).drop 1⟩

/-- Reads a target: a path, `*`, an address with a scheme and a host, or a host
    alone, which has no path. -/
def Target.ofText (t : Text) : Target :=
  if t.head? = some '/' ∨ t = ['*'] then .ofParts t
  else
    match after? "://" t with
    | none => ⟨[], []⟩
    | some rest =>
      let parts := Target.ofParts (rest.dropWhile fun c => c ≠ '/' ∧ c ≠ '?' ∧ c ≠ '#')
      if parts.path = [] then { parts with path := ['/'] } else parts

/-- What a client asks for. -/
structure Request where
  method : Text
  target : Target
  body : Bytes
deriving DecidableEq

/-- A header field. -/
abbrev Header : Type := Text × Text

/-- What the server answers. -/
structure Response where
  status : Nat
  headers : List Header
  body : Bytes
deriving DecidableEq

namespace Response

/-- The header field that says how long a body is. -/
def lengthHeader (body : Bytes) : Header := ("content-length", Text.decimal body.length)

/-- A response with a text of some type. -/
def ofText (status : Nat) (type text : Text) (headers : List Header) : Response :=
  let body := Utf8.encode text
  { status, body, headers := ("content-type", type) :: lengthHeader body :: headers }

/-- The response without its body, as for `HEAD`. -/
def withoutBody (r : Response) : Response := { r with body := [] }

/-- The response with further header fields. -/
def withHeaders (r : Response) (headers : List Header) : Response :=
  { r with headers := r.headers ++ headers }

end Response

end Neaten.Server
