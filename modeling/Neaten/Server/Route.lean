import Neaten.Json
import Neaten.Server.Page
import Neaten.Server.Query
import Neaten.Server.State

/-! # Routes

    The paths that the server knows and what it answers there.  One of them
    takes uploads; the others only show what is remembered.  A failed upload is
    answered with a fixed message, whatever the reason. -/

namespace Neaten.Server

/-! ## Paths -/

/-- What a path stands for. -/
inductive Route where
  | page
  | upload
  | result
  | readme
  /-- The laid out file with an index, as it is written in the path. -/
  | formatted (index : Text)
deriving DecidableEq

/-- What comes before the index in a path. -/
def formattedPath : Text := "/download/formatted/"

/-- The route of a path. -/
def Route.ofPath? (path : Text) : Option Route :=
  if path = "/" then some page
  else if path = "/api/process" then some upload
  else if path = "/api/result" then some result
  else if path = "/download/readme" then some readme
  else if formattedPath.isPrefixOf path then
    let index := path.drop formattedPath.length
    -- The index is one component, whatever it says.
    if index = [] ∨ '/' ∈ index then none else some (formatted index)
  else none

/-- The methods that a route allows. -/
def Route.allow : Route → Text
  | upload => "POST"
  | _ => "GET,HEAD"

/-! ## Parts of answers -/

/-- The type of JSON. -/
def jsonType : Text := "application/json"

/-- The type of plain text. -/
def plainType : Text := "text/plain; charset=utf-8"

/-- A response with JSON. -/
def jsonResponse (status : Nat) (body : Json) : Response := .ofText status jsonType body.print []

/-- A response with nothing but an error message. -/
def errorResponse (status : Nat) (message : Text) : Response :=
  jsonResponse status (.object [("error", .text message)])

/-- A response to a request that makes no sense. -/
def badRequest (message : Text) : Response := .ofText 400 plainType message []

/-- What is said of every upload that fails. -/
def failedMessage : Text := "Error processing file"

/-- A file as JSON. -/
def fileJson (f : SourceFile) : Json :=
  let formatted := f.formatted.map fun t => (("formatted" : Text), Json.text t)
  .object <| ("name", .text f.name) :: ("path", .text f.path) :: ("content", .text f.content) ::
    formatted.toList

/-- An upload as JSON, with its token and whether it is the one remembered. -/
def summary (token : UInt64) (current : Bool) (u : Upload) : Json :=
  .object [("token", .number token.toNat), ("current", .bool current),
    ("upload_name", .text u.name), ("is_archive", .bool u.isArchive),
    ("files", .array (u.files.map fileJson)), ("readme", Json.optionalText u.readme)]

/-! ## Downloads -/

/-- Whether a character may stand between quotes in a header field. -/
def isSafe (c : Char) : Bool := 0x20 ≤ c.toNat && c.toNat ≤ 0x7E && c != '"' && c != '\\'

/-- A file name with `_` for every character that is not safe. -/
def safeName (name : Text) : Text := name.map fun c => if isSafe c then c else '_'

/-- The header field that makes a response a file of some name. -/
def disposition (name : Text) : Text := "attachment; filename=\"" ++ safeName name ++ "\""

/-- A response that is a file of some name. -/
def attachment (name type text : Text) : Response :=
  .ofText 200 type text [("content-disposition", disposition name)]

/-! ## Answers -/

/-- What is remembered, as JSON. -/
def showResult (s : State) : Response :=
  match s.stored with
  | none => errorResponse 404 "Nothing has been processed yet"
  | some ⟨token, .processed u⟩ => jsonResponse 200 (summary token true u)
  | some ⟨_, .failed _ message⟩ => errorResponse 422 message

/-- The README of the upload that is remembered. -/
def showReadme (s : State) : Response :=
  match s.upload?.bind (·.readme) with
  | some text => attachment "README.md" "text/markdown; charset=utf-8" text
  | none => errorResponse 404 "No README available"

/-- The laid out file with an index. -/
def showFormatted (s : State) (segment : Text) : Response :=
  match index segment with
  | .error fault => badRequest fault.message
  | .ok n =>
    match s.upload?.bind (·.files[n]?) with
    | some f => attachment (formattedName f.name) plainType f.shownText
    | none => errorResponse 404 "No formatted file at that index"

/-- What a route shows.  The one that takes uploads shows nothing. -/
def Route.shown (s : State) : Route → Option Response
  | page => some (.ofText 200 "text/html; charset=utf-8" Server.page [])
  | upload => none
  | result => some (showResult s)
  | readme => some (showReadme s)
  | formatted segment => some (showFormatted s segment)

/-- Processes an upload under a limit of levels, and remembers what became of
    it. -/
def takeUpload (limit : Nat) (name : Text) (bytes : Bytes) (s : State) : Response × State :=
  let (token, s) := s.issue
  match Upload.process limit name bytes with
  | .ok u =>
    let (current, s) := s.publish token (.processed u)
    (jsonResponse 200 (summary token current u), s)
  | .error _ =>
    let (_, s) := s.publish token (.failed name failedMessage)
    (errorResponse 422 failedMessage, s)

/-- Takes the upload that a query names.  A query that names none, or more than
    one, takes no token. -/
def upload (limit : Nat) (query : Text) (bytes : Bytes) (s : State) : Response × State :=
  match queryField "name" query with
  | .error fault => (badRequest fault.message, s)
  | .ok name => takeUpload limit name bytes s

end Neaten.Server
