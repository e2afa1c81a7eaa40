import Neaten.Server.Route

/-! # Answering requests

    A request goes to the route of its path, if its method is allowed there.
    `HEAD` is answered like `GET`, without the body.  `OPTIONS` is answered at
    every path, and nothing is processed.

    Every answer says by which header fields of the request it might vary, and
    if pages of other origins may use the server, it says that as well. -/

namespace Neaten.Server

/-- What the answers of a server depend on besides its state. -/
structure Options where
  /-- The deepest level that a line may ask for. -/
  limit : Nat
  /-- Whether pages of other origins may use the server. -/
  crossOrigin : Bool

/-! ## Header fields -/

/-- The method that asks what is allowed. -/
def optionsMethod : Text := "OPTIONS"

/-- The header fields for pages of other origins. -/
def originHeaders (o : Options) (method : Text) : List Header :=
  if o.crossOrigin then
    ("access-control-allow-origin", ("*" : Text)) ::
      if method = optionsMethod then
        [("access-control-allow-methods", ("*" : Text)), ("access-control-allow-headers", "*")]
      else [("access-control-expose-headers", ("*" : Text))]
  else []

/-- The header field that names what an answer might vary by. -/
def varyHeader : Header :=
  ("vary", "origin, access-control-request-method, access-control-request-headers")

/-- An answer with the header fields that every answer has. -/
def finish (o : Options) (method : Text) (r : Response) : Response :=
  r.withHeaders (varyHeader :: originHeaders o method)

/-! ## Answers that have no body -/

/-- An empty answer where there is no route.  Its length is only given for a
    target that is no path. -/
def withoutRoute (status : Nat) (path : Text) : Response :=
  ⟨status, if path.head? = some '/' then [] else [Response.lengthHeader []], []⟩

/-- An empty answer that says what a route allows. -/
def allowed (status : Nat) (route : Route) : Response :=
  ⟨status, [("allow", route.allow), Response.lengthHeader []], []⟩

/-! ## Dispatch -/

/-- The answer to `OPTIONS`. -/
def describePath (path : Text) : Response :=
  match Route.ofPath? path with
  | some route => allowed 200 route
  | none => withoutRoute 200 path

/-- The answer of a route to a request. -/
def Route.answer (o : Options) (route : Route) (request : Request) (s : State) :
    Response × State :=
  match route.shown s with
  | some r =>
    if request.method = "GET" then (r, s)
    else if request.method = "HEAD" then (r.withoutBody, s)
    else (allowed 405 route, s)
  | none =>
    if request.method = "POST" then Server.upload o.limit request.target.query request.body s
    else (allowed 405 route, s)

/-- The answer to a request, without the header fields that every answer has. -/
def dispatch (o : Options) (request : Request) (s : State) : Response × State :=
  -- Not even the route that takes uploads does anything for OPTIONS.
  if request.method = optionsMethod then (describePath request.target.path, s)
  else
    match Route.ofPath? request.target.path with
    | some route => route.answer o request s
    | none => (withoutRoute 404 request.target.path, s)

/-- Answers a request. -/
def respond (o : Options) (request : Request) (s : State) : Response × State :=
  let (r, s) := dispatch o request s
  (finish o request.method r, s)

/-- Answers some requests one after another. -/
def respondAll (o : Options) : List Request → State → List Response × State
  | [], s => ([], s)
  | request :: rest, s =>
    let (r, s) := respond o request s
    let (rs, s) := respondAll o rest s
    (r :: rs, s)

end Neaten.Server
