import Neaten.Command.Basic

/-! # Serving

    Before the server listens, it settles what it goes by and finds a port: the
    first that is free, from the one asked for upwards.  What happens to
    requests is the matter of the server itself. -/

namespace Neaten.Command

/-- What is asked of a server, in place of what the configuration says. -/
structure ServeRequest where
  host : Option Net.Address := none
  port : Option UInt16 := none
  /-- Whether pages of other origins are kept out. -/
  sameOrigin : Bool := false
deriving DecidableEq

/-- What a server goes by. -/
structure ServerSettings where
  host : Net.Address
  port : UInt16
  crossOrigin : Bool
  indentLimit : Nat
deriving DecidableEq

/-- What a server goes by, given a request and a configuration. -/
def ServeRequest.settle (request : ServeRequest) (config : Config) : ServerSettings where
  host := request.host.getD config.host
  port := request.port.getD config.port
  crossOrigin := config.crossOrigin && !request.sameOrigin
  indentLimit := config.indentLimit

/-! ## Finding a port -/

/-- How many ports are tried. -/
def portAttempts : Nat := 10

/-- Asks for ports from `start` upwards until one is free, at most so many
    times and not beyond the last port.  Says which one is free, if any, and
    which ones were asked for. -/
def findPort (free : UInt16 → Bool) : (attempts : Nat) → (start : UInt16) →
    Option UInt16 × List UInt16
  | 0, _ => (none, [])
  | attempts + 1, start =>
    if free start then (some start, [start])
    -- No port comes after the last one.
    else if start = 65535 then (none, [start])
    else
      let (found, asked) := findPort free attempts (start + 1)
      (found, start :: asked)

@[simp] theorem findPort_zero (free : UInt16 → Bool) (start : UInt16) :
    findPort free 0 start = (none, []) := rfl

theorem findPort_of_free {free : UInt16 → Bool} {start : UInt16} (h : free start = true)
    (attempts : Nat) : findPort free (attempts + 1) start = (some start, [start]) := by
  simp [findPort, h]

theorem findPort_last {free : UInt16 → Bool} (h : free 65535 = false) (attempts : Nat) :
    findPort free (attempts + 1) 65535 = (none, [65535]) := by
  simp [findPort, h]

theorem findPort_next {free : UInt16 → Bool} {start : UInt16} (h : free start = false)
    (hlast : start ≠ 65535) (attempts : Nat) :
    findPort free (attempts + 1) start =
      ((findPort free attempts (start + 1)).1,
        start :: (findPort free attempts (start + 1)).2) := by
  simp [findPort, h, hlast]

/-- The port that a server listens on. -/
def bind (free : UInt16 → Bool) (attempts : Nat) (host : Net.Address) (start : UInt16) :
    Except Failure UInt16 :=
  match (findPort free attempts start).1 with
  | some port => .ok port
  | none => .error ⟨[], .noPort host start attempts⟩

/-! ## What is said -/

/-- The line around the announcement. -/
def rule : Text := List.replicate 65 '='

/-- The address to open in a browser. -/
def pageAddress (host : Net.Address) (port : Text) : Text :=
  if host.isLoopback || host.isUnspecified then "localhost:" ++ port
  else host.printWithPort port

/-- What is said once the server listens on a port. -/
def announcement (s : ServerSettings) (port : Text) : Text :=
  "\n" ++ rule ++
    "\n🌐 Upload page:       http://" ++ pageAddress s.host port ++
    "\n⚙️  Binding to address: " ++ s.host.printWithPort port ++
    "\n🔒 CORS enabled:      " ++ (if s.crossOrigin then "true" else "false" : Text) ++
    "\n📏 Max indent level:  " ++ Text.decimal s.indentLimit ++
    "\n" ++ rule ++ "\n\nServer starting! Press Ctrl+C to stop.\n"

/-- What a server goes by at a place, and the port it listens on. -/
def ServeRequest.prepare (request : ServeRequest) (place : Place) (fs : FileSystem)
    (free : Net.Address → UInt16 → Bool) : Except Failure (ServerSettings × UInt16) := do
  let config ← settings place fs
  let s := request.settle config
  let port ← bind (free s.host) portAttempts s.host s.port
  return (s, port)

end Neaten.Command
