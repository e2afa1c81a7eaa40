import Neaten.Upload

/-! # The state of the server

    The server remembers the outcome of one upload.  Every upload takes a token
    when it arrives, the next of 1, 2, 3 and so on, and when it is done its
    outcome replaces the one that is stored, unless that has a greater token.
    So however uploads overlap, the newest one that is done counts. -/

namespace Neaten.Server

/-- What became of an upload. -/
inductive Outcome where
  | processed (upload : Upload)
  | failed (name message : Text)
deriving DecidableEq

/-- An outcome and the token of its upload. -/
structure Published where
  token : UInt64
  outcome : Outcome
deriving DecidableEq

/-- What the server remembers. -/
structure State where
  /-- The last token that was given away. -/
  issued : UInt64 := 0
  stored : Option Published := none
deriving DecidableEq

namespace State

/-- The next token. -/
def issue (s : State) : UInt64 × State := (s.issued + 1, { s with issued := s.issued + 1 })

/-- Whether an outcome with a token is stored. -/
def accepts (s : State) (token : UInt64) : Bool := s.stored.all (·.token ≤ token)

/-- Stores an outcome, unless a newer one is stored.  Says which. -/
def publish (s : State) (token : UInt64) (outcome : Outcome) : Bool × State :=
  if s.accepts token then (true, { s with stored := some ⟨token, outcome⟩ }) else (false, s)

/-- The upload whose outcome is stored, if it was processed. -/
def upload? (s : State) : Option Upload :=
  match s.stored with
  | some ⟨_, .processed u⟩ => some u
  | _ => none

@[simp] theorem issued_publish (s : State) (token : UInt64) (outcome : Outcome) :
    (s.publish token outcome).2.issued = s.issued := by
  unfold publish
  split <;> rfl

@[simp] theorem stored_issue (s : State) : s.issue.2.stored = s.stored := rfl

end State

end Neaten.Server
