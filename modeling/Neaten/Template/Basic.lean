import Neaten.Template.Value

/-! # Templates

    A template is text with places for values, choices and repetitions.  Each
    part is followed by the parts after it.

    Rendering writes a value as it is, so nothing in a value is ever read as
    part of the template.  It fails on a variable that does not exist, except
    that in a condition such a variable is false. -/

namespace Neaten

namespace Template

/-! ## Expressions -/

/-- Why a template could not be read or rendered. -/
inductive Fault where
  /-- A place or tag has no end. -/
  | unclosed
  | badExpression
  | unknownTag
  /-- A block ends that was not begun, or is not ended. -/
  | unbalanced
  | missing (path : List Text)
  | unknownFilter (name : Text)
  /-- A value is of a kind that does not fit. -/
  | wrongKind
  /-- The variables are not given as the fields of an object. -/
  | noFields
deriving DecidableEq

/-- A variable and fields within it, and the filters that its value passes. -/
structure Expression where
  name : Text
  fields : List Text
  filters : List Text
deriving DecidableEq

/-- What is asked of an expression: to be true, or to be above a number. -/
inductive Condition where
  | holds (e : Expression)
  | above (e : Expression) (n : Nat)
deriving DecidableEq

/-- The variables in scope, the innermost first. -/
abbrev Scope : Type := List (Text × Value)

/-- The value of a variable and fields within it. -/
def Expression.find? (e : Expression) (scope : Scope) : Option Value :=
  e.fields.foldl (fun v name => v.bind (Value.field? name)) (scope.lookup e.name)

/-- What a filter makes of a value. -/
def applyFilter (name : Text) (v : Value) : Except Fault Value :=
  if name = "length" then
    match v.length? with
    | some n => .ok (.number n)
    | none => .error .wrongKind
  else .error (.unknownFilter name)

/-- The value of an expression. -/
def Expression.value (e : Expression) (scope : Scope) : Except Fault Value :=
  match e.find? scope with
  | none => .error (.missing (e.name :: e.fields))
  | some v => e.filters.foldlM (fun v name => applyFilter name v) v

/-- Whether a condition holds. -/
def Condition.decide (scope : Scope) : Condition → Except Fault Bool
  | holds e =>
    if e.filters = [] then .ok ((e.find? scope).any Value.isTrue)
    else do
      let v ← e.value scope
      return v.isTrue
  | above e n => do
    match ← e.value scope with
    | .number m => return n < m
    | _ => throw .wrongKind

end Template

/-! ## Parts -/

/-- A template: its first part and the rest. -/
inductive Template where
  | done
  | text (t : Text) (next : Template)
  | print (e : Template.Expression) (next : Template)
  | branch (c : Template.Condition) (yes no next : Template)
  | each (name : Text) (e : Template.Expression) (body next : Template)
deriving DecidableEq

namespace Template

/-- What a template makes of the variables in scope. -/
def renderIn : Template → Scope → Except Fault Text
  | done, _ => .ok []
  | text t next, scope => do return t ++ (← next.renderIn scope)
  | print e next, scope => do
    let v ← e.value scope
    return v.print ++ (← next.renderIn scope)
  | branch c yes no next, scope => do
    let t ← if ← c.decide scope then yes.renderIn scope else no.renderIn scope
    return t ++ (← next.renderIn scope)
  | each x e body next, scope => do
    match ← e.value scope with
    | .list values =>
      let ts ← values.mapM fun v => body.renderIn ((x, v) :: scope)
      return ts.flatten ++ (← next.renderIn scope)
    | _ => throw .wrongKind

end Template

end Neaten
