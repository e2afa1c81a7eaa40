import Neaten.Failure
import Neaten.Template.Parser

/-! # Filling in templates

    A template has a name, by which it is known when it cannot be filled in. -/

namespace Neaten.Template

/-- Fills in the template of some name. -/
def fill (name text : Text) (context : Value) : Except Failure Text :=
  match render text context with
  | .ok result => .ok result
  | .error .noFields => .error ⟨[.collectingVariables name], .badTemplate⟩
  | .error _ => .error ⟨[.rendering name], .badTemplate⟩

theorem fill_eq_ok_iff {name text : Text} {context : Value} {result : Text} :
    fill name text context = .ok result ↔ render text context = .ok result := by
  unfold fill
  split <;> simp_all

end Neaten.Template
