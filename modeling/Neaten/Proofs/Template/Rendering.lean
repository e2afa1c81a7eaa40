import Neaten.Template.Basic

/-! # What the parts of a template contribute

    Each part puts its own text before that of the parts after it: fixed text
    as it is, a value as it is written, one side of a choice, and the bodies of
    a repetition one after another.  No part looks at what another has put
    there. -/

namespace Neaten.Template

variable {scope : Scope} {next : Template} {rest : Text}

theorem renderIn_text (t : Text) (h : next.renderIn scope = .ok rest) :
    (text t next).renderIn scope = .ok (t ++ rest) := by
  rw [renderIn, h]
  rfl

theorem renderIn_last (t : Text) : (text t done).renderIn scope = .ok t := by
  have hdone : done.renderIn scope = .ok [] := by rw [renderIn]
  rw [renderIn_text t hdone, List.append_nil]

/-- A text is put there as it is. -/
theorem renderIn_print_text {e : Expression} {t : Text} (hv : e.value scope = .ok (.text t))
    (h : next.renderIn scope = .ok rest) : (print e next).renderIn scope = .ok (t ++ rest) := by
  rw [renderIn, hv, h, ← Value.print_text t]
  rfl

/-- A number is put there in decimal. -/
theorem renderIn_print_number {e : Expression} {n : Nat} (hv : e.value scope = .ok (.number n))
    (h : next.renderIn scope = .ok rest) :
    (print e next).renderIn scope = .ok (Text.decimal n ++ rest) := by
  rw [renderIn, hv, h, ← Value.print_number n]
  rfl

/-- A choice contributes the side that its condition decides on. -/
theorem renderIn_branch {c : Condition} {holds : Bool} {yes no : Template} {t : Text}
    (hc : c.decide scope = .ok holds)
    (ht : (if holds then yes else no).renderIn scope = .ok t)
    (h : next.renderIn scope = .ok rest) :
    (branch c yes no next).renderIn scope = .ok (t ++ rest) := by
  rw [renderIn, hc, h]
  cases holds with
  | true =>
    rw [if_pos rfl] at ht
    simp [ht, bind, Except.bind, pure, Except.pure]
  | false =>
    rw [if_neg Bool.false_ne_true] at ht
    simp [ht, bind, Except.bind, pure, Except.pure]

/-- Bodies that can all be rendered are rendered in order. -/
theorem mapM_renderIn {α : Type} (x : Text) (body : Template) (toValue : α → Value)
    (item : α → Text) (items : List α)
    (h : ∀ a ∈ items, body.renderIn ((x, toValue a) :: scope) = .ok (item a)) :
    (items.map toValue).mapM (fun v => body.renderIn ((x, v) :: scope)) =
      .ok (items.map item) := by
  induction items with
  | nil => rfl
  | cons a more ih =>
    rw [List.map_cons, List.mapM_cons, h a List.mem_cons_self,
      ih fun b hb => h b (List.mem_cons_of_mem _ hb)]
    rfl

/-- A repetition contributes one body for each item, in order. -/
theorem renderIn_each {α : Type} {x : Text} {e : Expression} {body : Template}
    (toValue : α → Value) {item : α → Text} {items : List α}
    (he : e.value scope = .ok (.list (items.map toValue)))
    (hbody : ∀ a ∈ items, body.renderIn ((x, toValue a) :: scope) = .ok (item a))
    (h : next.renderIn scope = .ok rest) :
    (each x e body next).renderIn scope = .ok (items.flatMap item ++ rest) := by
  rw [renderIn, he]
  show (do
    let ts ← (items.map toValue).mapM fun v => body.renderIn ((x, v) :: scope)
    return ts.flatten ++ (← next.renderIn scope)) = _
  rw [mapM_renderIn x body toValue item items hbody, h, List.flatMap_def]
  rfl

end Neaten.Template
