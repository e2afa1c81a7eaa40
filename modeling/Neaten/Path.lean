import Neaten.Text.Basic

/-! # Paths

    A path is a text in which `/` separates components.  Empty components and,
    except at the very start, `.` components count for nothing, so several
    texts may have the same components.  Nothing here looks at a file system. -/

namespace Neaten.Path

/-! ## Components -/

/-- What a component of a path says. -/
inductive Component where
  /-- The path is absolute. -/
  | root
  /-- The path starts with `.`. -/
  | current
  /-- The component `..`. -/
  | parent
  | normal (name : Text)
deriving DecidableEq

/-- Whether a piece between separators counts for nothing. -/
def isTrivial (piece : Text) : Bool := piece.isEmpty || piece == "."

/-- The component of a piece that counts. -/
def Component.ofPiece (piece : Text) : Component :=
  if piece = ".." then .parent else .normal piece

/-- The start of a path that stands apart from its pieces, and the rest: the
    root or a leading `.`. -/
def cutLead : Text → Option Component × Text
  | '/' :: rest => (some .root, rest)
  | ['.'] => (some .current, [])
  | '.' :: '/' :: rest => (some .current, '/' :: rest)
  | path => (none, path)

/-- The components of a path, from left to right. -/
def components (path : Text) : List Component :=
  let (lead, rest) := cutLead path
  lead.toList ++ ((Text.split '/' rest).filter (!isTrivial ·)).map .ofPiece

/-- Whether a path is absolute. -/
def isAbsolute (path : Text) : Bool := path.head? == some '/'

/-- The last component, if it is a name. -/
def fileName? (path : Text) : Option Text :=
  match (components path).getLast? with
  | some (.normal name) => some name
  | _ => none

/-! ## Above and below -/

/-- Drops the pieces at the end that count for nothing. -/
def dropTrivialEnd (pieces : List Text) : List Text :=
  (pieces.reverse.dropWhile isTrivial).reverse

/-- The path without its last component, and without what counts for nothing
    before that.  The root and the empty path have none. -/
def parent? (path : Text) : Option Text :=
  let (lead, rest) := cutLead path
  match dropTrivialEnd (Text.split '/' rest), lead with
  -- Above a lone dot is the empty path.
  | [], some .current => some []
  | [], _ => none
  | pieces, _ =>
    some (path.take (path.length - rest.length) ++
      ['/'].intercalate (dropTrivialEnd pieces.dropLast))

/-! ### The path above is shorter -/

theorem intercalate_cons_cons (sep : Char) (p q : Text) (rest : List Text) :
    [sep].intercalate (p :: q :: rest) = p ++ sep :: [sep].intercalate (q :: rest) := by
  simp [List.intercalate, List.intersperse]

/-- Leaving out pieces at the end makes the text no longer. -/
theorem length_intercalate_le_append (sep : Char) (front back : List Text) :
    ([sep].intercalate front).length ≤ ([sep].intercalate (front ++ back)).length := by
  induction front with
  | nil => simp [List.intercalate]
  | cons p rest ih =>
    cases rest with
    | nil =>
      cases back with
      | nil => simp
      | cons q more =>
        rw [List.cons_append, List.nil_append, intercalate_cons_cons]
        simp [List.intercalate]
    | cons q more =>
      rw [List.cons_append, List.cons_append, intercalate_cons_cons, intercalate_cons_cons]
      simp only [List.length_append, List.length_cons, List.cons_append] at ih ⊢
      omega

/-- Leaving out a last piece that is not empty makes the text shorter. -/
theorem length_intercalate_lt_append (sep : Char) (front : List Text) {last : Text}
    (h : last ≠ []) :
    ([sep].intercalate front).length < ([sep].intercalate (front ++ [last])).length := by
  have hl : 0 < last.length := List.length_pos_iff.mpr h
  induction front with
  | nil => simpa [List.intercalate] using hl
  | cons p rest ih =>
    cases rest with
    | nil =>
      rw [List.cons_append, List.nil_append, intercalate_cons_cons]
      simp [List.intercalate]
    | cons q more =>
      rw [List.cons_append, List.cons_append, intercalate_cons_cons, intercalate_cons_cons]
      simp only [List.length_append, List.length_cons, List.cons_append] at ih ⊢
      omega

/-- What is dropped stands at the end. -/
theorem exists_dropTrivialEnd_append (pieces : List Text) :
    ∃ back, dropTrivialEnd pieces ++ back = pieces := by
  refine ⟨(pieces.reverse.takeWhile isTrivial).reverse, ?_⟩
  rw [dropTrivialEnd, ← List.reverse_append, List.takeWhile_append_dropWhile, List.reverse_reverse]

/-- The last piece that is kept is not empty. -/
theorem getLast_dropTrivialEnd_ne_nil {pieces : List Text} (h : dropTrivialEnd pieces ≠ []) :
    (dropTrivialEnd pieces).getLast h ≠ [] := by
  intro hn
  have hd : pieces.reverse.dropWhile isTrivial ≠ [] := by
    simpa [dropTrivialEnd] using h
  have := List.head_dropWhile_not isTrivial hd
  simp only [dropTrivialEnd, List.getLast_reverse] at hn
  rw [hn] at this
  exact absurd this (by decide)

theorem length_cutLead_le (path : Text) : (cutLead path).2.length ≤ path.length := by
  unfold cutLead
  split <;> simp

/-- The path above is shorter. -/
theorem length_parent?_lt {path above : Text} (h : parent? path = some above) :
    above.length < path.length := by
  unfold parent? at h
  have hle := length_cutLead_le path
  have hcur : (cutLead path).1 = some .current → path ≠ [] := by
    rintro hc rfl
    exact absurd hc (by decide)
  generalize cutLead path = cut at h hle hcur
  obtain ⟨lead, rest⟩ := cut
  dsimp only at h hle hcur
  split at h
  · obtain rfl : [] = above := by simpa using h
    exact List.length_pos_iff.mpr (hcur rfl)
  · cases h
  · next hp _ =>
    have hp : dropTrivialEnd (Text.split '/' rest) ≠ [] := hp
    obtain rfl := Option.some.inj h
    obtain ⟨b₁, h₁⟩ := exists_dropTrivialEnd_append (Text.split '/' rest)
    obtain ⟨b₂, h₂⟩ :=
      exists_dropTrivialEnd_append (dropTrivialEnd (Text.split '/' rest)).dropLast
    have e₁ := length_intercalate_le_append '/' (dropTrivialEnd (Text.split '/' rest)) b₁
    have e₂ := length_intercalate_le_append '/'
      (dropTrivialEnd (dropTrivialEnd (Text.split '/' rest)).dropLast) b₂
    have e₃ := length_intercalate_lt_append '/' (dropTrivialEnd (Text.split '/' rest)).dropLast
      (getLast_dropTrivialEnd_ne_nil hp)
    rw [h₁, Text.intercalate_split] at e₁
    rw [h₂] at e₂
    rw [List.dropLast_concat_getLast] at e₃
    simp only [List.length_append, List.length_take]
    omega

/-- A path and those above it, the nearest first. -/
def upward (path : Text) : List Text :=
  path :: match _h : parent? path with
    | none => []
    | some above => upward above
termination_by path.length
decreasing_by exact length_parent?_lt _h

theorem upward_of_parent?_eq_none {path : Text} (h : parent? path = none) :
    upward path = [path] := by
  rw [upward]
  split
  · rfl
  · next habove => rw [h] at habove; cases habove

theorem upward_of_parent? {path above : Text} (h : parent? path = some above) :
    upward path = path :: upward above := by
  rw [upward]
  split
  · next hnone => rw [h] at hnone; cases hnone
  · next habove =>
    obtain rfl := Option.some.inj (h.symm.trans habove)
    rfl

/-! ## Going down -/

/-- A path below another.  An absolute one stands for itself; otherwise a
    separator comes between, unless it is there already. -/
def join (base path : Text) : Text :=
  if isAbsolute path then path
  else if base = [] ∨ base.getLast? = some '/' then base ++ path
  else base ++ '/' :: path

end Neaten.Path
