import Neaten.Tree.Basic

/-! # What an insertion does to every path

    Putting a file in at a path changes what stands at the comparable paths,
    those on the way to it and those below it, and nothing else:

    * at the path itself stands the file;
    * on the way to it stand directories, whatever stood there before;
    * below it stands nothing any more.

    The main statement, `standing_insert`, says this of all paths at once. -/

namespace Neaten

/-! ## Comparable paths -/

/-- Two paths are comparable if one of them leads to the other or beyond. -/
def Comparable (p q : List Text) : Prop := p <+: q ∨ q <+: p

instance (p q : List Text) : Decidable (Comparable p q) :=
  inferInstanceAs (Decidable (_ ∨ _))

theorem comparable_cons_cons (a b : Text) (p q : List Text) :
    Comparable (a :: p) (b :: q) ↔ a = b ∧ Comparable p q := by
  unfold Comparable
  rw [List.cons_prefix_cons, List.cons_prefix_cons]
  constructor
  · rintro (⟨hab, hpq⟩ | ⟨hba, hqp⟩)
    · exact ⟨hab, Or.inl hpq⟩
    · exact ⟨hba.symm, Or.inr hqp⟩
  · rintro ⟨hab, hpq | hqp⟩
    · exact Or.inl ⟨hab, hpq⟩
    · exact Or.inr ⟨hab.symm, hqp⟩

@[simp] theorem comparable_nil_left (p : List Text) : Comparable [] p :=
  Or.inl (List.nil_prefix)

@[simp] theorem comparable_nil_right (p : List Text) : Comparable p [] :=
  Or.inr (List.nil_prefix)

/-- Paths that start alike and are not comparable both go on, and part further
    down. -/
theorem parts_of_not_comparable {first other : Text} {rest more : List Text}
    (h : ¬ Comparable (first :: rest) (other :: more)) (he : first = other) :
    ∃ head tail, rest = head :: tail ∧ ∃ next deeper, more = next :: deeper ∧
      ¬ Comparable (head :: tail) (next :: deeper) := by
  have hn : ¬ Comparable rest more := fun hc => h ((comparable_cons_cons _ _ _ _).mpr ⟨he, hc⟩)
  cases rest with
  | nil => exact absurd (comparable_nil_left more) hn
  | cons head tail =>
    cases more with
    | nil => exact absurd (comparable_nil_right _) hn
    | cons next deeper => exact ⟨head, tail, rfl, next, deeper, rfl, hn⟩

/-- A prefix that is not the whole path leaves at least one name. -/
theorem exists_append_of_prefix_of_ne {p q : List Text} (h : p <+: q) (hne : p ≠ q) :
    ∃ next more, q = p ++ next :: more := by
  obtain ⟨extra, rfl⟩ := h
  cases extra with
  | nil => exact absurd (List.append_nil p).symm hne
  | cons next more => exact ⟨next, more, rfl⟩

/-! ## Standing -/

/-- The leaf of a file; nothing for a directory. -/
def Node.leaf? : Node → Option Leaf
  | file leaf => some leaf
  | directory _ => none

namespace Tree

/-- What stands at a path, leaving out what directories hold: a leaf for a
    file, nothing inside for a directory. -/
def standing (t : Tree) (p : List Text) : Option (Option Leaf) := (t.lookup? p).map Node.leaf?

theorem standing_eq_file_iff {t : Tree} {p : List Text} {leaf : Leaf} :
    t.standing p = some (some leaf) ↔ t.lookup? p = some (.file leaf) := by
  unfold standing
  cases h : t.lookup? p with
  | none => simp
  | some node => cases node <;> simp [Node.leaf?]

theorem standing_eq_directory_iff {t : Tree} {p : List Text} :
    t.standing p = some none ↔ ∃ contents, t.lookup? p = some (.directory contents) := by
  unfold standing
  cases h : t.lookup? p with
  | none => simp
  | some node => cases node <;> simp [Node.leaf?]

theorem standing_eq_none_iff {t : Tree} {p : List Text} :
    t.standing p = none ↔ t.lookup? p = none := by
  unfold standing
  exact Option.map_eq_none_iff

/-- What the directory at a path holds; nothing where no directory stands. -/
def within (t : Tree) (p : List Text) : Tree :=
  match t.lookup? p with
  | some (.directory contents) => contents
  | _ => empty

@[simp] theorem within_nil (t : Tree) : t.within [] = t := rfl

theorem within_of_lookup? {t contents : Tree} {p : List Text}
    (h : t.lookup? p = some (.directory contents)) : t.within p = contents := by
  rw [within, h]

/-! ## Branches -/

theorem find?_branch_below (first : Text) (rest : List Text) (next : Text) (more : List Text)
    (leaf : Leaf) : (branch first rest leaf).find? first (rest ++ next :: more) = none := by
  induction rest generalizing first with
  | nil => simp [branch, find?]
  | cons head tail ih => simp [branch, find?, ih]

theorem find?_branch_above (first : Text) (rest : List Text) (next : Text) (more : List Text)
    (leaf : Leaf) :
    (branch first (rest ++ next :: more) leaf).find? first rest =
      some (.directory (branch next more leaf)) := by
  induction rest generalizing first with
  | nil => simp [branch, find?]
  | cons head tail ih => simp [branch, find?, ih]

theorem find?_branch_of_not_comparable (first : Text) (rest : List Text) (other : Text)
    (more : List Text) (leaf : Leaf) (h : ¬ Comparable (first :: rest) (other :: more)) :
    (branch first rest leaf).find? other more = none := by
  induction rest generalizing first other more with
  | nil =>
    have hne : first ≠ other := by
      intro he
      exact h ((comparable_cons_cons _ _ _ _).mpr ⟨he, comparable_nil_left more⟩)
    simp [branch, find?, hne]
  | cons head tail ih =>
    by_cases he : first = other
    · obtain ⟨_, _, hr, next, deeper, rfl, hn⟩ := parts_of_not_comparable h he
      obtain ⟨rfl, rfl⟩ := List.cons.inj hr
      simp [branch, find?, he, ih _ _ _ hn]
    · simp [branch, find?, he]

/-! ## One insertion -/

/-- Below the place of a new file stands nothing. -/
theorem find?_insertAt_below (t : Tree) (first : Text) (rest : List Text) (next : Text)
    (more : List Text) (leaf : Leaf) :
    (t.insertAt first rest leaf).find? first (rest ++ next :: more) = none := by
  induction t generalizing first rest with
  | empty => exact find?_branch_below first rest next more leaf
  | file name old later ih =>
    by_cases h : name = first
    · subst h
      cases rest with
      | nil => simp [insertAt, find?]
      | cons head tail => simp [insertAt, find?, find?_branch_below]
    · simp [insertAt, find?, h, ih]
  | directory name contents later ihc ihl =>
    by_cases h : name = first
    · subst h
      cases rest with
      | nil => simp [insertAt, find?]
      | cons head tail => simp [insertAt, find?, ihc]
    · simp [insertAt, find?, h, ihl]

/-- On the way to a new file stand directories, and the file is put into what
    they hold. -/
theorem find?_insertAt_above (t : Tree) (first : Text) (rest : List Text) (next : Text)
    (more : List Text) (leaf : Leaf) :
    (t.insertAt first (rest ++ next :: more) leaf).find? first rest =
      some (.directory ((t.within (first :: rest)).insertAt next more leaf)) := by
  unfold within lookup?
  induction t generalizing first rest with
  | empty => exact find?_branch_above first rest next more leaf
  | file name old later ih =>
    by_cases h : name = first
    · subst h
      cases rest with
      | nil => simp [insertAt, find?]
      | cons head tail => simp [insertAt, find?, find?_branch_above]
    · simp [insertAt, find?, h, ih]
  | directory name contents later ihc ihl =>
    by_cases h : name = first
    · subst h
      cases rest with
      | nil => simp [insertAt, find?]
      | cons head tail => simpa [insertAt, find?] using ihc head tail
    · simp [insertAt, find?, h, ihl]

/-- A new file changes nothing at a path that is not comparable with its own. -/
theorem find?_insertAt_of_not_comparable (t : Tree) (first : Text) (rest : List Text)
    (other : Text) (more : List Text) (leaf : Leaf)
    (h : ¬ Comparable (first :: rest) (other :: more)) :
    (t.insertAt first rest leaf).find? other more = t.find? other more := by
  induction t generalizing first rest other more with
  | empty => exact find?_branch_of_not_comparable first rest other more leaf h
  | file name old later ih =>
    by_cases hf : name = first
    · subst hf
      by_cases ho : name = other
      · -- Under the same name the two paths part further down, so neither ends here.
        obtain ⟨head, tail, rfl, next, deeper, rfl, hn⟩ := parts_of_not_comparable h ho
        simp [insertAt, find?, ho, find?_branch_of_not_comparable _ _ _ _ _ hn]
      · cases rest <;> simp [insertAt, find?, ho]
    · simp [insertAt, find?, hf, ih _ _ _ _ h]
  | directory name contents later ihc ihl =>
    by_cases hf : name = first
    · subst hf
      by_cases ho : name = other
      · obtain ⟨head, tail, rfl, next, deeper, rfl, hn⟩ := parts_of_not_comparable h ho
        simp [insertAt, find?, ho, ihc _ _ _ _ hn]
      · cases rest <;> simp [insertAt, find?, ho]
    · simp [insertAt, find?, hf, ihl _ _ _ _ h]

/-! ## All paths at once -/

/-- What a file put in at the path `place` leaves at a comparable path: the
    file there, a directory on the way, nothing below. -/
def leftBy (leaf : Leaf) (place p : List Text) : Option (Option Leaf) :=
  if place = p then some (some leaf) else if p <+: place then some none else none

/-- An insertion decides what stands at the paths comparable with its own and
    leaves alone what stands at the others. -/
theorem standing_insert (t : Tree) {place p : List Text} (leaf : Leaf) (hplace : place ≠ [])
    (hp : p ≠ []) :
    (t.insert place leaf).standing p =
      if Comparable place p then leftBy leaf place p else t.standing p := by
  obtain ⟨first, rest, rfl⟩ := List.exists_cons_of_ne_nil hplace
  obtain ⟨other, more, rfl⟩ := List.exists_cons_of_ne_nil hp
  unfold standing leftBy
  simp only [insert, lookup?]
  by_cases he : first :: rest = other :: more
  · -- At the place itself.
    have hc : Comparable (first :: rest) (other :: more) := Or.inl (he ▸ List.prefix_rfl)
    obtain ⟨rfl, rfl⟩ := List.cons.inj he
    rw [if_pos hc, if_pos rfl, find?_insertAt_self]
    rfl
  · rw [if_neg he]
    by_cases habove : other :: more <+: first :: rest
    · -- On the way to the place.
      have hc : Comparable (first :: rest) (other :: more) := Or.inr habove
      rw [if_pos hc, if_pos habove]
      obtain ⟨next, extra, h⟩ := exists_append_of_prefix_of_ne habove (Ne.symm he)
      rw [List.cons_append] at h
      obtain ⟨rfl, rfl⟩ := List.cons.inj h
      rw [find?_insertAt_above]
      rfl
    · rw [if_neg habove]
      by_cases hbelow : first :: rest <+: other :: more
      · -- Below the place.
        have hc : Comparable (first :: rest) (other :: more) := Or.inl hbelow
        rw [if_pos hc]
        obtain ⟨next, extra, h⟩ := exists_append_of_prefix_of_ne hbelow he
        rw [List.cons_append] at h
        obtain ⟨rfl, rfl⟩ := List.cons.inj h
        rw [find?_insertAt_below]
        rfl
      · -- Elsewhere.
        have hn : ¬ Comparable (first :: rest) (other :: more) := by
          rintro (hc | hc)
          · exact hbelow hc
          · exact habove hc
        rw [if_neg hn, find?_insertAt_of_not_comparable t _ _ _ _ leaf hn]

end Tree

end Neaten
