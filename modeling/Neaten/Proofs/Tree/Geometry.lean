import Neaten.Proofs.Tree.Legibility
import Neaten.Tree.Address

/-! # What each line of a drawing shows

    Every line of a drawing belongs to the entry at one address, and the lines
    stand in the order of the addresses.  What a line shows follows from its
    address and the tree: for each directory around the entry a bar or blanks,
    by whether it is the last of its siblings, then a connector by whether the
    entry is, then the entry.

    So nothing that was drawn before has any bearing on a line, although there
    is one margin for all of them: whatever a directory holds, the margin after
    it is that before it. -/

namespace Neaten.Tree

/-! ## Addresses after the first entry and below it

    An address that starts after the first entry is one among the later entries,
    with its first number one higher.  One that starts at the first entry and
    goes on is one among the contents of that entry. -/

section

variable {t later contents : Tree} {e : Text × Node} {name : Text} {a : Address}

theorem entryAt?_shift (h : t.entries = e :: later.entries) (a : Address) :
    t.entryAt? (a.modifyHead (· + 1)) = later.entryAt? a := by
  match a with
  | [] => rfl
  | [i] => simp [entryAt?, h]
  | i :: j :: rest => simp [entryAt?, h]

theorem entryAt?_cons (h : t.entries = (name, .directory contents) :: later.entries)
    (ha : a ≠ []) : t.entryAt? (0 :: a) = contents.entryAt? a := by
  cases a with
  | nil => exact absurd rfl ha
  | cons j rest => simp [entryAt?, h]

/-! ### The next sibling -/

theorem next_shift (a : Address) : next (a.modifyHead (· + 1)) = (next a).modifyHead (· + 1) := by
  match a with
  | [] => rfl
  | [_] => rfl
  | _ :: _ :: _ => rfl

theorem next_cons (ha : a ≠ []) (i : Nat) : next (i :: a) = i :: next a := by
  cases a with
  | nil => exact absurd rfl ha
  | cons j rest => rfl

theorem next_ne_nil (ha : a ≠ []) : next a ≠ [] := by
  match a with
  | [] => exact absurd rfl ha
  | [_] => exact List.cons_ne_nil _ _
  | _ :: _ :: _ => exact List.cons_ne_nil _ _

theorem isLastAt_zero (h : t.entries = e :: later.entries) :
    t.isLastAt [0] = (later == empty) := by
  cases later <;> simp [isLastAt, next, entryAt?, h, entries]

theorem isLastAt_shift (h : t.entries = e :: later.entries) (a : Address) :
    t.isLastAt (a.modifyHead (· + 1)) = later.isLastAt a := by
  rw [isLastAt, next_shift, entryAt?_shift h, isLastAt]

theorem isLastAt_cons (h : t.entries = (name, .directory contents) :: later.entries)
    (ha : a ≠ []) : t.isLastAt (0 :: a) = contents.isLastAt a := by
  rw [isLastAt, next_cons ha, entryAt?_cons h (next_ne_nil ha), isLastAt]

/-! ### The directories around -/

theorem around_cons (ha : a ≠ []) (i : Nat) :
    around (i :: a) = [i] :: (around a).map (i :: ·) := by
  unfold around
  rw [List.dropLast_cons_of_ne_nil ha, List.inits_cons, List.tail_cons]
  cases a.dropLast <;> simp

theorem around_shift (a : Address) :
    around (a.modifyHead (· + 1)) = (around a).map (List.modifyHead (· + 1)) := by
  match a with
  | [] => rfl
  | [_] => rfl
  | i :: j :: rest =>
    rw [List.modifyHead_cons, around_cons (List.cons_ne_nil j rest),
      around_cons (List.cons_ne_nil j rest)]
    simp

/-- The top of the tree is not among the directories around an entry. -/
theorem ne_nil_of_mem_around {b : Address} (hb : b ∈ around a) : b ≠ [] := by
  match a with
  | [] => cases hb
  | [_] => cases hb
  | i :: j :: rest =>
    rw [around_cons (List.cons_ne_nil j rest)] at hb
    rcases List.mem_cons.mp hb with rfl | hb
    · exact List.cons_ne_nil _ _
    · obtain ⟨c, -, rfl⟩ := List.mem_map.mp hb
      exact List.cons_ne_nil _ _

end

/-! ## The lines of a tree

    What a directory holds has one more directory around it than what stands
    beside that directory. -/

/-- The line of an entry that stands in one more directory. -/
def Line.within (isLast : Bool) (l : Line) : Line := { l with around := isLast :: l.around }

theorem linesFrom_cons (t : Tree) (isLast : Bool) (around : List Bool) :
    t.linesFrom (isLast :: around) = (t.linesFrom around).map (Line.within isLast) := by
  induction t generalizing around with
  | empty => rfl
  | file name leaf later ih =>
    rw [linesFrom, linesFrom, ih]
    rfl
  | directory name contents later ihc ihl =>
    rw [linesFrom, linesFrom, List.cons_append, ihc, ihl]
    simp [Line.within]

section

variable {t later contents : Tree} {e : Text × Node} {name : Text}

theorem lineAt?_zero (h : t.entries = e :: later.entries) :
    t.lineAt? [0] = some ⟨[], later == empty, e.1, e.2.label?⟩ := by
  have hentry : t.entryAt? [0] = some e := by simp [entryAt?, h]
  rw [lineAt?, hentry, isLastAt_zero h]
  rfl

theorem lineAt?_shift (h : t.entries = e :: later.entries) (a : Address) :
    t.lineAt? (a.modifyHead (· + 1)) = later.lineAt? a := by
  unfold lineAt?
  rw [entryAt?_shift h, around_shift, isLastAt_shift h, List.map_map]
  simp only [Function.comp_def, isLastAt_shift h]

theorem lineAt?_cons (h : t.entries = (name, .directory contents) :: later.entries)
    {a : Address} (ha : a ≠ []) :
    t.lineAt? (0 :: a) = (contents.lineAt? a).map (Line.within (later == empty)) := by
  have haround : (around a).map (fun b => t.isLastAt (0 :: b)) =
      (around a).map contents.isLastAt :=
    List.map_congr_left fun b hb => isLastAt_cons h (ne_nil_of_mem_around hb)
  unfold lineAt?
  rw [entryAt?_cons h ha, around_cons ha, isLastAt_cons h ha, List.map_cons, List.map_map,
    isLastAt_zero h, Function.comp_def, haround, Option.map_map]
  rfl

end

/-! ## All addresses -/

theorem shift_ne_nil {a : Address} (ha : a ≠ []) : a.modifyHead (· + 1) ≠ [] := by
  simpa using ha

/-- The top of the tree is not among the addresses of its entries. -/
theorem ne_nil_of_mem_addresses {t : Tree} {a : Address} (ha : a ∈ t.addresses) : a ≠ [] := by
  induction t generalizing a with
  | empty => cases ha
  | file name leaf later ih =>
    rcases List.mem_cons.mp ha with rfl | ha
    · exact List.cons_ne_nil _ _
    · obtain ⟨b, hb, rfl⟩ := List.mem_map.mp ha
      exact shift_ne_nil (ih hb)
  | directory name contents later _ ih =>
    rcases List.mem_cons.mp ha with rfl | ha
    · exact List.cons_ne_nil _ _
    · rcases List.mem_append.mp ha with ha | ha
      · obtain ⟨b, -, rfl⟩ := List.mem_map.mp ha
        exact List.cons_ne_nil _ _
      · obtain ⟨b, hb, rfl⟩ := List.mem_map.mp ha
        exact shift_ne_nil (ih hb)

/-- What starts at the first entry is not found among later ones. -/
theorem zero_cons_not_mem_shift (rest : Address) (as : List Address) :
    0 :: rest ∉ as.map (List.modifyHead (· + 1)) := by
  intro h
  obtain ⟨a, -, ha⟩ := List.mem_map.mp h
  cases a <;> simp at ha

theorem succ_cons_mem_shift_iff (i : Nat) (rest : Address) (as : List Address) :
    (i + 1) :: rest ∈ as.map (List.modifyHead (· + 1)) ↔ i :: rest ∈ as := by
  constructor
  · intro h
    obtain ⟨a, ha, heq⟩ := List.mem_map.mp h
    cases a with
    | nil => cases heq
    | cons j more =>
      obtain ⟨hj, rfl⟩ := List.cons.inj heq
      obtain rfl := Nat.succ.inj hj
      exact ha
  · exact fun h => List.mem_map_of_mem h

/-- The addresses are those at which an entry stands. -/
theorem mem_addresses_iff (t : Tree) (a : Address) :
    a ∈ t.addresses ↔ (t.entryAt? a).isSome := by
  induction t generalizing a with
  | empty =>
    match a with
    | [] => simp [addresses, entryAt?]
    | [_] => simp [addresses, entryAt?, entries]
    | _ :: _ :: _ => simp [addresses, entryAt?, entries]
  | file name leaf later ih =>
    have h : (file name leaf later).entries = (name, .file leaf) :: later.entries := rfl
    match a with
    | [] => exact iff_of_false (fun hmem => ne_nil_of_mem_addresses hmem rfl) (by simp [entryAt?])
    | [0] => simp [addresses, entryAt?, entries]
    | 0 :: j :: rest => simp [addresses, entryAt?, entries, zero_cons_not_mem_shift]
    | (i + 1) :: rest =>
      rw [addresses, List.mem_cons, succ_cons_mem_shift_iff, ih, ← entryAt?_shift h]
      simp
  | directory name contents later ihc ihl =>
    have h : (directory name contents later).entries =
        (name, .directory contents) :: later.entries := rfl
    match a with
    | [] => exact iff_of_false (fun hmem => ne_nil_of_mem_addresses hmem rfl) (by simp [entryAt?])
    | [0] => simp [addresses, entryAt?, entries]
    | 0 :: j :: rest =>
      rw [entryAt?_cons h (List.cons_ne_nil j rest), ← ihc]
      simp [addresses, zero_cons_not_mem_shift]
    | (i + 1) :: rest =>
      rw [addresses, List.mem_cons, List.mem_append, succ_cons_mem_shift_iff, ihl,
        ← entryAt?_shift h]
      simp

/-- An entry comes before what is below it and before what comes after it. -/
theorem zero_cons_lt_shift {a : Address} (ha : a ≠ []) (rest : Address) :
    0 :: rest < a.modifyHead (· + 1) := by
  cases a with
  | nil => exact absurd rfl ha
  | cons i more => exact List.cons_lt_cons_iff.mpr (.inl (Nat.succ_pos i))

theorem shift_lt_shift {a b : Address} (h : a < b) :
    a.modifyHead (· + 1) < b.modifyHead (· + 1) := by
  cases b with
  | nil => exact absurd h (List.not_lt_nil a)
  | cons j more =>
    cases a with
    | nil => exact List.nil_lt_cons _ _
    | cons i rest =>
      refine List.cons_lt_cons_iff.mpr ?_
      rcases List.cons_lt_cons_iff.mp h with hlt | ⟨rfl, hlt⟩
      · exact .inl (Nat.succ_lt_succ hlt)
      · exact .inr ⟨rfl, hlt⟩

/-- The addresses come in ascending order. -/
theorem pairwise_addresses (t : Tree) : t.addresses.Pairwise (· < ·) := by
  have hlater : ∀ {as : List Address}, as.Pairwise (· < ·) →
      (as.map (List.modifyHead (· + 1))).Pairwise (· < ·) := fun has =>
    has.map _ fun _ _ => shift_lt_shift
  induction t with
  | empty => exact .nil
  | file name leaf later ih =>
    refine List.pairwise_cons.mpr ⟨?_, hlater ih⟩
    intro b hb
    obtain ⟨a, ha, rfl⟩ := List.mem_map.mp hb
    exact zero_cons_lt_shift (ne_nil_of_mem_addresses ha) []
  | directory name contents later ihc ihl =>
    have hbelow : (contents.addresses.map (0 :: ·)).Pairwise (· < ·) :=
      ihc.map _ fun _ _ hlt => List.cons_lt_cons_iff.mpr (.inr ⟨rfl, hlt⟩)
    refine List.pairwise_cons.mpr ⟨?_, List.pairwise_append.mpr ⟨hbelow, hlater ihl, ?_⟩⟩
    · intro b hb
      rcases List.mem_append.mp hb with hb | hb
      · obtain ⟨a, ha, rfl⟩ := List.mem_map.mp hb
        obtain ⟨j, more, rfl⟩ := List.exists_cons_of_ne_nil (ne_nil_of_mem_addresses ha)
        exact List.cons_lt_cons_iff.mpr (.inr ⟨rfl, List.nil_lt_cons _ _⟩)
      · obtain ⟨a, ha, rfl⟩ := List.mem_map.mp hb
        exact zero_cons_lt_shift (ne_nil_of_mem_addresses ha) []
    · intro b hb c hc
      obtain ⟨a, -, rfl⟩ := List.mem_map.mp hb
      obtain ⟨d, hd, rfl⟩ := List.mem_map.mp hc
      exact zero_cons_lt_shift (ne_nil_of_mem_addresses hd) a

/-! ## The drawing -/

/-- The lines of a tree are those of its entries, in the order of the addresses. -/
theorem map_lineAt?_addresses (t : Tree) : t.addresses.map t.lineAt? = t.lines.map some := by
  unfold lines
  induction t with
  | empty => rfl
  | file name leaf later ih =>
    have h : (file name leaf later).entries = (name, .file leaf) :: later.entries := rfl
    rw [addresses, linesFrom, List.map_cons, List.map_cons, List.map_map, lineAt?_zero h, ← ih]
    simp only [Function.comp_def, lineAt?_shift h]
    rfl
  | directory name contents later ihc ihl =>
    have h : (directory name contents later).entries =
        (name, .directory contents) :: later.entries := rfl
    have hbelow : contents.addresses.map (fun a =>
          (directory name contents later).lineAt? (0 :: a)) =
        (contents.linesFrom [later == empty]).map some := by
      rw [linesFrom_cons, List.map_map]
      calc contents.addresses.map (fun a => (directory name contents later).lineAt? (0 :: a))
          = contents.addresses.map
              (fun a => (contents.lineAt? a).map (Line.within (later == empty))) :=
            List.map_congr_left fun a ha => lineAt?_cons h (ne_nil_of_mem_addresses ha)
        _ = (contents.addresses.map contents.lineAt?).map
              (Option.map (Line.within (later == empty))) := by rw [List.map_map]; rfl
        _ = (contents.linesFrom []).map (some ∘ Line.within (later == empty)) := by
            rw [ihc, List.map_map]; rfl
    rw [addresses, linesFrom, List.map_cons, List.map_append, List.map_map, List.map_map,
      lineAt?_zero h]
    simp only [Function.comp_def, lineAt?_shift h, hbelow, ihl]
    simp [Node.label?]

/-- **The lines of a drawing.**  Whatever its margin and whatever it has drawn, a
    pen draws one line for each entry of a tree, in the order of their addresses
    and each behind that margin, and comes back with it.  What a line shows is
    told by the address of its entry, so it does not depend on other lines; the
    drawing of a tree is these lines. -/
theorem draws_line_of_each_entry (t : Tree) (pen : Pen) :
    (t.addresses.Pairwise (· < ·) ∧ ∀ a, a ∈ t.addresses ↔ (t.entryAt? a).isSome) ∧
      t.addresses.map t.lineAt? = t.lines.map some ∧
      t.drawWith? pen =
        some ⟨pen.margin, pen.drawn ++ t.lines.flatMap (pen.margin ++ ·.print)⟩ ∧
      t.draw = t.lines.flatMap Line.print := by
  refine ⟨⟨pairwise_addresses t, mem_addresses_iff t⟩, map_lineAt?_addresses t, ?_,
    draw_eq_flatMap_print t⟩
  have hmargin := drawFrom_eq_flatMap_print t pen.margin []
  rw [List.flatMap_nil, List.append_nil] at hmargin
  rw [drawWith?_eq, hmargin, lines]

/-- Directories with and without entries after them. -/
def nested : Tree :=
  directory "src"
    (directory "lib" (file "b.py" ⟨"Python", 1⟩ empty)
      (file "c.ts" ⟨"TypeScript", 1⟩ empty))
    (directory "docs" (directory "old" (file "d.txt" ⟨"Plain text", 1⟩ empty) empty) empty)

/-- Below a directory with entries after it there is a bar, and below the last
    one there are blanks.  A pen that comes with a margin draws every line behind
    it. -/
theorem draws_line_of_each_entry_nested :
    nested.addresses = [[0], [0, 0], [0, 0, 0], [0, 1], [1], [1, 0], [1, 0, 0]] ∧
      nested.draw =
        ("├── src/\n" ++
         "│   ├── lib/\n" ++
         "│   │   └── b.py (Python)\n" ++
         "│   └── c.ts (TypeScript)\n" ++
         "└── docs/\n" ++
         "    └── old/\n" ++
         "        └── d.txt (Plain text)\n" : Text) ∧
      nested.drawWith? ⟨"│   ", "├── up/\n"⟩ =
        some ⟨"│   ",
          ("├── up/\n" ++
           "│   ├── src/\n" ++
           "│   │   ├── lib/\n" ++
           "│   │   │   └── b.py (Python)\n" ++
           "│   │   └── c.ts (TypeScript)\n" ++
           "│   └── docs/\n" ++
           "│       └── old/\n" ++
           "│           └── d.txt (Plain text)\n" : Text)⟩ := by
  obtain ⟨-, -, hpen, hdraw⟩ := draws_line_of_each_entry nested ⟨"│   ", "├── up/\n"⟩
  refine ⟨by decide, hdraw.trans (by decide), hpen.trans ?_⟩
  rw [Option.some.injEq, Pen.mk.injEq]
  exact ⟨rfl, by decide +kernel⟩

end Neaten.Tree
