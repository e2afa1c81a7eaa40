import Mathlib.Data.List.Induction
import Mathlib.Tactic.MkIffOfInductiveProp
import Neaten.Proofs.Tree.SiblingOrder

/-! # Well-formed trees

    A tree is well formed if no directory in it lists a name twice, every name
    could be a piece of a path, and no directory but the tree itself is empty.
    An insertion keeps this, whatever it meets on its way: a directory that it
    makes, in place of a file or where nothing was, gets something to hold
    before the insertion is done.

    Looking up a path takes the first entry with a name, so in general it may
    miss what a tree shows.  In a well-formed tree it misses nothing: no two rows
    have the same path, and at the path of a row stands what the row shows. -/

namespace Neaten.Tree

/-! ## What it takes -/

/-- What the directories of a tree hold, however deep they are. -/
def directories : Tree → List Tree
  | empty => []
  | file _ _ later => later.directories
  | directory _ contents later => contents :: (contents.directories ++ later.directories)

/-- A name that a path can lead through. -/
def IsSegment (name : Text) : Prop := name ≠ [] ∧ '/' ∉ name

instance (name : Text) : Decidable (IsSegment name) := inferInstanceAs (Decidable (_ ∧ _))

/-- The tree and every directory in it list names of paths, each once, and the
    directories in it list at least one. -/
@[mk_iff]
structure WellFormed (t : Tree) : Prop where
  distinct : ∀ d ∈ t :: t.directories, d.names.Nodup
  isSegment : ∀ d ∈ t :: t.directories, ∀ name ∈ d.names, IsSegment name
  filled : ∀ d ∈ t.directories, d ≠ empty

instance (t : Tree) : Decidable t.WellFormed := decidable_of_iff' _ (wellFormed_iff t)

theorem wellFormed_empty : empty.WellFormed := by decide

theorem wellFormed_file_iff {name : Text} {leaf : Leaf} {later : Tree} :
    (file name leaf later).WellFormed ↔
      IsSegment name ∧ name ∉ later.names ∧ later.WellFormed := by
  simp only [wellFormed_iff, directories, names, List.forall_mem_cons, List.nodup_cons]
  tauto

theorem wellFormed_directory_iff {name : Text} {contents later : Tree} :
    (directory name contents later).WellFormed ↔
      IsSegment name ∧ name ∉ later.names ∧ contents ≠ empty ∧ contents.WellFormed ∧
        later.WellFormed := by
  simp only [wellFormed_iff, directories, names, List.forall_mem_cons, List.forall_mem_append,
    List.nodup_cons]
  tauto

/-! ## One insertion -/

theorem mem_names_insertAt {t : Tree} {first : Text} {rest : List Text} {leaf : Leaf}
    {name : Text} :
    name ∈ (t.insertAt first rest leaf).names ↔ name = first ∨ name ∈ t.names := by
  rw [names_insertAt]
  by_cases hfirst : first ∈ t.names
  · rw [if_pos hfirst]
    constructor
    · exact Or.inr
    · rintro (rfl | hname)
      · exact hfirst
      · exact hname
  · rw [if_neg hfirst, List.mem_append, List.mem_singleton, or_comm]

/-- Something was put in, so something is there. -/
theorem insertAt_ne_empty (t : Tree) (first : Text) (rest : List Text) (leaf : Leaf) :
    t.insertAt first rest leaf ≠ empty := by
  intro hempty
  have hfirst : first ∈ (t.insertAt first rest leaf).names := mem_names_insertAt.mpr (.inl rfl)
  rw [hempty] at hfirst
  cases hfirst

theorem branch_ne_empty (first : Text) (rest : List Text) (leaf : Leaf) :
    branch first rest leaf ≠ empty :=
  insertAt_ne_empty empty first rest leaf

/-- Every directory on the way to a single file holds the next one or the file. -/
theorem wellFormed_branch {first : Text} {rest : List Text}
    (hplace : ∀ name ∈ first :: rest, IsSegment name) (leaf : Leaf) :
    (branch first rest leaf).WellFormed := by
  induction rest generalizing first with
  | nil =>
    have hfirst : IsSegment first := hplace first List.mem_cons_self
    exact wellFormed_file_iff.mpr ⟨hfirst, List.not_mem_nil, wellFormed_empty⟩
  | cons next more ih =>
    obtain ⟨hfirst, hrest⟩ := List.forall_mem_cons.mp hplace
    exact wellFormed_directory_iff.mpr
      ⟨hfirst, List.not_mem_nil, branch_ne_empty next more leaf, ih hrest, wellFormed_empty⟩

/-- Putting in one name lists no other. -/
theorem not_mem_names_insertAt {t : Tree} {name first : Text} (hnew : name ∉ t.names)
    (hne : name ≠ first) (rest : List Text) (leaf : Leaf) :
    name ∉ (t.insertAt first rest leaf).names := by
  rw [mem_names_insertAt]
  rintro (heq | hmem)
  · exact hne heq
  · exact hnew hmem

theorem WellFormed.insertAt {t : Tree} (h : t.WellFormed) {first : Text} {rest : List Text}
    (hplace : ∀ name ∈ first :: rest, IsSegment name) (leaf : Leaf) :
    (t.insertAt first rest leaf).WellFormed := by
  induction t generalizing first rest with
  | empty => exact wellFormed_branch hplace leaf
  | file name old later ih =>
    obtain ⟨hname, hnew, hlater⟩ := wellFormed_file_iff.mp h
    unfold Tree.insertAt
    by_cases hfirst : name = first
    · rw [if_pos hfirst]
      cases rest with
      | nil => exact wellFormed_file_iff.mpr ⟨hname, hnew, hlater⟩
      | cons next more =>
        -- The directory in place of the file starts with a branch, so it is not empty.
        have hrest := (List.forall_mem_cons.mp hplace).2
        exact wellFormed_directory_iff.mpr
          ⟨hname, hnew, branch_ne_empty next more leaf, wellFormed_branch hrest leaf, hlater⟩
    · rw [if_neg hfirst]
      have hstill := not_mem_names_insertAt hnew hfirst rest leaf
      exact wellFormed_file_iff.mpr ⟨hname, hstill, ih hlater hplace⟩
  | directory name contents later ihc ihl =>
    obtain ⟨hname, hnew, hfilled, hcontents, hlater⟩ := wellFormed_directory_iff.mp h
    unfold Tree.insertAt
    by_cases hfirst : name = first
    · rw [if_pos hfirst]
      cases rest with
      | nil => exact wellFormed_file_iff.mpr ⟨hname, hnew, hlater⟩
      | cons next more =>
        have hrest := (List.forall_mem_cons.mp hplace).2
        exact wellFormed_directory_iff.mpr
          ⟨hname, hnew, insertAt_ne_empty contents next more leaf, ihc hcontents hrest, hlater⟩
    · rw [if_neg hfirst]
      have hstill := not_mem_names_insertAt hnew hfirst rest leaf
      exact wellFormed_directory_iff.mpr ⟨hname, hstill, hfilled, hcontents, ihl hlater hplace⟩

/-- **An insertion keeps a tree well formed.** -/
theorem WellFormed.insert {t : Tree} (h : t.WellFormed) {place : List Text}
    (hplace : ∀ name ∈ place, IsSegment name) (leaf : Leaf) :
    (t.insert place leaf).WellFormed := by
  cases place with
  | nil => exact h
  | cons first rest => exact h.insertAt hplace leaf

/-! ## A whole list of files -/

theorem isSegment_of_mem_segments {f : SourceFile} {name : Text} (h : name ∈ f.segments) :
    IsSegment name := by
  obtain ⟨hpiece, hne⟩ := List.mem_filter.mp h
  exact ⟨of_decide_eq_true hne, Text.not_mem_of_mem_split '/' f.path name hpiece⟩

theorem wellFormed_ofFiles (files : List SourceFile) : (ofFiles files).WellFormed := by
  induction files using List.reverseRecOn with
  | nil => exact wellFormed_empty
  | append_singleton files f ih =>
    rw [ofFiles_concat]
    exact ih.insert (fun _ => isSegment_of_mem_segments) (leafOf f)

/-! ## What is below a directory -/

/-- The directories of a well-formed tree are well formed. -/
theorem WellFormed.of_mem_directories {t d : Tree} (h : t.WellFormed) (hd : d ∈ t.directories) :
    d.WellFormed := by
  induction t with
  | empty => cases hd
  | file name leaf later ih => exact ih (wellFormed_file_iff.mp h).2.2 hd
  | directory name contents later ihc ihl =>
    obtain ⟨-, -, -, hcontents, hlater⟩ := wellFormed_directory_iff.mp h
    rcases List.mem_cons.mp hd with rfl | hd
    · exact hcontents
    · rcases List.mem_append.mp hd with hin | hafter
      · exact ihc hcontents hin
      · exact ihl hlater hafter

/-- Unless a well-formed tree is empty, a file is found in it. -/
theorem WellFormed.exists_file {t : Tree} (h : t.WellFormed) (hne : t ≠ empty) :
    ∃ p leaf, t.lookup? p = some (.file leaf) := by
  induction t with
  | empty => exact absurd rfl hne
  | file name leaf later _ => exact ⟨[name], leaf, by simp [lookup?, find?]⟩
  | directory name contents later ihc _ =>
    obtain ⟨-, -, hfilled, hcontents, -⟩ := wellFormed_directory_iff.mp h
    obtain ⟨p, leaf, hp⟩ := ihc hcontents hfilled
    cases p with
    | nil => cases hp
    | cons next more =>
      refine ⟨name :: next :: more, leaf, ?_⟩
      rw [lookup?, find?, if_pos rfl]
      exact hp

/-! ## The paths of rows -/

/-- The paths of rows that come after a row with the path `before`.  A row has
    as many names of that path around it as its depth says. -/
def pathsAfter (before : List Text) : List Row → List (List Text)
  | [] => []
  | row :: rest =>
    let path := before.take row.depth ++ [row.name]
    path :: pathsAfter path rest

/-- The paths of the rows of a tree. -/
def rowPaths (rows : List Row) : List (List Text) := pathsAfter [] rows

/-- The paths of the entries, each directory before what it holds. -/
def paths : Tree → List (List Text)
  | empty => []
  | file name _ later => [name] :: later.paths
  | directory name contents later =>
    [name] :: (contents.paths.map (name :: ·) ++ later.paths)

section

variable {depth : Nat} {before : List Text}

theorem length_take_concat (hdepth : depth ≤ before.length) (name : Text) :
    (before.take depth ++ [name]).length = depth + 1 := by
  simp [hdepth]

theorem take_take_concat (hdepth : depth ≤ before.length) (name : Text) :
    (before.take depth ++ [name]).take depth = before.take depth := by
  simp [hdepth]

/-- The rows of a tree get the paths of its entries, and leave the names around
    them as they were. -/
theorem pathsAfter_rowsFrom_append (t : Tree) (hdepth : depth ≤ before.length)
    (rest : List Row) :
    ∃ last, depth ≤ last.length ∧ last.take depth = before.take depth ∧
      pathsAfter before (t.rowsFrom depth ++ rest) =
        t.paths.map (before.take depth ++ ·) ++ pathsAfter last rest := by
  induction t generalizing depth before rest with
  | empty => exact ⟨before, hdepth, rfl, rfl⟩
  | file name leaf later ih =>
    have hpath : depth ≤ (before.take depth ++ [name]).length :=
      Nat.le_of_succ_le (length_take_concat hdepth name).ge
    obtain ⟨last, hlast, htake, hpaths⟩ := ih hpath rest
    rw [take_take_concat hdepth] at htake hpaths
    exact ⟨last, hlast, htake, congrArg (_ :: ·) hpaths⟩
  | directory name contents later ihc ihl =>
    have hpath : (before.take depth ++ [name]).take (depth + 1) = before.take depth ++ [name] :=
      List.take_of_length_le (length_take_concat hdepth name).le
    obtain ⟨middle, hmiddle, htake, hcontents⟩ :=
      ihc (length_take_concat hdepth name).ge (later.rowsFrom depth ++ rest)
    rw [hpath] at htake hcontents
    -- Whatever came last in the directory, it had the directory around it.
    have hback : middle.take depth = before.take depth := by
      rw [← take_take_concat hdepth name, ← htake, List.take_take,
        Nat.min_eq_left (Nat.le_succ depth)]
    obtain ⟨last, hlast, htake', hlater⟩ := ihl (Nat.le_of_succ_le hmiddle) rest
    rw [hback] at htake' hlater
    refine ⟨last, hlast, htake', ?_⟩
    rw [rowsFrom, paths, List.cons_append, List.append_assoc, pathsAfter]
    dsimp only
    rw [hcontents, hlater]
    simp [Function.comp_def]

end

theorem rowPaths_rows (t : Tree) : rowPaths t.rows = t.paths := by
  obtain ⟨last, -, -, hpaths⟩ := pathsAfter_rowsFrom_append t (Nat.zero_le ([] : List Text).length) []
  rw [List.append_nil] at hpaths
  rw [rowPaths, rows, hpaths]
  simp [pathsAfter]

/-- A path begins with the name of an entry at the top. -/
theorem exists_cons_of_mem_paths {t : Tree} {p : List Text} (hp : p ∈ t.paths) :
    ∃ name rest, p = name :: rest ∧ name ∈ t.names := by
  induction t generalizing p with
  | empty => cases hp
  | file name leaf later ih =>
    rcases List.mem_cons.mp hp with rfl | hp
    · exact ⟨name, [], rfl, List.mem_cons_self⟩
    · obtain ⟨other, rest, rfl, hother⟩ := ih hp
      exact ⟨other, rest, rfl, List.mem_cons_of_mem _ hother⟩
  | directory name contents later _ ih =>
    rcases List.mem_cons.mp hp with rfl | hp
    · exact ⟨name, [], rfl, List.mem_cons_self⟩
    · rcases List.mem_append.mp hp with hp | hp
      · obtain ⟨more, -, rfl⟩ := List.mem_map.mp hp
        exact ⟨name, more, rfl, List.mem_cons_self⟩
      · obtain ⟨other, rest, rfl, hother⟩ := ih hp
        exact ⟨other, rest, rfl, List.mem_cons_of_mem _ hother⟩

theorem not_mem_paths_of_not_mem_names {t : Tree} {name : Text} (h : name ∉ t.names)
    (rest : List Text) : name :: rest ∉ t.paths := by
  intro hp
  obtain ⟨other, more, heq, hother⟩ := exists_cons_of_mem_paths hp
  obtain ⟨rfl, -⟩ := List.cons.inj heq
  exact h hother

/-- No two entries of a well-formed tree have the same path. -/
theorem WellFormed.nodup_paths {t : Tree} (h : t.WellFormed) : t.paths.Nodup := by
  induction t with
  | empty => exact List.nodup_nil
  | file name leaf later ih =>
    obtain ⟨-, hnew, hlater⟩ := wellFormed_file_iff.mp h
    exact List.nodup_cons.mpr ⟨not_mem_paths_of_not_mem_names hnew [], ih hlater⟩
  | directory name contents later ihc ihl =>
    obtain ⟨-, hnew, -, hcontents, hlater⟩ := wellFormed_directory_iff.mp h
    have hbelow : (contents.paths.map (name :: ·)).Nodup :=
      (ihc hcontents).map fun _ _ heq => (List.cons.inj heq).2
    refine List.nodup_cons.mpr ⟨?_, List.nodup_append'.mpr ⟨hbelow, ihl hlater, ?_⟩⟩
    · intro hmem
      rcases List.mem_append.mp hmem with hin | hafter
      · -- The path of the directory itself is none of a path below it.
        obtain ⟨more, hmore, heq⟩ := List.mem_map.mp hin
        obtain ⟨_, _, rfl, -⟩ := exists_cons_of_mem_paths hmore
        cases heq
      · exact not_mem_paths_of_not_mem_names hnew [] hafter
    · intro p hin hafter
      obtain ⟨more, -, rfl⟩ := List.mem_map.mp hin
      exact not_mem_paths_of_not_mem_names hnew more hafter

/-! ## What stands at the path of a row -/

theorem standing_file_of_ne {name other : Text} (h : name ≠ other) (leaf : Leaf) (later : Tree)
    (rest : List Text) :
    (file name leaf later).standing (other :: rest) = later.standing (other :: rest) := by
  simp [standing, lookup?, find?, h]

theorem standing_directory_of_ne {name other : Text} (h : name ≠ other) (contents later : Tree)
    (rest : List Text) :
    (directory name contents later).standing (other :: rest) = later.standing (other :: rest) := by
  simp [standing, lookup?, find?, h]

theorem standing_directory_below (name : Text) (contents later : Tree) (next : Text)
    (more : List Text) :
    (directory name contents later).standing (name :: next :: more) =
      contents.standing (next :: more) := by
  simp [standing, lookup?, find?]

/-- At the path of each entry stands that entry. -/
theorem WellFormed.map_standing_paths {t : Tree} (h : t.WellFormed) (depth : Nat) :
    t.paths.map t.standing = (t.rowsFrom depth).map fun row => some row.leaf := by
  induction t generalizing depth with
  | empty => rfl
  | file name leaf later ih =>
    obtain ⟨-, hnew, hlater⟩ := wellFormed_file_iff.mp h
    have hself : (file name leaf later).standing [name] = some (some leaf) := by
      rw [standing_file, if_pos rfl]
    have hafter : later.paths.map (file name leaf later).standing =
        later.paths.map later.standing := by
      apply List.map_congr_left
      intro p hp
      obtain ⟨other, rest, rfl, hother⟩ := exists_cons_of_mem_paths hp
      have hne : name ≠ other := by
        rintro rfl
        exact hnew hother
      exact standing_file_of_ne hne leaf later rest
    rw [paths, rowsFrom, List.map_cons, List.map_cons, hself, hafter, ih hlater depth]
  | directory name contents later ihc ihl =>
    obtain ⟨-, hnew, -, hcontents, hlater⟩ := wellFormed_directory_iff.mp h
    have hself : (directory name contents later).standing [name] = some none := by
      rw [standing_directory, if_pos rfl]
    have hbelow : (contents.paths.map (name :: ·)).map (directory name contents later).standing =
        contents.paths.map contents.standing := by
      rw [List.map_map]
      apply List.map_congr_left
      intro p hp
      obtain ⟨next, more, rfl, -⟩ := exists_cons_of_mem_paths hp
      exact standing_directory_below name contents later next more
    have hafter : later.paths.map (directory name contents later).standing =
        later.paths.map later.standing := by
      apply List.map_congr_left
      intro p hp
      obtain ⟨other, rest, rfl, hother⟩ := exists_cons_of_mem_paths hp
      have hne : name ≠ other := by
        rintro rfl
        exact hnew hother
      exact standing_directory_of_ne hne contents later rest
    rw [paths, rowsFrom, List.map_cons, List.map_cons, List.map_append, List.map_append, hself,
      hbelow, hafter, ihc hcontents (depth + 1), ihl hlater depth]

/-! ## The theorem -/

/-- **Every tree of files is well formed.**  An insertion of a file at a path
    keeps a tree well formed, so the tree of a list of files is.  Every directory
    in it holds a file or has one further down, no two of its rows have the same
    path, and at the path of each row stands what the row shows. -/
theorem insertions_keep_wellFormed :
    (∀ (t : Tree) (place : List Text) (leaf : Leaf), t.WellFormed →
      (∀ name ∈ place, IsSegment name) → (t.insert place leaf).WellFormed) ∧
    ∀ files : List SourceFile, (ofFiles files).WellFormed ∧
      (∀ d ∈ (ofFiles files).directories, ∃ p leaf, d.lookup? p = some (.file leaf)) ∧
      (rowPaths (ofFiles files).rows).Nodup ∧
      (rowPaths (ofFiles files).rows).map (ofFiles files).standing =
        (ofFiles files).rows.map fun row => some row.leaf := by
  refine ⟨fun t place leaf h hplace => h.insert hplace leaf, ?_⟩
  intro files
  have h := wellFormed_ofFiles files
  refine ⟨h, ?_, ?_, ?_⟩
  · intro d hd
    exact (h.of_mem_directories hd).exists_file (h.filled d hd)
  · rw [rowPaths_rows]
    exact h.nodup_paths
  · rw [rowPaths_rows]
    exact h.map_standing_paths 0

/-- A tree with a file where a directory will be needed. -/
def beforeGuide : Tree :=
  file "docs" ⟨"Plain text", 1⟩ (directory "src" (file "a.py" ⟨"Python", 3⟩ empty) empty)

/-- The directory that takes the place of the file is filled at any depth. -/
theorem insertions_keep_wellFormed_turnedFile :
    beforeGuide.WellFormed ∧ (∀ name ∈ (["docs", "en", "guide.md"] : List Text), IsSegment name) ∧
      (beforeGuide.insert ["docs", "en", "guide.md"] ⟨"Markdown", 2⟩).directoryNames =
        ["docs", "src"] ∧
      (beforeGuide.insert ["docs", "en", "guide.md"] ⟨"Markdown", 2⟩).WellFormed := by
  have hbefore : beforeGuide.WellFormed := by decide
  have hplace : ∀ name ∈ (["docs", "en", "guide.md"] : List Text), IsSegment name := by decide
  exact ⟨hbefore, hplace, by decide, insertions_keep_wellFormed.1 _ _ _ hbefore hplace⟩

/-- Not every tree is well formed: one that lists a name twice is not. -/
example : ¬ (file "a" ⟨"", 0⟩ (file "a" ⟨"", 1⟩ empty)).WellFormed := by decide

end Neaten.Tree
