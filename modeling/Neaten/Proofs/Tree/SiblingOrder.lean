import Mathlib.Data.List.DropRight
import Neaten.Proofs.List.FirstAppearance
import Neaten.Proofs.Tree.LastWriter

/-! # The order of siblings

    A name comes into a directory with the first path that leads to it or
    beyond, and stays where it is until a file takes the place of the directory
    or of one above it.  So a directory lists the names on the paths that came
    in below it since then, in the order of their first appearance.

    Nothing takes the place of the tree itself.  And if no path leads on from
    another one, nothing takes the place of any directory, and a name stands for
    a directory just if a path leads on from it. -/

namespace Neaten.Tree

/-! ## One insertion -/

/-- The name that follows `q` on a path that leads on from there. -/
def nameAfter? (q path : List Text) : Option Text := if q <+: path then path[q.length]? else none

theorem nameAfter?_append_cons (q : List Text) (name : Text) (more : List Text) :
    nameAfter? q (q ++ name :: more) = some name := by
  simp [nameAfter?]

/-- The end of a path is not followed by a name. -/
theorem nameAfter?_eq_none_of_prefix {q path : List Text} (h : path <+: q) :
    nameAfter? q path = none := by
  unfold nameAfter?
  split
  · next hq =>
    obtain rfl : q = path := hq.eq_of_length_le h.length_le
    simp
  · rfl

/-- A name that is new comes last. -/
theorem names_insertAt (t : Tree) (first : Text) (rest : List Text) (leaf : Leaf) :
    (t.insertAt first rest leaf).names =
      if first ∈ t.names then t.names else t.names ++ [first] := by
  induction t generalizing first rest with
  | empty => cases rest <;> simp [insertAt, branch, names]
  | file name old later ih =>
    by_cases h : name = first
    · subst h
      cases rest <;> simp [insertAt, names]
    · have hne : first ≠ name := Ne.symm h
      by_cases hmem : first ∈ later.names
      · simp [insertAt, names, h, hne, ih, hmem]
      · simp [insertAt, names, h, hne, ih, hmem]
  | directory name contents later ihc ihl =>
    by_cases h : name = first
    · subst h
      cases rest <;> simp [insertAt, names]
    · have hne : first ≠ name := Ne.symm h
      by_cases hmem : first ∈ later.names
      · simp [insertAt, names, h, hne, ihl, hmem]
      · simp [insertAt, names, h, hne, ihl, hmem]

/-- A new file takes the place of the directories at its path and below. -/
theorem within_insert_of_prefix (t : Tree) {place q : List Text} (leaf : Leaf) (hplace : place ≠ [])
    (h : place <+: q) : (t.insert place leaf).within q = empty := by
  obtain ⟨first, rest, rfl⟩ := List.exists_cons_of_ne_nil hplace
  obtain ⟨extra, rfl⟩ := h
  unfold within
  cases extra with
  | nil =>
    rw [List.append_nil, insert, lookup?, find?_insertAt_self]
  | cons next more =>
    rw [List.cons_append, insert, lookup?, find?_insertAt_below]

/-- A new file below a directory is put into it. -/
theorem within_insert_append_cons (t : Tree) (q : List Text) (name : Text) (more : List Text)
    (leaf : Leaf) :
    (t.insert (q ++ name :: more) leaf).within q = (t.within q).insertAt name more leaf := by
  cases q with
  | nil => rfl
  | cons first rest =>
    apply within_of_lookup?
    exact find?_insertAt_above t first rest name more leaf

/-- A new file elsewhere changes nothing. -/
theorem within_insert_of_not_comparable (t : Tree) {place q : List Text} (leaf : Leaf)
    (h : ¬ Comparable place q) : (t.insert place leaf).within q = t.within q := by
  have hplace : place ≠ [] := fun he => h (he ▸ comparable_nil_left q)
  have hq : q ≠ [] := fun he => h (he ▸ comparable_nil_right place)
  obtain ⟨first, rest, rfl⟩ := List.exists_cons_of_ne_nil hplace
  obtain ⟨other, more, rfl⟩ := List.exists_cons_of_ne_nil hq
  unfold within
  rw [insert, lookup?, lookup?, find?_insertAt_of_not_comparable t _ _ _ _ leaf h]

/-- **What one insertion does to the names in a directory**: if it takes the
    place of the directory none are left; if it goes in below, the name on its
    way is there, at the end if it is new; otherwise they stay. -/
theorem names_within_insert (t : Tree) {place : List Text} (hplace : place ≠ []) (q : List Text)
    (leaf : Leaf) :
    ((t.insert place leaf).within q).names =
      if place <+: q then []
      else match nameAfter? q place with
        | some name =>
          if name ∈ (t.within q).names then (t.within q).names else (t.within q).names ++ [name]
        | none => (t.within q).names := by
  by_cases habove : place <+: q
  · rw [if_pos habove, within_insert_of_prefix t leaf hplace habove]
    rfl
  · rw [if_neg habove]
    by_cases hbelow : q <+: place
    · have hne : q ≠ place := fun he => habove (he ▸ List.prefix_rfl)
      obtain ⟨name, more, rfl⟩ := exists_append_of_prefix_of_ne hbelow hne
      rw [within_insert_append_cons, names_insertAt, nameAfter?_append_cons]
    · have hn : ¬ Comparable place q := by
        rintro (hc | hc)
        · exact habove hc
        · exact hbelow hc
      have hnone : nameAfter? q place = none := if_neg hbelow
      rw [within_insert_of_not_comparable t leaf hn, hnone]

/-! ## A whole list of files -/

/-- The paths that came in after the last one that takes the place of the
    directory at `q`. -/
def since (q : List Text) (paths : List (List Text)) : List (List Text) :=
  paths.rtakeWhile fun p => ¬ (p ≠ [] ∧ p <+: q)

theorem since_concat (q : List Text) (paths : List (List Text)) (p : List Text) :
    since q (paths ++ [p]) = if p ≠ [] ∧ p <+: q then [] else since q paths ++ [p] := by
  unfold since
  rw [List.rtakeWhile_concat]
  by_cases h : p ≠ [] ∧ p <+: q
  · rw [if_pos h, if_neg (by simp [h])]
  · rw [if_neg h, if_pos (decide_eq_true h)]

/-- If no path takes the place of the directory, all count. -/
theorem since_eq_self {q : List Text} {paths : List (List Text)}
    (h : ∀ p ∈ paths, p ≠ [] → ¬ p <+: q) : since q paths = paths := by
  unfold since
  rw [List.rtakeWhile_eq_self_iff]
  intro p hp
  by_cases hne : p = []
  · simp [hne]
  · simp [h p hp hne]

theorem mem_of_mem_since {q p : List Text} {paths : List (List Text)} (h : p ∈ since q paths) :
    p ∈ paths :=
  (List.rtakeWhile_suffix _ paths).subset h

/-- **A directory lists the names on the way to what came in below it**, in the
    order of their first appearance, unless something took its place after
    that. -/
theorem names_within_ofFiles (files : List SourceFile) (q : List Text) :
    ((ofFiles files).within q).names =
      ((since q (files.map (·.segments))).filterMap (nameAfter? q)).eraseDups := by
  -- From the back, since a new file only changes what those before it left.
  induction files using List.reverseRecOn with
  | nil => cases q <;> rfl
  | append_singleton files f ih =>
    rw [ofFiles_concat, List.map_append, List.map_singleton, since_concat]
    by_cases hf : f.segments = []
    · -- A file without segments goes nowhere, and no name follows on its path.
      have hnone : nameAfter? q [] = none := nameAfter?_eq_none_of_prefix List.nil_prefix
      rw [hf, if_neg (fun h => h.1 rfl), List.filterMap_append]
      simpa [insert, hnone] using ih
    · rw [names_within_insert _ hf]
      by_cases habove : f.segments <+: q
      · rw [if_pos habove, if_pos ⟨hf, habove⟩]
        rfl
      · rw [if_neg habove, if_neg (fun h => habove h.2), List.filterMap_append]
        cases hnext : nameAfter? q f.segments with
        | none => simp [hnext, ih]
        | some name =>
          -- The name is listed already just if it has appeared.
          have hmem : name ∈ ((ofFiles files).within q).names ↔
              name ∈ (since q (files.map (·.segments))).filterMap (nameAfter? q) := by
            rw [ih, List.mem_eraseDups]
          have hlast : [f.segments].filterMap (nameAfter? q) = [name] := by simp [hnext]
          rw [hlast, eraseDups_concat, ← ih]
          simp only [hmem]

/-! ## Paths that do not lead on from another -/

/-- No path leads on from the end of another one.  The empty path has no end. -/
def PrefixFree (paths : List (List Text)) : Prop :=
  ∀ p ∈ paths, p ≠ [] → ∀ other ∈ paths, p <+: other → p = other

instance (paths : List (List Text)) : Decidable (PrefixFree paths) :=
  inferInstanceAs (Decidable (∀ p ∈ paths, p ≠ [] → ∀ other ∈ paths, p <+: other → p = other))

/-- Then no path takes the place of a directory that another one leads through. -/
theorem filterMap_nameAfter?_since {paths : List (List Text)} (hfree : PrefixFree paths)
    (q : List Text) :
    (since q paths).filterMap (nameAfter? q) = paths.filterMap (nameAfter? q) := by
  by_cases htaken : ∃ p ∈ paths, p ≠ [] ∧ p <+: q
  · -- A path that took the place is not led on from, so no name follows on any path.
    obtain ⟨p, hp, hne, hleads⟩ := htaken
    have hnone : ∀ other ∈ paths, nameAfter? q other = none := by
      intro other hother
      by_cases hq : q <+: other
      · obtain rfl := hfree p hp hne other hother (hleads.trans hq)
        exact nameAfter?_eq_none_of_prefix hleads
      · exact if_neg hq
    rw [List.filterMap_eq_nil_iff.mpr hnone]
    apply List.filterMap_eq_nil_iff.mpr
    intro other hother
    exact hnone other (mem_of_mem_since hother)
  · have hfine : ∀ p ∈ paths, p ≠ [] → ¬ p <+: q := by
      intro p hp hne hleads
      exact htaken ⟨p, hp, hne, hleads⟩
    rw [since_eq_self hfine]

/-- Then a directory stands at a path just if a file lies below. -/
theorem standing_ofFiles_eq_directory_iff {files : List SourceFile}
    (hfree : PrefixFree (files.map (·.segments))) {p : List Text} (hp : p ≠ []) :
    (ofFiles files).standing p = some none ↔ ∃ f ∈ files, p <+: f.segments ∧ f.segments ≠ p := by
  rw [standing_eq_directory_iff, lookup?_ofFiles_eq_directory_iff files hp]
  constructor
  · rintro ⟨f, hlast, hbelow⟩
    exact ⟨f, mem_of_lastWriter?_eq_some hlast, hbelow⟩
  · rintro ⟨f, hf, hleads, hne⟩
    have hfne : f.segments ≠ [] := by
      intro hnil
      rw [hnil] at hleads
      exact hp (List.prefix_nil.mp hleads)
    cases hlast : lastWriter? files p with
    | none => exact absurd (.inr hleads) (lastWriter?_eq_none_iff.mp hlast f hf hfne)
    | some w =>
      obtain ⟨⟨hwne, hcomparable⟩, -⟩ := lastWriter?_eq_some_iff.mp hlast
      have hw : w ∈ files := mem_of_lastWriter?_eq_some hlast
      -- The last writer does not end on the way to `f`, so it lies below as well.
      have hnot : ¬ w.segments <+: p := by
        intro habove
        have heq : w.segments = f.segments :=
          hfree _ (List.mem_map_of_mem hw) hwne _ (List.mem_map_of_mem hf) (habove.trans hleads)
        rw [heq] at habove
        exact hne (habove.eq_of_length_le hleads.length_le)
      exact ⟨w, rfl, hcomparable.resolve_left hnot, fun he => hnot (he ▸ List.prefix_rfl)⟩

/-- Then the first name on a path is that of a directory just if it is not all
    of the path. -/
theorem standing_head_eq_directory_iff {files : List SourceFile}
    (hfree : PrefixFree (files.map (·.segments))) {f : SourceFile} (hf : f ∈ files)
    {name : Text} {more : List Text} (hpath : f.segments = name :: more) :
    (ofFiles files).standing [name] = some none ↔ more ≠ [] := by
  rw [standing_ofFiles_eq_directory_iff hfree (List.cons_ne_nil name [])]
  constructor
  · rintro ⟨g, hg, hleads, hne⟩ hmore
    have hfne : f.segments ≠ [] := by simp [hpath]
    rw [hmore] at hpath
    rw [← hpath] at hleads hne
    exact hne (hfree _ (List.mem_map_of_mem hf) hfne _ (List.mem_map_of_mem hg) hleads).symm
  · intro hmore
    exact ⟨f, hf, by simp [hpath], by simp [hpath, hmore]⟩

/-! ## Directories among the siblings -/

/-- The first entry decides what stands at its name. -/
theorem standing_file (name : Text) (leaf : Leaf) (later : Tree) (other : Text) :
    (file name leaf later).standing [other] =
      if name = other then some (some leaf) else later.standing [other] := by
  by_cases h : name = other
  · simp [standing, lookup?, find?, h, Node.leaf?]
  · simp [standing, lookup?, find?, h]

theorem standing_directory (name : Text) (contents later : Tree) (other : Text) :
    (directory name contents later).standing [other] =
      if name = other then some none else later.standing [other] := by
  by_cases h : name = other
  · simp [standing, lookup?, find?, h, Node.leaf?]
  · simp [standing, lookup?, find?, h]

/-- The names of directories are those at which one stands. -/
theorem directoryNames_eq_filter {t : Tree} (h : t.names.Nodup) :
    t.directoryNames = t.names.filter fun name => t.standing [name] = some none := by
  induction t with
  | empty => rfl
  | file name leaf later ih =>
    obtain ⟨hname, hlater⟩ := List.nodup_cons.mp h
    rw [names, List.filter_cons_of_neg (by simp [standing_file]), directoryNames, ih hlater]
    apply List.filter_congr
    intro other hother
    have hne : name ≠ other := fun he => hname (he ▸ hother)
    rw [standing_file, if_neg hne]
  | directory name contents later ihc ihl =>
    obtain ⟨hname, hlater⟩ := List.nodup_cons.mp h
    rw [names, List.filter_cons_of_pos (by simp [standing_directory]), directoryNames, ihl hlater]
    congr 1
    apply List.filter_congr
    intro other hother
    have hne : name ≠ other := fun he => hname (he ▸ hother)
    rw [standing_directory, if_neg hne]

/-! ## The theorem -/

theorem nameAfter?_nil (path : List Text) : nameAfter? [] path = path.head? := by
  cases path <;> simp [nameAfter?]

/-- Every path counts for the tree itself. -/
theorem names_ofFiles (files : List SourceFile) :
    (ofFiles files).names = ((files.map (·.segments)).filterMap List.head?).eraseDups := by
  have hall : since [] (files.map (·.segments)) = files.map (·.segments) := by
    apply since_eq_self
    intro p hp hne hleads
    exact hne (List.prefix_nil.mp hleads)
  have hnames := names_within_ofFiles files []
  rw [within_nil, hall] at hnames
  rw [hnames]
  congr 2
  funext path
  exact nameAfter?_nil path

/-- The directories of the tree are the first names of the paths that lead on
    from there. -/
theorem directoryNames_ofFiles {files : List SourceFile}
    (hfree : PrefixFree (files.map (·.segments))) :
    (ofFiles files).directoryNames =
      (((files.map (·.segments)).filter (2 ≤ ·.length)).filterMap List.head?).eraseDups := by
  have hnodup : (ofFiles files).names.Nodup := by
    rw [names_ofFiles]
    exact nodup_eraseDups _
  rw [directoryNames_eq_filter hnodup, names_ofFiles, filter_eraseDups]
  congr 1
  rw [List.filter_filterMap, List.filterMap_filter]
  apply List.filterMap_congr
  intro path hpath
  obtain ⟨f, hf, rfl⟩ := List.mem_map.mp hpath
  cases hsegments : f.segments with
  | nil => rfl
  | cons name more =>
    have hstanding := standing_head_eq_directory_iff hfree hf hsegments
    cases more with
    | nil =>
      have hfile : (ofFiles files).standing [name] ≠ some none := fun h => hstanding.mp h rfl
      simp [hfile]
    | cons next deeper =>
      have hdirectory : (ofFiles files).standing [name] = some none :=
        hstanding.mpr (List.cons_ne_nil next deeper)
      simp [hdirectory]

/-- **Siblings come in the order of their first appearance.**  The names in a
    tree of files are the first names of all paths, each where it first appears.
    If no path leads on from the end of another one, the same holds of every
    directory, with the names that follow on the paths that lead through it, and
    the directories of the tree are the first names of the paths with at least
    two, each where it first appears. -/
theorem siblings_in_order (files : List SourceFile) :
    (ofFiles files).names = ((files.map (·.segments)).filterMap List.head?).eraseDups ∧
    (PrefixFree (files.map (·.segments)) →
      (∀ q contents, (ofFiles files).lookup? q = some (.directory contents) →
        contents.names = ((files.map (·.segments)).filterMap (nameAfter? q)).eraseDups) ∧
      (ofFiles files).directoryNames =
        (((files.map (·.segments)).filter (2 ≤ ·.length)).filterMap List.head?).eraseDups) := by
  refine ⟨names_ofFiles files, ?_⟩
  intro hfree
  refine ⟨?_, directoryNames_ofFiles hfree⟩
  intro q contents hlookup
  rw [← within_of_lookup? hlookup, names_within_ofFiles, filterMap_nameAfter?_since hfree]

/-- Two directories that are visited by turns, and a file that comes twice. -/
def byTurns : List SourceFile :=
  [blankAt "z.js", blankAt "lib/x.js", blankAt "/a//q.js", blankAt "lib/w/y.js", blankAt "",
    blankAt "a/p.js", blankAt "lib/x.js", blankAt "lib/b.js", blankAt "lib/w/v.js"]

/-- Three names follow in one of them, the second that of a directory. -/
theorem siblings_in_order_byTurns :
    PrefixFree (byTurns.map (·.segments)) ∧
      (ofFiles byTurns).directoryNames = ["lib", "a"] ∧
      ∃ contents, (ofFiles byTurns).lookup? ["lib"] = some (.directory contents) ∧
        contents.names = ["x.js", "w", "b.js"] := by
  have hfree : PrefixFree (byTurns.map (·.segments)) := by decide
  have hstanding : (ofFiles byTurns).standing ["lib"] = some none := by decide
  obtain ⟨contents, hlookup⟩ := standing_eq_directory_iff.mp hstanding
  obtain ⟨hnames, hdirectories⟩ := (siblings_in_order byTurns).2 hfree
  refine ⟨hfree, ?_, contents, hlookup, ?_⟩
  · rw [hdirectories]
    decide
  · rw [hnames _ _ hlookup]
    decide

end Neaten.Tree
