import Neaten.Config.Load
import Neaten.Proofs.FileSystem.LocationPaths

/-! # Which project's file is found

    The search asks a directory and those above it, one after another, and ends
    at a file or at a repository, whichever comes first.  So what it finds is
    the file of the deepest directory that has one, unless a directory further
    down holds a repository; the directory of the repository may have the file
    itself.

    The directories above are those of the path.  For the path of a location
    they are the locations above, and what is asked is what stands there. -/

namespace Neaten

namespace Path

/-! ## The paths above a path -/

/-- The paths from one on are those above that one. -/
theorem eq_upward_of_append {path directory : Text} {below above : List Text}
    (h : upward path = below ++ directory :: above) : directory :: above = upward directory := by
  induction path using upward.induct generalizing below with
  | case1 path ih =>
    cases below with
    | nil =>
      obtain ⟨more, hmore⟩ := upward_eq_cons path
      obtain rfl : path = directory := (List.cons.inj (hmore.symm.trans h)).1
      exact h.symm
    | cons first rest =>
      cases hparent : parent? path with
      | none =>
        rw [upward_of_parent?_eq_none hparent] at h
        exact absurd (List.cons.inj h).2 (by simp)
      | some next =>
        rw [upward_of_parent? hparent] at h
        exact ih next hparent (List.cons.inj h).2

/-- A path from which another is reached upwards is not above that one. -/
theorem not_mem_upward_of_append {path directory other : Text} {below above : List Text}
    (h : upward path = below ++ directory :: above) (hother : other ∈ below) :
    other ∉ upward directory := by
  rw [← eq_upward_of_append h]
  intro hmem
  have hpairs := pairwise_upward path
  rw [h] at hpairs
  exact absurd ((List.pairwise_append.mp hpairs).2.2 other hother other hmem) (Nat.lt_irrefl _)

end Path

namespace Config

variable {fs : FileSystem} {cwd : Location} {start directory path : Text}

/-! ## The search -/

/-- The first of some directories with a property comes at once, or after one
    that may come before it. -/
theorem exists_cons_eq_append_iff {p q : Text → Prop} {first : Text} {rest : List Text} :
    (∃ below directory above, first :: rest = below ++ directory :: above ∧ p directory ∧
        ∀ other ∈ below, q other) ↔
      p first ∨ q first ∧ ∃ below directory above, rest = below ++ directory :: above ∧
        p directory ∧ ∀ other ∈ below, q other := by
  constructor
  · rintro ⟨below, directory, above, heq, hp, hbelow⟩
    cases below with
    | nil => exact .inl ((List.cons.inj heq).1 ▸ hp)
    | cons lowest below =>
      obtain ⟨rfl, hrest⟩ := List.cons.inj heq
      obtain ⟨hfirst, hbelow⟩ := List.forall_mem_cons.mp hbelow
      exact .inr ⟨hfirst, below, directory, above, hrest, hp, hbelow⟩
  · rintro (hp | ⟨hfirst, below, directory, above, rfl, hp, hbelow⟩)
    · exact ⟨[], first, rest, rfl, hp, by simp⟩
    · exact ⟨first :: below, directory, above, rfl, hp,
        List.forall_mem_cons.mpr ⟨hfirst, hbelow⟩⟩

/-- The search ends at the first directory that has a file or a repository, and
    finds something if that one has a file. -/
theorem projectFileIn?_eq_some_iff {directories : List Text} :
    projectFileIn? fs cwd directories = some path ↔
      ∃ below directory above, directories = below ++ directory :: above ∧
        (path = Path.join directory projectName ∧ holdsFile fs cwd directory = true) ∧
        ∀ other ∈ below,
          holdsFile fs cwd other = false ∧ holdsRepository fs cwd other = false := by
  induction directories with
  | nil => simp [projectFileIn?]
  | cons first rest ih =>
    rw [exists_cons_eq_append_iff, ← ih, projectFileIn?]
    cases hfile : holdsFile fs cwd first with
    | true =>
      constructor
      · exact fun h => .inl ⟨(Option.some.inj h).symm, rfl⟩
      · rintro (⟨rfl, -⟩ | ⟨⟨hnone, -⟩, -⟩)
        · rfl
        · cases hnone
    | false => cases holdsRepository fs cwd first <;> simp

/-! ## The nearest directory -/

/-- A directory from a path upwards is the nearest one with a file of its own, if
    it is the deepest of those, and no directory below it holds a repository. -/
structure IsNearest (fs : FileSystem) (cwd : Location) (start directory : Text) : Prop where
  upward : directory ∈ Path.upward start
  file : holdsFile fs cwd directory = true
  deepest : ∀ other ∈ Path.upward start, holdsFile fs cwd other = true →
    other ∈ Path.upward directory
  inside : ∀ other ∈ Path.upward start, holdsRepository fs cwd other = true →
    other ∈ Path.upward directory

/-- It is the first one upwards with a file, and none before it has anything. -/
theorem isNearest_iff :
    IsNearest fs cwd start directory ↔
      ∃ below above, Path.upward start = below ++ directory :: above ∧
        holdsFile fs cwd directory = true ∧
        ∀ other ∈ below,
          holdsFile fs cwd other = false ∧ holdsRepository fs cwd other = false := by
  constructor
  · intro h
    obtain ⟨below, above, heq⟩ := List.append_of_mem h.upward
    refine ⟨below, above, heq, h.file, fun other hother => ?_⟩
    have hmem : other ∈ Path.upward start := by rw [heq]; exact List.mem_append_left _ hother
    have hnot := Path.not_mem_upward_of_append heq hother
    exact ⟨Bool.eq_false_iff.mpr fun hfile => hnot (h.deepest other hmem hfile),
      Bool.eq_false_iff.mpr fun hrepository => hnot (h.inside other hmem hrepository)⟩
  · rintro ⟨below, above, heq, hfile, hbelow⟩
    have hrest : ∀ other ∈ Path.upward start, other ∉ below → other ∈ Path.upward directory := by
      intro other hother hnot
      rw [heq] at hother
      rw [← Path.eq_upward_of_append heq]
      exact (List.mem_append.mp hother).resolve_left hnot
    refine ⟨by rw [heq]; simp, hfile, fun other hother hheld => ?_, fun other hother hheld => ?_⟩
    · refine hrest other hother fun hmem => ?_
      rw [(hbelow other hmem).1] at hheld
      cases hheld
    · refine hrest other hother fun hmem => ?_
      rw [(hbelow other hmem).2] at hheld
      cases hheld

/-! ## Directories that are locations -/

theorem isName_projectName : Path.IsName projectName := by decide

theorem isName_repositoryName : Path.IsName repositoryName := by decide

/-- The nearest location with a file of its own, as seen from a location. -/
structure IsNearestAt (fs : FileSystem) (start directory : Location) : Prop where
  upward : directory <+: start
  file : ∃ data, fs.get? (directory ++ [(".codetidy.toml" : Text)]) = some (.file data)
  deepest : ∀ other data, other <+: start →
    fs.get? (other ++ [(".codetidy.toml" : Text)]) = some (.file data) → other <+: directory
  inside : ∀ other, other <+: start →
    fs.get? (other ++ [(".git" : Text)]) = some .directory → other <+: directory

section

variable {l m : Location}

theorem holdsFile_path_iff (hfs : fs.WellFormed) (cwd : Location) (h : ∀ n ∈ l, Path.IsName n) :
    holdsFile fs cwd l.path = true ↔ ∃ data, fs.get? (l ++ [projectName]) = some (.file data) := by
  have hall : ∀ n ∈ l ++ [projectName], Path.IsName n := by
    simpa [or_imp, forall_and] using ⟨h, isName_projectName⟩
  rw [holdsFile, Location.join_path h isName_projectName, hfs.isFile_path_iff cwd hall]

theorem holdsRepository_path_iff (hfs : fs.WellFormed) (cwd : Location)
    (h : ∀ n ∈ l, Path.IsName n) :
    holdsRepository fs cwd l.path = true ↔
      fs.get? (l ++ [repositoryName]) = some .directory := by
  have hall : ∀ n ∈ l ++ [repositoryName], Path.IsName n := by
    simpa [or_imp, forall_and] using ⟨h, isName_repositoryName⟩
  rw [holdsRepository, Location.join_path h isName_repositoryName,
    hfs.isDirectory_path_iff cwd hall]

theorem isNearest_path_iff (hfs : fs.WellFormed) (h : ∀ n ∈ l, Path.IsName n) :
    IsNearest fs cwd l.path directory ↔ ∃ m, directory = m.path ∧ IsNearestAt fs l m := by
  have hnames : ∀ {m : Location}, m <+: l → ∀ n ∈ m, Path.IsName n :=
    fun hm n hn => h n (hm.subset hn)
  constructor
  · rintro ⟨hupward, hfile, hdeepest, hinside⟩
    obtain ⟨m, hm, rfl⟩ := (Location.mem_upward_path_iff h).mp hupward
    have habove : ∀ {other : Location}, other <+: l → other.path ∈ Path.upward m.path →
        other <+: m := fun hother hmem =>
      (Location.path_mem_upward_iff (hnames hm) (hnames hother)).mp hmem
    refine ⟨m, rfl, hm, (holdsFile_path_iff hfs cwd (hnames hm)).mp hfile, ?_, ?_⟩
    · intro other data hother hdata
      have hmem := (Location.path_mem_upward_iff h (hnames hother)).mpr hother
      refine habove hother (hdeepest _ hmem ?_)
      exact (holdsFile_path_iff hfs cwd (hnames hother)).mpr ⟨data, hdata⟩
    · intro other hother hrepository
      have hmem := (Location.path_mem_upward_iff h (hnames hother)).mpr hother
      refine habove hother (hinside _ hmem ?_)
      exact (holdsRepository_path_iff hfs cwd (hnames hother)).mpr hrepository
  · rintro ⟨m, rfl, hm, hfile, hdeepest, hinside⟩
    refine ⟨(Location.path_mem_upward_iff h (hnames hm)).mpr hm,
      (holdsFile_path_iff hfs cwd (hnames hm)).mpr hfile, ?_, ?_⟩
    · intro path hpath hheld
      obtain ⟨other, hother, rfl⟩ := (Location.mem_upward_path_iff h).mp hpath
      obtain ⟨data, hdata⟩ := (holdsFile_path_iff hfs cwd (hnames hother)).mp hheld
      exact (Location.path_mem_upward_iff (hnames hm) (hnames hother)).mpr
        (hdeepest other data hother hdata)
    · intro path hpath hheld
      obtain ⟨other, hother, rfl⟩ := (Location.mem_upward_path_iff h).mp hpath
      exact (Location.path_mem_upward_iff (hnames hm) (hnames hother)).mpr
        (hinside other hother ((holdsRepository_path_iff hfs cwd (hnames hother)).mp hheld))

end

/-! ## What is found -/

/-- **The nearest file is found.**  From any directory, the search finds the file
    of the deepest directory, among that one and those above it, that has one,
    provided that no directory further down holds a repository, and it finds
    nothing just if there is no such directory.  Of a directory at a location
    these are the locations above, and what stands at them decides. -/
theorem finds_nearest_file (fs : FileSystem) (cwd : Location) (start : Text) :
    (∀ path, projectFile? fs cwd start = some path ↔
      ∃ directory, IsNearest fs cwd start directory ∧
        path = Path.join directory projectName) ∧
    (projectFile? fs cwd start = none ↔ ∀ directory, ¬ IsNearest fs cwd start directory) ∧
    ∀ l : Location, start = l.path → (∀ name ∈ l, Path.IsName name) → fs.WellFormed →
      ∀ directory, IsNearest fs cwd start directory ↔
        ∃ m : Location, directory = m.path ∧ IsNearestAt fs l m := by
  have hsome : ∀ path, projectFile? fs cwd start = some path ↔
      ∃ directory, IsNearest fs cwd start directory ∧
        path = Path.join directory projectName := by
    intro path
    rw [projectFile?, projectFileIn?_eq_some_iff]
    simp only [isNearest_iff]
    constructor
    · rintro ⟨below, directory, above, heq, ⟨hpath, hfile⟩, hbelow⟩
      exact ⟨directory, ⟨below, above, heq, hfile, hbelow⟩, hpath⟩
    · rintro ⟨directory, ⟨below, above, heq, hfile, hbelow⟩, hpath⟩
      exact ⟨below, directory, above, heq, ⟨hpath, hfile⟩, hbelow⟩
  refine ⟨hsome, ?_, ?_⟩
  · rw [Option.eq_none_iff_forall_ne_some]
    constructor
    · exact fun hnone directory hnearest => hnone _ ((hsome _).mpr ⟨directory, hnearest, rfl⟩)
    · intro hno path hfound
      obtain ⟨directory, hnearest, -⟩ := (hsome path).mp hfound
      exact hno directory hnearest
  · rintro l rfl hnames hfs directory
    exact isNearest_path_iff hfs hnames

/-- Two repositories within a project, one of them with a file of its own. -/
def nestedRepository : FileSystem where
  entries := [
    (["p"], .directory),
    (["p", ".codetidy.toml"], .file []),
    (["p", "repo"], .directory),
    (["p", "repo", ".git"], .directory),
    (["p", "repo", ".codetidy.toml"], .file []),
    (["p", "repo", "src"], .directory),
    (["p", "lone"], .directory),
    (["p", "lone", ".git"], .directory)]

/-- From below a repository its own file is found, although the directory that
    holds the repository ends the search.  From a repository without a file
    nothing is found, although there is one above. -/
theorem finds_nearest_file_nested :
    (∀ name ∈ (["p", "repo", "src"] : Location), Path.IsName name) ∧
      nestedRepository.WellFormed ∧
      projectFile? nestedRepository [] "/p/repo/src" = some "/p/repo/.codetidy.toml" ∧
      (∃ m : Location, "/p/repo".toList = m.path ∧
        IsNearestAt nestedRepository ["p", "repo", "src"] m) ∧
      projectFile? nestedRepository [] "/p" = some "/p/.codetidy.toml" ∧
      projectFile? nestedRepository [] "/p/lone" = none := by
  have hnames : ∀ name ∈ (["p", "repo", "src"] : Location), Path.IsName name := by decide
  have hfs : nestedRepository.WellFormed := FileSystem.wellFormed_of_entries (by decide)
  have hrepo : IsNearest nestedRepository [] "/p/repo/src" "/p/repo" :=
    ⟨by decide +kernel, by decide +kernel, by decide +kernel, by decide +kernel⟩
  have hproject : IsNearest nestedRepository [] "/p" "/p" :=
    ⟨by decide +kernel, by decide +kernel, by decide +kernel, by decide +kernel⟩
  have hlone : ∀ directory, ¬ IsNearest nestedRepository [] "/p/lone" directory := by
    -- The repository is not within the only directory that has a file.
    have houtside : ∀ directory ∈ Path.upward "/p/lone",
        holdsFile nestedRepository [] directory = true →
          ("/p/lone" : Text) ∉ Path.upward directory := by
      decide +kernel
    rintro directory ⟨hupward, hfile, -, hinside⟩
    refine houtside directory hupward hfile (hinside "/p/lone" ?_ ?_)
    · decide +kernel
    · decide +kernel
  obtain ⟨hsome, -, hlocation⟩ := finds_nearest_file nestedRepository [] "/p/repo/src"
  obtain ⟨hsomeAbove, -, -⟩ := finds_nearest_file nestedRepository [] "/p"
  obtain ⟨-, hnone, -⟩ := finds_nearest_file nestedRepository [] "/p/lone"
  refine ⟨hnames, hfs, (hsome _).mpr ⟨_, hrepo, by decide⟩, ?_,
    (hsomeAbove _).mpr ⟨_, hproject, by decide⟩, hnone.mpr hlone⟩
  exact (hlocation ["p", "repo", "src"] (by decide) hnames hfs "/p/repo").mp hrepo

end Config

end Neaten
