import Neaten.Place
import Neaten.Proofs.FileSystem.FailedSaves

/-! # Paths of locations

    A location of proper names is written as a path that leads there from any
    working directory.  On such paths going up and down is what it is on
    locations, and in a well-formed file system what stands at such a path is
    what stands at the location. -/

namespace Neaten

namespace Location

variable {l : Location} {name : Text}

/-- The names of a location are the steps of its path. -/
theorem steps_path (h : ∀ n ∈ l, Path.IsName n) : FileSystem.steps l.path = l := by
  have hroot : FileSystem.steps l.path = FileSystem.steps (['/'].intercalate l) :=
    FileSystem.steps_append_cons [] _
  rw [hroot, FileSystem.steps_intercalate fun n hn => (h n hn).no_separator]
  exact List.filter_eq_self.mpr fun n hn => by simpa using (h n hn).ne_nil

/-- So locations with the same path are the same. -/
theorem path_inj {m : Location} (hl : ∀ n ∈ l, Path.IsName n) (hm : ∀ n ∈ m, Path.IsName n)
    (h : l.path = m.path) : l = m := by
  rw [← steps_path hl, h, steps_path hm]

/-! ## Going down and up -/

theorem path_name (name : Text) : path [name] = '/' :: name := by
  simp [path, List.intercalate]

theorem path_concat (hne : l ≠ []) (name : Text) : path (l ++ [name]) = l.path ++ '/' :: name := by
  have hname : ['/'].intercalate [name] = name := by simp [List.intercalate]
  rw [path, Text.intercalate_append '/' hne (List.cons_ne_nil name []), hname]
  rfl

/-- Only the path of the root ends in a separator. -/
theorem endsInSlash_path_concat (l : Location) (h : Path.IsName name) :
    FileSystem.endsInSlash (path (l ++ [name])) = false := by
  have hjoin : ∃ base, path (l ++ [name]) = Path.join base name := by
    by_cases hne : l = []
    · refine ⟨['/'], ?_⟩
      rw [hne, List.nil_append, path_name, Path.join_piece _ h.isPiece, if_pos (.inr rfl)]
      rfl
    · refine ⟨l.path ++ ['/'], ?_⟩
      rw [path_concat hne, Path.join_piece _ h.isPiece, if_pos (.inr List.getLast?_concat),
        List.append_assoc]
      rfl
  obtain ⟨base, hbase⟩ := hjoin
  rw [hbase]
  exact FileSystem.endsInSlash_join base h

/-- A name below the path of a location leads to the location below. -/
theorem join_path (h : ∀ n ∈ l, Path.IsName n) (hname : Path.IsName name) :
    Path.join l.path name = path (l ++ [name]) := by
  rw [Path.join_piece _ hname.isPiece]
  rcases List.eq_nil_or_concat l with rfl | ⟨front, last, rfl⟩
  · rw [if_pos (.inr rfl), List.nil_append, path_name]
    rfl
  · rw [List.concat_eq_append] at h ⊢
    have hend := endsInSlash_path_concat front (h last (by simp))
    have hne : front ++ [last] ≠ [] := by simp
    rw [path_concat hne, if_neg]
    rintro (hnil | hslash)
    · cases hnil
    · simp [FileSystem.endsInSlash, hslash] at hend

theorem dropTrivialEnd_names (h : ∀ n ∈ l, Path.IsName n) : Path.dropTrivialEnd l = l := by
  unfold Path.dropTrivialEnd
  cases hl : l.reverse with
  | nil => simpa using hl
  | cons last front =>
    have hlast := h last (List.mem_reverse.mp (by simp [hl]))
    rw [List.dropWhile_cons_of_neg (by simp [hlast.isTrivial_eq_false]), ← hl,
      List.reverse_reverse]

theorem parent?_path_nil : Path.parent? (path []) = none := rfl

/-- The path above the path of a location is that of the location above. -/
theorem parent?_path_concat (h : ∀ n ∈ l, Path.IsName n) (hname : Path.IsName name) :
    Path.parent? (path (l ++ [name])) = some l.path := by
  have hall : ∀ n ∈ l ++ [name], Path.IsName n := by
    intro n hn
    rcases List.mem_append.mp hn with hn | hn
    · exact h n hn
    · exact List.mem_singleton.mp hn ▸ hname
  have hne : l ++ [name] ≠ [] := by simp
  have hcut : Path.cutLead (path (l ++ [name])) =
      (some .root, ['/'].intercalate (l ++ [name])) := rfl
  have hpieces : Path.dropTrivialEnd (Text.split '/' (['/'].intercalate (l ++ [name]))) =
      l ++ [name] := by
    rw [Text.split_intercalate hne fun n hn => (hall n hn).no_separator,
      dropTrivialEnd_names hall]
  rw [Path.parent?, hcut]
  dsimp only
  rw [hpieces]
  split
  · next heq _ => exact absurd heq hne
  · next heq _ => exact absurd heq hne
  · rw [List.dropLast_concat, dropTrivialEnd_names h]
    simp [path]

/-- The paths above the path of a location are those of the locations above. -/
theorem upward_path (h : ∀ n ∈ l, Path.IsName n) :
    Path.upward l.path = l.upward.map path := by
  induction l using List.reverseRecOn with
  | nil => rw [Path.upward_of_parent?_eq_none parent?_path_nil]; rfl
  | append_singleton front name ih =>
    have hfront : ∀ n ∈ front, Path.IsName n := fun n hn => h n (List.mem_append_left _ hn)
    rw [Path.upward_of_parent? (parent?_path_concat hfront (h name (by simp))), upward_concat,
      List.map_cons, ih hfront]

/-- Above a location are the locations that it starts with. -/
theorem mem_upward_iff {m : Location} : m ∈ l.upward ↔ m <+: l := by
  induction l using List.reverseRecOn with
  | nil => simp
  | append_singleton front name ih =>
    rw [upward_concat, List.mem_cons, ih, List.prefix_concat_iff]

/-- The paths above the path of a location are those of what it starts with. -/
theorem mem_upward_path_iff (h : ∀ n ∈ l, Path.IsName n) {p : Text} :
    p ∈ Path.upward l.path ↔ ∃ m : Location, m <+: l ∧ m.path = p := by
  rw [upward_path h, List.mem_map]
  simp only [mem_upward_iff]

theorem path_mem_upward_iff {m : Location} (hl : ∀ n ∈ l, Path.IsName n)
    (hm : ∀ n ∈ m, Path.IsName n) : m.path ∈ Path.upward l.path ↔ m <+: l := by
  rw [mem_upward_path_iff hl]
  constructor
  · rintro ⟨other, hother, hpath⟩
    exact path_inj (fun n hn => hl n (hother.subset hn)) hm hpath ▸ hother
  · exact fun h => ⟨m, h, rfl⟩

end Location

namespace FileSystem

variable {fs : FileSystem} {cwd l : Location}

/-! ## What stands at the path of a location -/

theorem foldl_step_names {names : List Text} (h : ∀ n ∈ names, Path.IsName n) (m : Location) :
    names.foldl step m = m ++ names := by
  induction names generalizing m with
  | nil => simp
  | cons name rest ih =>
    have hname := h name List.mem_cons_self
    rw [List.foldl_cons, step, if_neg hname.ne_current, if_neg hname.ne_parent,
      ih fun n hn => h n (List.mem_cons_of_mem name hn), List.append_assoc]
    rfl

/-- The path of a location leads there. -/
theorem locate_path (cwd : Location) (h : ∀ n ∈ l, Path.IsName n) : locate cwd l.path = l := by
  rw [locate, Location.steps_path h, foldl_step_names h]
  rfl

/-- It can be followed if something stands there, because that stands in
    directories. -/
theorem WellFormed.resolve_path (hfs : fs.WellFormed) (cwd : Location)
    (h : ∀ n ∈ l, Path.IsName n) (hsome : (fs.get? l).isSome) :
    fs.resolve cwd l.path = .ok l := by
  rcases List.eq_nil_or_concat l with rfl | ⟨front, name, rfl⟩
  · rfl
  · rw [List.concat_eq_append] at h hsome ⊢
    have hanchored : Anchored fs cwd (Location.path (front ++ [name])) := by
      refine anchored_of_forall_ne fun n hn => ?_
      rw [Location.steps_path h] at hn
      exact (h n hn).ne_parent
    have hresolve := hanchored.resolve_of_isSome hfs (Location.steps_path h)
      (h name (by simp)).ne_current (by rwa [locate_path cwd h])
    rwa [locate_path cwd h] at hresolve

/-- A file stands at a path just if the path leads to one and does not ask for a
    directory. -/
theorem stat_eq_file_iff {path : Text} {data : Bytes} : fs.stat cwd path = .ok (.file data) ↔
    fs.resolve cwd path = .ok (locate cwd path) ∧
      fs.get? (locate cwd path) = some (.file data) ∧ endsInSlash path = false := by
  unfold stat
  constructor
  · intro h
    obtain ⟨l, hl, hentry⟩ := of_bind_eq_ok h
    obtain rfl := eq_locate_of_resolve hl
    split at hentry
    · cases hentry
    · cases hentry
    · next hfile =>
      split at hentry
      · cases hentry
      · next hend =>
        obtain rfl := Entry.file.inj (Except.ok.inj hentry)
        exact ⟨hl, hfile, by simpa using hend⟩
  · rintro ⟨hl, hfile, hend⟩
    rw [hl]
    simp [hfile, hend, bind, Except.bind, pure, Except.pure]

theorem isFile_iff {path : Text} :
    fs.isFile cwd path = true ↔ ∃ data, fs.stat cwd path = .ok (.file data) := by
  unfold isFile
  split
  · next data h => simp [h]
  · next h => simpa using h

theorem WellFormed.isFile_path_iff (hfs : fs.WellFormed) (cwd : Location)
    (h : ∀ n ∈ l, Path.IsName n) :
    fs.isFile cwd l.path = true ↔ ∃ data, fs.get? l = some (.file data) := by
  rw [isFile_iff]
  refine exists_congr fun data => ?_
  rw [stat_eq_file_iff, locate_path cwd h]
  constructor
  · exact fun hstat => hstat.2.1
  · intro hfile
    refine ⟨hfs.resolve_path cwd h (by simp [hfile]), hfile, ?_⟩
    rcases List.eq_nil_or_concat l with rfl | ⟨front, name, rfl⟩
    · cases hfile
    · rw [List.concat_eq_append] at h ⊢
      exact Location.endsInSlash_path_concat front (h name (by simp))

theorem WellFormed.isDirectory_path_iff (hfs : fs.WellFormed) (cwd : Location)
    (h : ∀ n ∈ l, Path.IsName n) :
    fs.isDirectory cwd l.path = true ↔ fs.get? l = some .directory := by
  rw [isDirectory_iff, stat_eq_directory_iff, locate_path cwd h]
  exact and_iff_right_of_imp fun hdir => hfs.resolve_path cwd h (by simp [hdir])

end FileSystem

end Neaten
