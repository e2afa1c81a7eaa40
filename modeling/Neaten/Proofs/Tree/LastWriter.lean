import Mathlib.Data.List.Induction
import Neaten.Proofs.Tree.Insertion

/-! # The last writer wins

    What stands at a path of a tree of files is decided by one file: the last
    one whose path is comparable with it.  That file stands there itself, or it
    lies below and there is a directory, or it lies above and there is nothing.

    So a file can get lost.  One that lies in a directory is no longer found
    after a later file has taken the place of the directory, until something
    comes in at its path or below once more. -/

namespace Neaten.Tree

/-! ## The file that decides -/

/-- The last file whose path is comparable with `p`. -/
def lastWriter? (files : List SourceFile) (p : List Text) : Option SourceFile :=
  files.reverse.find? fun f => f.segments ≠ [] ∧ Comparable f.segments p

theorem lastWriter?_concat (files : List SourceFile) (f : SourceFile) (p : List Text) :
    lastWriter? (files ++ [f]) p =
      if f.segments ≠ [] ∧ Comparable f.segments p then some f else lastWriter? files p := by
  unfold lastWriter?
  rw [List.reverse_append, List.reverse_singleton, List.singleton_append, List.find?_cons]
  by_cases h : f.segments ≠ [] ∧ Comparable f.segments p
  · rw [if_pos h, decide_eq_true h]
  · rw [if_neg h, decide_eq_false h]

/-- The last writer is comparable, and no file after it is. -/
theorem lastWriter?_eq_some_iff {files : List SourceFile} {p : List Text} {f : SourceFile} :
    lastWriter? files p = some f ↔
      (f.segments ≠ [] ∧ Comparable f.segments p) ∧
        ∃ before after, files = before ++ f :: after ∧
          ∀ g ∈ after, g.segments ≠ [] → ¬ Comparable g.segments p := by
  unfold lastWriter?
  rw [List.find?_eq_some_iff_append, decide_eq_true_iff]
  refine and_congr_right fun _ => ⟨?_, ?_⟩
  · rintro ⟨back, front, hfiles, hback⟩
    refine ⟨front.reverse, back.reverse, ?_, ?_⟩
    · rw [← List.reverse_reverse files, hfiles]
      simp
    · intro g hg hne hc
      have := hback g (List.mem_reverse.mp hg)
      simp [hne, hc] at this
  · rintro ⟨before, after, rfl, hafter⟩
    refine ⟨after.reverse, before.reverse, by simp, ?_⟩
    intro g hg
    by_cases hne : g.segments = []
    · simp [hne]
    · simp [hne, hafter g (List.mem_reverse.mp hg) hne]

/-- Without a last writer no file is comparable. -/
theorem lastWriter?_eq_none_iff {files : List SourceFile} {p : List Text} :
    lastWriter? files p = none ↔ ∀ f ∈ files, f.segments ≠ [] → ¬ Comparable f.segments p := by
  unfold lastWriter?
  simp [List.find?_eq_none]

/-! ## A whole list of files -/

theorem ofFiles_concat (files : List SourceFile) (f : SourceFile) :
    ofFiles (files ++ [f]) = (ofFiles files).insert f.segments (leafOf f) := by
  unfold ofFiles
  rw [List.foldl_append]
  rfl

/-- What stands at a path is what the last writer left there. -/
theorem standing_ofFiles (files : List SourceFile) {p : List Text} (hp : p ≠ []) :
    (ofFiles files).standing p =
      (lastWriter? files p).bind fun f => leftBy (leafOf f) f.segments p := by
  -- From the back, since the last insertion decides.
  induction files using List.reverseRecOn with
  | nil =>
    obtain ⟨first, rest, rfl⟩ := List.exists_cons_of_ne_nil hp
    rfl
  | append_singleton files f ih =>
    rw [ofFiles_concat, lastWriter?_concat]
    by_cases hf : f.segments = []
    · -- A file without segments goes nowhere.
      rw [if_neg (fun h => h.1 hf), hf]
      exact ih
    · rw [standing_insert _ _ hf hp]
      by_cases hc : Comparable f.segments p
      · rw [if_pos hc, if_pos ⟨hf, hc⟩]
        rfl
      · rw [if_neg hc, if_neg (fun h => hc h.2)]
        exact ih

/-! ## What is left -/

theorem leftBy_eq_file_iff {leaf left : Leaf} {place p : List Text} :
    leftBy leaf place p = some (some left) ↔ place = p ∧ left = leaf := by
  unfold leftBy
  split
  · next h => simp [h, eq_comm]
  · next h => split <;> simp [h]

theorem leftBy_eq_directory_iff {leaf : Leaf} {place p : List Text} :
    leftBy leaf place p = some none ↔ p <+: place ∧ place ≠ p := by
  unfold leftBy
  split
  · next h => simp [h]
  · next h => split <;> simp_all

theorem leftBy_eq_none_iff {leaf : Leaf} {place p : List Text} :
    leftBy leaf place p = none ↔ ¬ p <+: place := by
  unfold leftBy
  split
  · next h => simp [h]
  · next h => split <;> simp_all

/-! ## What stands at a path -/

theorem lookup?_ofFiles_eq_file_iff (files : List SourceFile) {p : List Text} (hp : p ≠ [])
    (leaf : Leaf) :
    (ofFiles files).lookup? p = some (.file leaf) ↔
      ∃ f, lastWriter? files p = some f ∧ f.segments = p ∧ leaf = leafOf f := by
  rw [← standing_eq_file_iff, standing_ofFiles files hp, Option.bind_eq_some_iff]
  simp only [leftBy_eq_file_iff]

theorem lookup?_ofFiles_eq_directory_iff (files : List SourceFile) {p : List Text}
    (hp : p ≠ []) :
    (∃ contents, (ofFiles files).lookup? p = some (.directory contents)) ↔
      ∃ f, lastWriter? files p = some f ∧ p <+: f.segments ∧ f.segments ≠ p := by
  rw [← standing_eq_directory_iff, standing_ofFiles files hp, Option.bind_eq_some_iff]
  simp only [leftBy_eq_directory_iff]

theorem lookup?_ofFiles_eq_none_iff (files : List SourceFile) {p : List Text} (hp : p ≠ []) :
    (ofFiles files).lookup? p = none ↔ ∀ f, lastWriter? files p = some f → ¬ p <+: f.segments := by
  rw [← standing_eq_none_iff, standing_ofFiles files hp, Option.bind_eq_none_iff]
  simp only [leftBy_eq_none_iff]

/-- A comparable path that is not a prefix is properly extended. -/
theorem not_prefix_iff_of_comparable {place p : List Text} (hc : Comparable place p) :
    ¬ p <+: place ↔ place <+: p ∧ place ≠ p := by
  constructor
  · intro hn
    exact ⟨hc.resolve_right hn, fun he => hn (he ▸ List.prefix_rfl)⟩
  · rintro ⟨hle, hne⟩ hge
    exact hne (hle.eq_of_length_le hge.length_le)

/-- **The last writer wins**: at a path that starts with `first` stands a file
    just if the last writer has this path, and the file has the label and the
    size of that writer.  A directory stands there just if the last writer lies
    below, and nothing just if it lies above or there is none. -/
theorem lookup?_ofFiles_iff (files : List SourceFile) (first : Text) (rest : List Text) :
    (∀ leaf, (ofFiles files).lookup? (first :: rest) = some (.file leaf) ↔
      ∃ f, lastWriter? files (first :: rest) = some f ∧ f.segments = first :: rest ∧
        leaf = ⟨(Language.ofFileName f.name).label, f.content.length⟩) ∧
    ((∃ contents, (ofFiles files).lookup? (first :: rest) = some (.directory contents)) ↔
      ∃ f, lastWriter? files (first :: rest) = some f ∧
        first :: rest <+: f.segments ∧ f.segments ≠ first :: rest) ∧
    ((ofFiles files).lookup? (first :: rest) = none ↔
      ∀ f, lastWriter? files (first :: rest) = some f →
        f.segments <+: first :: rest ∧ f.segments ≠ first :: rest) := by
  have hp : first :: rest ≠ [] := List.cons_ne_nil first rest
  refine ⟨?_, ?_, ?_⟩
  · intro leaf
    exact lookup?_ofFiles_eq_file_iff files hp leaf
  · exact lookup?_ofFiles_eq_directory_iff files hp
  · rw [lookup?_ofFiles_eq_none_iff files hp]
    refine forall_congr' fun f => imp_congr_right fun hf => ?_
    have hc : Comparable f.segments (first :: rest) := (lastWriter?_eq_some_iff.mp hf).1.2
    exact not_prefix_iff_of_comparable hc

/-- Paths with slashes in front, at the end and side by side. -/
def slashes : List SourceFile :=
  [⟨"b.py", "/a//b.py", "xyz", none⟩, ⟨"c", "docs/c", "", none⟩, ⟨"docs", "//docs/", "1", none⟩]

/-- The segments of a path are what stands between its slashes and is not empty.
    The file at the first path is found with its label and its size, the directory
    around it is one, and what was below the last path gives way to it. -/
theorem lookup?_ofFiles_iff_slashes :
    slashes.map SourceFile.segments =
        [["a".toList, "b.py".toList], ["docs".toList, "c".toList], ["docs".toList]] ∧
      (ofFiles slashes).lookup? ["a".toList, "b.py".toList] = some (.file ⟨"Python", 3⟩) ∧
      (∃ contents, (ofFiles slashes).lookup? ["a".toList] = some (.directory contents)) ∧
      (ofFiles slashes).lookup? ["docs".toList] = some (.file ⟨"Plain text", 1⟩) ∧
      (ofFiles slashes).lookup? ["docs".toList, "c".toList] = none ∧
      (ofFiles slashes).lookup? ["b.py".toList] = none := by
  have hfirst : lastWriter? slashes ["a".toList, "b.py".toList] = slashes[0]? := by decide
  have habove : lastWriter? slashes ["a".toList] = slashes[0]? := by decide
  have hlast : lastWriter? slashes ["docs".toList] = slashes[2]? := by decide
  have hbelow : lastWriter? slashes ["docs".toList, "c".toList] = slashes[2]? := by decide
  have hnone : lastWriter? slashes ["b.py".toList] = none := by decide
  refine ⟨by decide, ?_, ?_, ?_, ?_, ?_⟩
  · exact ((lookup?_ofFiles_iff slashes _ _).1 _).mpr ⟨_, hfirst, by decide, by decide⟩
  · exact (lookup?_ofFiles_iff slashes _ _).2.1.mpr ⟨_, habove, by decide, by decide⟩
  · exact ((lookup?_ofFiles_iff slashes _ _).1 _).mpr ⟨_, hlast, by decide, by decide⟩
  · refine (lookup?_ofFiles_iff slashes _ _).2.2.mpr ?_
    intro f hf
    obtain rfl := Option.some.inj (hbelow.symm.trans hf)
    exact ⟨by decide, by decide⟩
  · refine (lookup?_ofFiles_iff slashes _ _).2.2.mpr ?_
    intro f hf
    cases hnone.symm.trans hf

/-! ## Files that get lost -/

/-- Among some files comes one that lies above `p`, and none after it lies at
    `p` or below. -/
def Overwritten (p : List Text) (files : List SourceFile) : Prop :=
  ∃ front g back, files = front ++ g :: back ∧
    (g.segments ≠ [] ∧ g.segments <+: p ∧ g.segments ≠ p) ∧ ∀ h ∈ back, ¬ p <+: h.segments

/-- Something stands at a path just if its last writer reaches it. -/
theorem isSome_lookup?_ofFiles (files : List SourceFile) {p : List Text} (hp : p ≠ []) :
    ((ofFiles files).lookup? p).isSome ↔ ∃ f, lastWriter? files p = some f ∧ p <+: f.segments := by
  rw [Option.isSome_iff_ne_none, ne_eq, lookup?_ofFiles_eq_none_iff files hp]
  simp only [not_forall, not_not, exists_prop]

/-- After a file at `p`, the last writer of `p` is that file or a later one. -/
theorem lastWriter?_append_cons (before : List SourceFile) (f : SourceFile)
    (after : List SourceFile) {p : List Text} (hf : f.segments ≠ [])
    (hc : Comparable f.segments p) :
    lastWriter? (before ++ f :: after) p = some ((lastWriter? after p).getD f) := by
  unfold lastWriter?
  rw [List.reverse_append, List.reverse_cons, List.append_assoc, List.find?_append]
  cases List.find? (fun f => decide (f.segments ≠ [] ∧ Comparable f.segments p)) after.reverse with
  | some g => rfl
  | none => simp [hf, hc]

theorem mem_of_lastWriter?_eq_some {files : List SourceFile} {p : List Text} {f : SourceFile}
    (h : lastWriter? files p = some f) : f ∈ files := by
  obtain ⟨-, before, after, rfl, -⟩ := lastWriter?_eq_some_iff.mp h
  exact List.mem_append_cons_self

/-- Of an overwritten path the last writer lies above. -/
theorem lastWriter?_of_overwritten {files : List SourceFile} {p : List Text}
    (h : Overwritten p files) : ∃ f, lastWriter? files p = some f ∧ ¬ p <+: f.segments := by
  obtain ⟨front, g, back, rfl, ⟨hg, hle, hne⟩, hback⟩ := h
  rw [lastWriter?_append_cons front g back hg (Or.inl hle)]
  refine ⟨_, rfl, ?_⟩
  cases hw : lastWriter? back p with
  | none => exact (not_prefix_iff_of_comparable (Or.inl hle)).mpr ⟨hle, hne⟩
  | some w => exact hback w (mem_of_lastWriter?_eq_some hw)

/-- A path whose last writer lies above is overwritten. -/
theorem overwritten_of_lastWriter? {files : List SourceFile} {p : List Text} {f : SourceFile}
    (hp : p ≠ []) (h : lastWriter? files p = some f) (hn : ¬ p <+: f.segments) :
    Overwritten p files := by
  obtain ⟨⟨hf, hc⟩, before, after, hfiles, hafter⟩ := lastWriter?_eq_some_iff.mp h
  have habove : f.segments <+: p ∧ f.segments ≠ p := (not_prefix_iff_of_comparable hc).mp hn
  refine ⟨before, f, after, hfiles, ⟨hf, habove⟩, ?_⟩
  intro g hg hle
  have hne : g.segments ≠ [] := fun he => hp (List.prefix_nil.mp (he ▸ hle))
  exact hafter g hg hne (Or.inr hle)

/-- **A file is found unless it is overwritten**: something stands at the path
    of a file just if no later file lies above it with nothing at the path or
    below coming in after that.  Where a directory stands there, some other
    file lies below. -/
theorem isSome_lookup?_segments_iff (before : List SourceFile) (f : SourceFile)
    (after : List SourceFile) (hf : f.segments ≠ []) :
    (((ofFiles (before ++ f :: after)).lookup? f.segments).isSome ↔
      ¬ Overwritten f.segments after) ∧
    ∀ contents, (ofFiles (before ++ f :: after)).lookup? f.segments = some (.directory contents) →
      ∃ g ∈ before ++ f :: after, f.segments <+: g.segments ∧ g.segments ≠ f.segments := by
  -- Since `f` is comparable with its own path, the last writer is `f` or comes later.
  have hself : Comparable f.segments f.segments := Or.inl List.prefix_rfl
  have hlast := lastWriter?_append_cons before f after hf hself
  constructor
  · rw [isSome_lookup?_ofFiles _ hf, hlast]
    constructor
    · rintro ⟨w, hw, hle⟩ hover
      obtain ⟨g, hg, hn⟩ := lastWriter?_of_overwritten hover
      rw [hg, Option.getD_some] at hw
      obtain rfl := Option.some.inj hw
      exact hn hle
    · intro hover
      refine ⟨_, rfl, ?_⟩
      cases hw : lastWriter? after f.segments with
      | none => exact List.prefix_rfl
      | some w =>
        by_contra hn
        exact hover (overwritten_of_lastWriter? hf hw hn)
  · intro contents hfound
    obtain ⟨g, hg, hbelow⟩ := (lookup?_ofFiles_eq_directory_iff _ hf).mp ⟨contents, hfound⟩
    exact ⟨g, mem_of_lastWriter?_eq_some hg, hbelow⟩

/-- A file without contents at a path. -/
def blankAt (path : Text) : SourceFile :=
  { name := Text.lastPiece '/' path, path, content := [], formatted := none }

/-- A file that is put in again after its directory was overwritten is found. -/
theorem isSome_lookup?_segments_restored :
    (blankAt "a/b").segments ≠ [] ∧
      ((ofFiles ([] ++ blankAt "a/b" :: [blankAt "a", blankAt "a/b/c"])).lookup?
        (blankAt "a/b").segments).isSome := by
  have hf : (blankAt "a/b").segments ≠ [] := by decide
  refine ⟨hf, ((isSome_lookup?_segments_iff [] _ _ hf).1).mpr ?_⟩
  intro hover
  obtain ⟨w, hw, hn⟩ := lastWriter?_of_overwritten hover
  have : lastWriter? [blankAt "a", blankAt "a/b/c"] (blankAt "a/b").segments =
      some (blankAt "a/b/c") := by decide
  rw [this] at hw
  obtain rfl := Option.some.inj hw
  exact hn (by decide)

/-- Not every file is found: one that takes the place of a directory drops what
    the directory held. -/
theorem not_forall_isSome_lookup?_segments :
    ¬ ∀ (files : List SourceFile), ∀ f ∈ files, f.segments ≠ [] →
      ((ofFiles files).lookup? f.segments).isSome := by
  intro h
  have := h [blankAt "docs/guide.md", blankAt "docs"] (blankAt "docs/guide.md") (by simp)
    (by decide)
  revert this
  decide

end Neaten.Tree
