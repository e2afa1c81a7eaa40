import Mathlib.Data.List.Induction
import Neaten.Proofs.FileSystem.Changes

/-! # Everything stands in a directory

    In a well-formed file system whatever stands at a location stands in a
    directory, and so does that directory, up to the root.  Every call keeps
    this, whether it succeeds or fails.

    It also decides where a path leads: once a directory stands where a path
    that only goes down ends, it can be walked. -/

namespace Neaten.FileSystem

/-! ## Above and below -/

section

variable {fs fs' : FileSystem} {l more : Location}

/-- Above whatever stands anywhere are directories. -/
theorem WellFormed.get?_above (hfs : fs.WellFormed) (hne : more ≠ [])
    (hl : (fs.get? (l ++ more)).isSome) : fs.get? l = some .directory := by
  induction more using List.reverseRecOn with
  | nil => exact absurd rfl hne
  | append_singleton front name ih =>
    rw [← List.append_assoc] at hl
    have hfront : fs.get? (l ++ front) = some .directory := hfs _ name hl
    by_cases hnil : front = []
    · rwa [hnil, List.append_nil] at hfront
    · exact ih hnil (by rw [hfront]; rfl)

/-- A directory stands in directories. -/
theorem WellFormed.get?_directory (hfs : fs.WellFormed)
    (hl : fs.get? (l ++ more) = some .directory) : fs.get? l = some .directory := by
  by_cases hnil : more = []
  · rwa [hnil, List.append_nil] at hl
  · exact hfs.get?_above hnil (by rw [hl]; rfl)

/-- The step up from a directory leads to a directory. -/
theorem WellFormed.get?_dropLast (hfs : fs.WellFormed) (hl : fs.get? l = some .directory) :
    fs.get? l.dropLast = some .directory := by
  induction l using List.reverseRecOn with
  | nil => exact hl
  | append_singleton front name _ =>
    rw [List.dropLast_concat]
    exact hfs.get?_directory hl

/-- What is put into a directory stands in one, and so does what is below it
    unless a directory gives way. -/
theorem WellFormed.put (hfs : fs.WellFormed) {name : Text} {e : Entry}
    (hl : fs.get? l = some .directory)
    (hkept : fs.get? (l ++ [name]) = some .directory → e = .directory) :
    (fs.put (l ++ [name]) e).WellFormed := by
  intro m last hm
  by_cases hplace : m ++ [last] = l ++ [name]
  · obtain ⟨rfl, -⟩ := List.append_inj' hplace rfl
    rw [get?_put_of_ne _ _ (by simp)]
    exact hl
  · rw [get?_put_of_ne _ _ hplace] at hm
    have habove : fs.get? m = some .directory := hfs m last hm
    by_cases hself : m = l ++ [name]
    · subst hself
      rw [get?_put_self _ _ (by simp), hkept habove]
    · rw [get?_put_of_ne _ _ hself]
      exact habove

/-- A file system is well formed if each of its entries stands in a directory. -/
theorem wellFormed_of_entries
    (h : ∀ entry ∈ fs.entries, fs.get? entry.1.dropLast = some .directory) : fs.WellFormed := by
  intro l name hl
  obtain ⟨e, he⟩ := Option.isSome_iff_exists.mp hl
  have hlookup : fs.entries.lookup (l ++ [name]) = some e := by
    cases l with
    | nil => exact he
    | cons _ _ => exact he
  obtain ⟨before, after, hentries, -⟩ := List.lookup_eq_some_iff.mp hlookup
  have := h (l ++ [name], e) (by rw [hentries]; simp)
  rwa [List.dropLast_concat] at this

end

/-! ## Walking -/

/-- A walk is made in as many parts as one likes. -/
theorem walk_append (fs : FileSystem) (l : Location) (front back : List Text) :
    fs.walk l (front ++ back) = (fs.walk l front >>= fun m => fs.walk m back) := by
  induction front generalizing l with
  | nil => rfl
  | cons piece rest ih =>
    rw [List.cons_append, walk, walk]
    cases fs.get? l with
    | none => rfl
    | some e =>
      cases e with
      | file data => rfl
      | directory => exact ih (step l piece)

/-- A walk ends at a directory or at a name in one. -/
theorem WellFormed.of_walk_eq_ok {fs : FileSystem} (hfs : fs.WellFormed) {l m : Location}
    {pieces : List Text} (hl : pieces = [] → fs.get? l = some .directory)
    (hwalk : fs.walk l pieces = .ok m) :
    fs.get? m = some .directory ∨
      ∃ front name, m = front ++ [name] ∧ fs.get? front = some .directory := by
  induction pieces generalizing l with
  | nil =>
    obtain rfl : l = m := Except.ok.inj hwalk
    exact .inl (hl rfl)
  | cons piece rest ih =>
    rw [walk] at hwalk
    split at hwalk
    · cases hwalk
    · cases hwalk
    · next hdir =>
      by_cases hrest : rest = []
      · subst hrest
        obtain rfl : step l piece = m := Except.ok.inj hwalk
        unfold step
        split
        · exact .inl hdir
        · split
          · exact .inl (hfs.get?_dropLast hdir)
          · exact .inr ⟨l, piece, rfl, hdir⟩
      · exact ih (fun hnil => absurd hnil hrest) hwalk

/-- A path that is not empty starts from the root or takes a step. -/
theorem steps_ne_nil {path : Text} (hne : path ≠ []) (hrel : Path.isAbsolute path = false) :
    steps path ≠ [] := by
  cases path with
  | nil => exact absurd rfl hne
  | cons c rest =>
    have hc : c ≠ '/' := by simpa [Path.isAbsolute] using hrel
    unfold steps
    rw [Text.split_cons_of_ne hc]
    cases hs : Text.split '/' rest with
    | nil => exact absurd hs (Text.split_ne_nil '/' rest)
    | cons p ps => simp

/-- A path that leads anywhere leads to a directory or to a name in one. -/
theorem WellFormed.of_resolve_eq_ok {fs : FileSystem} (hfs : fs.WellFormed) {cwd l : Location}
    {path : Text} (h : fs.resolve cwd path = .ok l) :
    fs.get? l = some .directory ∨
      ∃ front name, l = front ++ [name] ∧ fs.get? front = some .directory := by
  unfold resolve at h
  split at h
  · cases h
  · next hne =>
    refine hfs.of_walk_eq_ok (fun hnil => ?_) h
    cases habsolute : Path.isAbsolute path with
    | true => rfl
    | false => exact absurd hnil (steps_ne_nil hne habsolute)

/-! ## What every call keeps -/

/-- A property of file systems that is kept whenever a directory is made or a
    file is written. -/
structure Keeps (cwd : Location) (p : FileSystem → Prop) : Prop where
  made : ∀ {fs fs' path}, p fs → fs.makeDirectory cwd path = .ok fs' → p fs'
  written : ∀ {fs fs' path data}, p fs → fs.write cwd path data = .ok fs' → p fs'

section

variable {cwd : Location} {p : FileSystem → Prop} (hp : Keeps cwd p) {fs : FileSystem}

include hp

theorem Keeps.makeDirectories (path : Text) (h : p fs) : p (fs.makeDirectories cwd path).2 := by
  fun_induction FileSystem.makeDirectories fs cwd path with
  | case1 => exact h
  | case2 path above _ fs' hmade => exact hp.made h hmade
  | case3 path above _ _ e fs' hdirs ih =>
    rw [hdirs] at ih
    exact ih
  | case4 path above _ _ fs₁ hdirs fs₂ hmade ih =>
    rw [hdirs] at ih
    exact hp.made ih hmade
  | case5 path above _ _ fs₁ hdirs e _ ih =>
    rw [hdirs] at ih
    exact ih
  | case6 => exact h

theorem Keeps.ensureDirectory (path : Text) (h : p fs) : p (fs.ensureDirectory cwd path).2 := by
  unfold FileSystem.ensureDirectory
  split
  · exact hp.makeDirectories path h
  · split <;> exact h

theorem Keeps.ensureParent (path : Text) (h : p fs) : p (fs.ensureParent cwd path).2 := by
  unfold FileSystem.ensureParent
  split
  · exact h
  · split
    · exact h
    · exact hp.ensureDirectory _ h

theorem Keeps.save (path text : Text) (h : p fs) : p (fs.save cwd path text).2 := by
  have hparent := hp.ensureParent path h
  unfold FileSystem.save
  split
  · next hfail => rwa [hfail] at hparent
  · next hmade =>
    rw [hmade] at hparent
    split
    · exact hparent
    · next hwrite => exact hp.written hparent hwrite

theorem Keeps.saveAll (pairs : List (Text × Text)) (h : p fs) :
    p (fs.saveAll cwd pairs).2 := by
  induction pairs generalizing fs with
  | nil => exact h
  | cons pair rest ih =>
    obtain ⟨path, text⟩ := pair
    have hsave := hp.save path text h
    unfold FileSystem.saveAll
    split
    · next hfail => rwa [hfail] at hsave
    · next hsaved =>
      rw [hsaved] at hsave
      exact ih hsave

end

/-- Every call keeps a file system well formed. -/
theorem keeps_wellFormed (cwd : Location) : Keeps cwd WellFormed where
  made := by
    intro fs fs' path hfs hmade
    unfold makeDirectory at hmade
    obtain ⟨l, hl, hmade⟩ := of_bind_eq_ok hmade
    split at hmade
    · cases hmade
    · next hnone =>
      obtain rfl := Except.ok.inj hmade
      rcases hfs.of_resolve_eq_ok hl with hdir | ⟨front, name, rfl, hfront⟩
      · rw [hnone] at hdir
        cases hdir
      · exact hfs.put hfront fun _ => rfl
  written := by
    intro fs fs' path data hfs hwrite
    obtain ⟨hl, hno, -, rfl⟩ := of_write_eq_ok hwrite
    rcases hfs.of_resolve_eq_ok hl with hdir | ⟨front, name, heq, hfront⟩
    · exact absurd hdir hno
    · rw [heq] at hno ⊢
      exact hfs.put hfront fun hdir => absurd hdir hno

end Neaten.FileSystem
