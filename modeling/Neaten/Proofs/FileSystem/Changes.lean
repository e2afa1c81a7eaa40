import Neaten.Proofs.FileSystem.Locations

/-! # What saving changes

    Every call leaves the file system as it was except at named locations: a
    directory may be made where nothing stood, and a file may be written where
    no directory stood.  So directories stay, whatever is saved, and a path
    that led to a location leads there still.

    Saving at a path only writes the file that the path leads to and only makes
    directories that paths above it lead to, whether it succeeds or fails.  Of several
    texts saved at one location the last stays. -/

namespace Neaten.FileSystem

/-! ## Changes -/

/-- What may have become of a location: nothing, a directory where none of
    anything was, or a file where no directory was. -/
inductive Change (dirs files : Location → Prop) (l : Location) :
    Option Entry → Option Entry → Prop
  | same (e : Option Entry) : Change dirs files l e e
  | made (h : dirs l) : Change dirs files l none (some .directory)
  | written {e : Option Entry} (h : files l) (hno : e ≠ some .directory) (data : Bytes) :
    Change dirs files l e (some (.file data))

/-- Nothing has changed but that some directories were made and some files
    written. -/
def ChangesOnly (dirs files : Location → Prop) (fs fs' : FileSystem) : Prop :=
  ∀ l, Change dirs files l (fs.get? l) (fs'.get? l)

/-- No location. -/
def nowhere : Location → Prop := fun _ => False

section

variable {dirs files dirs' files' : Location → Prop} {fs fs' fs'' : FileSystem} {l : Location}

theorem Change.trans {a b c : Option Entry} (h₁ : Change dirs files l a b)
    (h₂ : Change dirs files l b c) : Change dirs files l a c := by
  cases h₁ with
  | same => exact h₂
  | made hdir =>
    cases h₂ with
    | same => exact .made hdir
    | written _ hno => exact absurd rfl hno
  | written hfile hno data =>
    cases h₂ with
    | same => exact .written hfile hno data
    | written hfile' _ data' => exact .written hfile' hno data'

theorem Change.mono {a b : Option Entry} (hdirs : dirs l → dirs' l) (hfiles : files l → files' l)
    (h : Change dirs files l a b) : Change dirs' files' l a b := by
  cases h with
  | same => exact .same _
  | made hdir => exact .made (hdirs hdir)
  | written hfile hno data => exact .written (hfiles hfile) hno data

theorem ChangesOnly.refl (fs : FileSystem) : ChangesOnly dirs files fs fs := fun _ => .same _

theorem ChangesOnly.trans (h₁ : ChangesOnly dirs files fs fs')
    (h₂ : ChangesOnly dirs files fs' fs'') : ChangesOnly dirs files fs fs'' :=
  fun l => (h₁ l).trans (h₂ l)

theorem ChangesOnly.mono (hdirs : ∀ l, dirs l → dirs' l) (hfiles : ∀ l, files l → files' l)
    (h : ChangesOnly dirs files fs fs') : ChangesOnly dirs' files' fs fs' :=
  fun l => (h l).mono (hdirs l) (hfiles l)

/-- A directory that may be made may have been made. -/
theorem changesOnly_put_directory (hdir : dirs l) (hnone : fs.get? l = none) :
    ChangesOnly dirs files fs (fs.put l .directory) := by
  intro m
  by_cases h : m = l
  · subst h
    rw [hnone, get?_put_self]
    · exact .made hdir
    · rintro rfl
      cases hnone
  · rw [get?_put_of_ne _ _ h]
    exact .same _

/-- A file that may be written may have been written. -/
theorem changesOnly_put_file (hfile : files l) (hno : fs.get? l ≠ some .directory)
    (data : Bytes) : ChangesOnly dirs files fs (fs.put l (.file data)) := by
  intro m
  by_cases h : m = l
  · subst h
    rw [get?_put_self]
    · exact .written hfile hno data
    · rintro rfl
      exact hno rfl
  · rw [get?_put_of_ne _ _ h]
    exact .same _

/-! ## What stays -/

/-- A directory stays. -/
theorem ChangesOnly.get?_directory (h : ChangesOnly dirs files fs fs')
    (hl : fs.get? l = some .directory) : fs'.get? l = some .directory := by
  have := h l
  rw [hl] at this
  generalize fs'.get? l = b at this
  cases this with
  | same => rfl
  | written _ hno => exact absurd rfl hno

/-- A file that is not written stays. -/
theorem ChangesOnly.get?_file {data : Bytes} (h : ChangesOnly dirs files fs fs')
    (hl : fs.get? l = some (.file data)) (hfiles : ¬ files l) :
    fs'.get? l = some (.file data) := by
  have := h l
  rw [hl] at this
  generalize fs'.get? l = b at this
  cases this with
  | same => rfl
  | written hfile => exact absurd hfile hfiles

/-- A file that was not written was there before. -/
theorem ChangesOnly.of_get?_file {data : Bytes} (h : ChangesOnly dirs files fs fs')
    (hl : fs'.get? l = some (.file data)) (hfiles : ¬ files l) :
    fs.get? l = some (.file data) := by
  have := h l
  rw [hl] at this
  generalize fs.get? l = a at this
  cases this with
  | same => rfl
  | written hfile => exact absurd hfile hfiles

theorem ChangesOnly.walk_eq_ok (h : ChangesOnly dirs files fs fs') {pieces : List Text}
    {m : Location} (hwalk : fs.walk l pieces = .ok m) : fs'.walk l pieces = .ok m := by
  induction pieces generalizing l with
  | nil => exact hwalk
  | cons piece rest ih =>
    rw [walk] at hwalk ⊢
    split at hwalk
    · cases hwalk
    · cases hwalk
    · next hl =>
      rw [h.get?_directory hl]
      exact ih hwalk

/-- A path that leads to a location leads there still. -/
theorem ChangesOnly.resolve_eq_ok (h : ChangesOnly dirs files fs fs') {cwd : Location}
    {path : Text} (hresolve : fs.resolve cwd path = .ok l) : fs'.resolve cwd path = .ok l := by
  unfold resolve at hresolve ⊢
  split at hresolve
  · cases hresolve
  · next hne =>
    rw [if_neg hne]
    exact h.walk_eq_ok hresolve

end

/-! ## Making directories -/

/-- What goes on after something else succeeds only if that does. -/
theorem of_bind_eq_ok {ε α β : Type} {x : Except ε α} {f : α → Except ε β} {b : β}
    (h : (x >>= f) = .ok b) : ∃ a, x = .ok a ∧ f a = .ok b := by
  cases x with
  | error e => cases h
  | ok a => exact ⟨a, rfl, h⟩

/-- The location of a path, or one on the way there. -/
def UpTo (cwd : Location) (path : Text) (l : Location) : Prop :=
  l = locate cwd path ∨ OnTheWay cwd path l

/-- The location of a path, or of one above it. -/
def AtOrAbove (cwd : Location) (path : Text) (l : Location) : Prop :=
  ∃ above ∈ Path.upward path, l = locate cwd above

/-- The location of a path above another. -/
def Above (cwd : Location) (path : Text) (l : Location) : Prop :=
  ∃ above ∈ (Path.upward path).tail, l = locate cwd above

section

variable {cwd : Location} {path above : Text} {l : Location}

theorem atOrAbove_locate (cwd : Location) (path : Text) :
    AtOrAbove cwd path (locate cwd path) :=
  ⟨path, Path.mem_upward_self path, rfl⟩

theorem Above.atOrAbove (h : Above cwd path l) : AtOrAbove cwd path l := by
  obtain ⟨top, hmem, hl⟩ := h
  exact ⟨top, List.mem_of_mem_tail hmem, hl⟩

theorem AtOrAbove.of_parent? (h : Path.parent? path = some above) (hl : AtOrAbove cwd above l) :
    Above cwd path l := by
  obtain ⟨top, hmem, hl⟩ := hl
  exact ⟨top, by rwa [Path.upward_of_parent? h], hl⟩

/-- What is above a path is passed on the way there. -/
theorem AtOrAbove.upTo (h : AtOrAbove cwd path l) : UpTo cwd path l := by
  obtain ⟨top, hmem, rfl⟩ := h
  induction path using Path.upward.induct with
  | case1 path ih =>
    cases hparent : Path.parent? path with
    | none =>
      rw [Path.upward_of_parent?_eq_none hparent] at hmem
      obtain rfl := List.mem_singleton.mp hmem
      exact .inl rfl
    | some next =>
      rw [Path.upward_of_parent? hparent] at hmem
      rcases List.mem_cons.mp hmem with rfl | hmem
      · exact .inl rfl
      · rcases ih next hparent hmem with heq | hway
        · exact .inr (heq ▸ onTheWay_of_parent? hparent)
        · exact .inr (hway.of_parent? hparent)

theorem Above.onTheWay (h : Above cwd path l) : OnTheWay cwd path l := by
  obtain ⟨top, hmem, rfl⟩ := h
  cases hparent : Path.parent? path with
  | none =>
    rw [Path.upward_of_parent?_eq_none hparent] at hmem
    cases hmem
  | some next =>
    rw [Path.upward_of_parent? hparent] at hmem
    rcases AtOrAbove.upTo ⟨top, hmem, rfl⟩ with heq | hway
    · exact heq ▸ onTheWay_of_parent? hparent
    · exact hway.of_parent? hparent

end

section

variable {fs fs' : FileSystem} {cwd : Location} {path : Text}

theorem changesOnly_makeDirectory (h : fs.makeDirectory cwd path = .ok fs') :
    ChangesOnly (AtOrAbove cwd path) nowhere fs fs' := by
  unfold makeDirectory at h
  obtain ⟨l, hl, h⟩ := of_bind_eq_ok h
  split at h
  · cases h
  · next hnone =>
    obtain rfl := Except.ok.inj h
    obtain rfl := eq_locate_of_resolve hl
    exact changesOnly_put_directory (atOrAbove_locate cwd path) hnone

/-- Making a directory with those above it makes directories at its path and those
    above, whether it succeeds or fails. -/
theorem changesOnly_makeDirectories (fs : FileSystem) (cwd : Location) (path : Text) :
    ChangesOnly (AtOrAbove cwd path) nowhere fs (fs.makeDirectories cwd path).2 := by
  fun_induction makeDirectories fs cwd path with
  | case1 => exact .refl _
  | case2 path above _ fs' hmade => exact changesOnly_makeDirectory hmade
  | case3 path above habove _ e fs' hdirs ih =>
    rw [hdirs] at ih
    exact ih.mono (fun l hl => (hl.of_parent? habove).atOrAbove) fun _ => id
  | case4 path above habove _ fs₁ hdirs fs₂ hmade ih =>
    rw [hdirs] at ih
    have hfirst : ChangesOnly (AtOrAbove cwd path) nowhere fs fs₁ :=
      ih.mono (fun l hl => (hl.of_parent? habove).atOrAbove) fun _ => id
    exact hfirst.trans (changesOnly_makeDirectory hmade)
  | case5 path above habove _ fs' hdirs e _ ih =>
    rw [hdirs] at ih
    exact ih.mono (fun l hl => (hl.of_parent? habove).atOrAbove) fun _ => id
  | case6 => exact .refl _

theorem ChangesOnly.of_makeDirectories {result : Except CallError Unit}
    (h : fs.makeDirectories cwd path = (result, fs')) :
    ChangesOnly (AtOrAbove cwd path) nowhere fs fs' := by
  have hchanges := changesOnly_makeDirectories fs cwd path
  rwa [h] at hchanges

theorem changesOnly_ensureDirectory (fs : FileSystem) (cwd : Location) (path : Text) :
    ChangesOnly (AtOrAbove cwd path) nowhere fs (fs.ensureDirectory cwd path).2 := by
  unfold ensureDirectory
  split
  · exact changesOnly_makeDirectories fs cwd path
  · split <;> exact .refl _

/-- Making sure of the directory above a path makes directories above it. -/
theorem changesOnly_ensureParent (fs : FileSystem) (cwd : Location) (path : Text) :
    ChangesOnly (Above cwd path) nowhere fs (fs.ensureParent cwd path).2 := by
  unfold ensureParent
  split
  · exact .refl _
  · next above habove =>
    split
    · exact .refl _
    · exact (changesOnly_ensureDirectory fs cwd above).mono (fun l hl => hl.of_parent? habove)
        fun _ => id

/-! ## Saving a text -/

/-- A call that writes has found the location of the path, and no directory
    there. -/
theorem of_write_eq_ok {data : Bytes} (h : fs.write cwd path data = .ok fs') :
    fs.resolve cwd path = .ok (locate cwd path) ∧
      fs.get? (locate cwd path) ≠ some .directory ∧ endsInSlash path = false ∧
      fs' = fs.put (locate cwd path) (.file data) := by
  unfold write at h
  obtain ⟨l, hl, h⟩ := of_bind_eq_ok h
  obtain rfl := eq_locate_of_resolve hl
  split at h
  · cases h
  · next hfile =>
    split at h
    · cases h
    · next hend =>
      exact ⟨hl, by simp [hfile], by simpa using hend, (Except.ok.inj h).symm⟩
  · next hnone =>
    split at h
    · cases h
    · next hend =>
      exact ⟨hl, by simp [hnone], by simpa using hend, (Except.ok.inj h).symm⟩

/-- Saving at a path makes directories above it and writes the file that the path
    leads to, whether it succeeds or fails. -/
theorem changesOnly_save (fs : FileSystem) (cwd : Location) (path text : Text) :
    ChangesOnly (Above cwd path) (· = locate cwd path) fs (fs.save cwd path text).2 := by
  have hparent : ChangesOnly (Above cwd path) (· = locate cwd path) fs
      (fs.ensureParent cwd path).2 :=
    (changesOnly_ensureParent fs cwd path).mono (fun _ => id) fun _ => False.elim
  unfold save
  split
  · next f fs₁ hfail =>
    rw [hfail] at hparent
    exact hparent
  · next fs₁ hmade =>
    rw [hmade] at hparent
    split
    · exact hparent
    · next fs₂ hwrite =>
      obtain ⟨-, hno, -, rfl⟩ := of_write_eq_ok hwrite
      refine hparent.trans (changesOnly_put_file ?_ hno _)
      rfl

theorem ChangesOnly.of_save {text : Text} {result : Except Failure Unit}
    (h : fs.save cwd path text = (result, fs')) :
    ChangesOnly (Above cwd path) (· = locate cwd path) fs fs' := by
  have hchanges := changesOnly_save fs cwd path text
  rwa [h] at hchanges

/-- A location on the way to one of some paths. -/
def OnAnyWay (cwd : Location) (paths : List Text) (l : Location) : Prop :=
  ∃ path ∈ paths, OnTheWay cwd path l

/-- The location of one of some paths. -/
def AtAnyEnd (cwd : Location) (paths : List Text) (l : Location) : Prop :=
  ∃ path ∈ paths, l = locate cwd path

/-- However many of some texts are saved, directories are made on the way to
    their paths, and files are written where these lead. -/
theorem changesOnly_saveAll (fs : FileSystem) (cwd : Location) (pairs : List (Text × Text)) :
    ChangesOnly (OnAnyWay cwd (pairs.map Prod.fst)) (AtAnyEnd cwd (pairs.map Prod.fst)) fs
      (fs.saveAll cwd pairs).2 := by
  induction pairs generalizing fs with
  | nil => exact .refl _
  | cons pair rest ih =>
    obtain ⟨path, text⟩ := pair
    have hsave : ChangesOnly (OnAnyWay cwd (path :: rest.map Prod.fst))
        (AtAnyEnd cwd (path :: rest.map Prod.fst)) fs (fs.save cwd path text).2 :=
      (changesOnly_save fs cwd path text).mono (fun l hl => ⟨path, List.mem_cons_self, hl.onTheWay⟩)
        fun l hl => ⟨path, List.mem_cons_self, hl⟩
    unfold saveAll
    split
    · next f fs₁ hfail =>
      rw [hfail] at hsave
      exact hsave
    · next fs₁ hsaved =>
      rw [hsaved] at hsave
      refine hsave.trans ((ih fs₁).mono ?_ ?_)
      · rintro l ⟨other, hmem, hl⟩
        exact ⟨other, List.mem_cons_of_mem path hmem, hl⟩
      · rintro l ⟨other, hmem, hl⟩
        exact ⟨other, List.mem_cons_of_mem path hmem, hl⟩

theorem ChangesOnly.of_saveAll {pairs : List (Text × Text)} {result : Except Failure Unit}
    (h : fs.saveAll cwd pairs = (result, fs')) :
    ChangesOnly (OnAnyWay cwd (pairs.map Prod.fst)) (AtAnyEnd cwd (pairs.map Prod.fst)) fs fs' := by
  have hchanges := changesOnly_saveAll fs cwd pairs
  rwa [h] at hchanges

/-! ## Reading what was saved -/

/-- The contents of a file are read by a path that leads there and does not ask
    for a directory. -/
theorem read_eq_ok {data : Bytes} (hl : fs.resolve cwd path = .ok (locate cwd path))
    (hfile : fs.get? (locate cwd path) = some (.file data)) (hend : endsInSlash path = false) :
    fs.read cwd path = .ok data := by
  have hstat : fs.stat cwd path = .ok (.file data) := by
    rw [stat, hl]
    simp [hfile, hend, bind, Except.bind, pure, Except.pure]
  rw [read, hstat]
  rfl

/-- A path at which a text was saved leads to a file that holds it. -/
theorem of_save_eq_ok {text : Text} (h : fs.save cwd path text = (.ok (), fs')) :
    fs'.resolve cwd path = .ok (locate cwd path) ∧ endsInSlash path = false ∧
      fs'.get? (locate cwd path) = some (.file (Utf8.encode text)) := by
  unfold save at h
  split at h
  · cases h
  · split at h
    · cases h
    · next fs₁ _ _ fs₂ hwrite =>
      obtain rfl : fs₂ = fs' := congrArg Prod.snd h
      obtain ⟨hl, hno, hend, rfl⟩ := of_write_eq_ok hwrite
      have hput : ChangesOnly nowhere (· = locate cwd path) fs₁
          (fs₁.put (locate cwd path) (.file (Utf8.encode text))) := by
        refine changesOnly_put_file ?_ hno _
        rfl
      refine ⟨hput.resolve_eq_ok hl, hend, get?_put_self _ _ ?_⟩
      intro hroot
      rw [hroot] at hno
      exact hno rfl

/-- The text that is saved last at a location. -/
def lastSaved? (cwd : Location) (l : Location) : List (Text × Text) → Option Text
  | [] => none
  | (path, text) :: rest =>
    (lastSaved? cwd l rest).or (if locate cwd path = l then some text else none)

theorem lastSaved?_eq_none {l : Location} {pairs : List (Text × Text)}
    (h : lastSaved? cwd l pairs = none) : ¬ AtAnyEnd cwd (pairs.map Prod.fst) l := by
  induction pairs with
  | nil =>
    rintro ⟨path, hmem, -⟩
    cases hmem
  | cons pair rest ih =>
    obtain ⟨hrest, hne⟩ := Option.or_eq_none_iff.mp h
    rintro ⟨path, hmem, rfl⟩
    rcases List.mem_cons.mp hmem with rfl | hmem
    · rw [if_pos rfl] at hne
      cases hne
    · exact ih hrest ⟨path, hmem, rfl⟩

/-- The text that is saved last at a location is saved there. -/
theorem exists_of_lastSaved? {l : Location} {text : Text} {pairs : List (Text × Text)}
    (h : lastSaved? cwd l pairs = some text) :
    ∃ path, (path, text) ∈ pairs ∧ locate cwd path = l := by
  induction pairs with
  | nil => cases h
  | cons pair rest ih =>
    obtain ⟨first, other⟩ := pair
    rcases Option.or_eq_some_iff.mp h with hrest | ⟨-, hfirst⟩
    · obtain ⟨path, hmem, hl⟩ := ih hrest
      exact ⟨path, List.mem_cons_of_mem _ hmem, hl⟩
    · split at hfirst
      · next hl =>
        obtain rfl := Option.some.inj hfirst
        exact ⟨first, List.mem_cons_self, hl⟩
      · cases hfirst

/-- **Last one wins**: once all of some texts are saved, a location holds the
    text that was saved there last. -/
theorem get?_saveAll {pairs : List (Text × Text)} (h : fs.saveAll cwd pairs = (.ok (), fs'))
    {l : Location} {text : Text} (hlast : lastSaved? cwd l pairs = some text) :
    fs'.get? l = some (.file (Utf8.encode text)) := by
  induction pairs generalizing fs with
  | nil => cases hlast
  | cons pair rest ih =>
    obtain ⟨path, first⟩ := pair
    unfold saveAll at h
    split at h
    · cases h
    · next fs₁ hsaved =>
      rcases Option.or_eq_some_iff.mp hlast with hrest | ⟨hnone, hfirst⟩
      · exact ih h hrest
      · -- Nothing is saved there afterwards, so the first text stays.
        split at hfirst
        · next hl =>
          obtain rfl := hl
          obtain rfl := Option.some.inj hfirst
          have hstays := lastSaved?_eq_none hnone
          exact (ChangesOnly.of_saveAll h).get?_file (of_save_eq_ok hsaved).2.2 hstays
        · cases hfirst

/-- Once all of some texts are saved, each path leads to a location. -/
theorem resolve_saveAll {pairs : List (Text × Text)} (h : fs.saveAll cwd pairs = (.ok (), fs'))
    {pair : Text × Text} (hmem : pair ∈ pairs) :
    fs'.resolve cwd pair.1 = .ok (locate cwd pair.1) ∧ endsInSlash pair.1 = false := by
  induction pairs generalizing fs with
  | nil => cases hmem
  | cons first rest ih =>
    obtain ⟨path, text⟩ := first
    unfold saveAll at h
    split at h
    · cases h
    · next fs₁ hsaved =>
      rcases List.mem_cons.mp hmem with rfl | hmem
      · obtain ⟨hl, hend, -⟩ := of_save_eq_ok hsaved
        exact ⟨(ChangesOnly.of_saveAll h).resolve_eq_ok hl, hend⟩
      · exact ih h hmem

/-- Once all of some texts are saved, each path gives the text that was saved
    last at its location. -/
theorem read_saveAll {pairs : List (Text × Text)} (h : fs.saveAll cwd pairs = (.ok (), fs'))
    {pair : Text × Text} (hmem : pair ∈ pairs) :
    ∃ text, lastSaved? cwd (locate cwd pair.1) pairs = some text ∧
      fs'.read cwd pair.1 = .ok (Utf8.encode text) := by
  obtain ⟨hl, hend⟩ := resolve_saveAll h hmem
  cases hlast : lastSaved? cwd (locate cwd pair.1) pairs with
  | none =>
    exact absurd ⟨pair.1, List.mem_map_of_mem hmem, rfl⟩ (lastSaved?_eq_none hlast)
  | some text => exact ⟨text, rfl, read_eq_ok hl (get?_saveAll h hlast) hend⟩

end

end Neaten.FileSystem
