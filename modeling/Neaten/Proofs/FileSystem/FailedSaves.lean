import Neaten.Proofs.FileSystem.AnchoredPaths

/-! # Saves that fail

    Before a text is saved, the directories above its path are made, and those
    that were made stay if the rest fails.  That can happen only where a path
    takes a step up from a directory that was not there before: in a
    well-formed file system a path that only goes down either meets something
    in its way before anything is made, or all of it can be made.

    So a save that fails leaves no trace, unless its path takes such a step, and
    of several saves exactly those before the first that fails are done. -/

namespace Neaten.FileSystem

/-! ## Making directories -/

section

variable {fs fs' : FileSystem} {cwd : Location} {path : Text}

/-- Making a directory succeeds just where nothing stands. -/
theorem makeDirectory_of_resolve {l : Location} (h : fs.resolve cwd path = .ok l) :
    fs.makeDirectory cwd path =
      if fs.get? l = none then .ok (fs.put l .directory) else .error CallError.exists := by
  unfold makeDirectory
  rw [h]
  cases hl : fs.get? l with
  | none => simp [hl, bind, Except.bind, pure, Except.pure]
  | some e => simp [hl, bind, Except.bind, throw, throwThe, MonadExceptOf.throw]

theorem of_makeDirectory_eq_ok (h : fs.makeDirectory cwd path = .ok fs') :
    fs.get? (locate cwd path) = none ∧ fs' = fs.put (locate cwd path) .directory := by
  have hbind := h
  unfold makeDirectory at hbind
  obtain ⟨l, hl, -⟩ := of_bind_eq_ok hbind
  obtain rfl := eq_locate_of_resolve hl
  rw [makeDirectory_of_resolve hl] at h
  split at h
  · next hnone => exact ⟨hnone, (Except.ok.inj h).symm⟩
  · cases h

/-- A directory that was made is there. -/
theorem get?_of_makeDirectory_eq_ok (h : fs.makeDirectory cwd path = .ok fs') :
    fs'.get? (locate cwd path) = some .directory := by
  obtain ⟨hnone, rfl⟩ := of_makeDirectory_eq_ok h
  refine get?_put_self _ _ fun hroot => ?_
  rw [hroot] at hnone
  cases hnone

/-- A directory stands at a path just if the path leads to one. -/
theorem stat_eq_directory_iff : fs.stat cwd path = .ok .directory ↔
    fs.resolve cwd path = .ok (locate cwd path) ∧
      fs.get? (locate cwd path) = some .directory := by
  unfold stat
  constructor
  · intro h
    obtain ⟨l, hl, hentry⟩ := of_bind_eq_ok h
    obtain rfl := eq_locate_of_resolve hl
    refine ⟨hl, ?_⟩
    split at hentry
    · cases hentry
    · assumption
    · split at hentry <;> cases hentry
  · rintro ⟨hl, hdir⟩
    rw [hl]
    simp [hdir, bind, Except.bind, pure, Except.pure]

theorem isDirectory_iff :
    fs.isDirectory cwd path = true ↔ fs.stat cwd path = .ok .directory := by
  unfold isDirectory
  split
  · next h => simp [h]
  · next h => simpa using h

/-- Once a directory has been made with those above it, one stands at the path,
    unless nothing had to be done. -/
theorem of_makeDirectories_eq_ok (h : fs.makeDirectories cwd path = (.ok (), fs')) :
    fs' = fs ∨ fs'.get? (locate cwd path) = some .directory := by
  have hfound : ∀ {fs₁ fs₂ : FileSystem} {e : CallError},
      ((if e = CallError.exists ∧ fs₁.isDirectory cwd path then (.ok () : Except CallError Unit)
        else .error e), fs₁) = (.ok (), fs₂) →
      fs₂ = fs₁ ∧ fs₂.get? (locate cwd path) = some .directory := by
    intro fs₁ fs₂ e hpair
    obtain ⟨hresult, rfl⟩ := Prod.mk.inj hpair
    split at hresult
    · next hdir => exact ⟨rfl, (stat_eq_directory_iff.mp (isDirectory_iff.mp hdir.2)).2⟩
    · cases hresult
  unfold makeDirectories at h
  split at h
  · exact .inl (congrArg Prod.snd h).symm
  · split at h
    · next fs₁ hfirst =>
      obtain rfl : fs₁ = fs' := congrArg Prod.snd h
      exact .inr (get?_of_makeDirectory_eq_ok hfirst)
    · split at h
      · cases h
      · split at h
        · next fs₁ hsecond =>
          obtain rfl : fs₁ = fs' := congrArg Prod.snd h
          exact .inr (get?_of_makeDirectory_eq_ok hsecond)
        · exact .inr (hfound h).2
    · exact .inl (hfound h).1

/-- A path that does not end in a dot, unless only the empty path is above it. -/
def EndsProperly (path : Text) : Prop :=
  ∀ above, Path.parent? path = some above → above ≠ [] → (steps path).getLast? ≠ some ("." : Text)

/-- Dots lead nowhere. -/
theorem foldl_step_of_forall_eq {dots : List Text} (h : ∀ p ∈ dots, p = ".") (l : Location) :
    dots.foldl step l = l := by
  induction dots with
  | nil => rfl
  | cons dot rest ih =>
    rw [List.foldl_cons, step, if_pos (h dot List.mem_cons_self)]
    exact ih fun p hp => h p (List.mem_cons_of_mem dot hp)

/-- The last step of such a path leads on from the path above it. -/
theorem EndsProperly.exists_last {above : Text} (h : EndsProperly path)
    (habove : Path.parent? path = some above) (hne : above ≠ []) (cwd : Location) :
    ∃ (front : List Text) (last : Text), steps path = front ++ [last] ∧ last ≠ "." ∧
      front.foldl step (origin cwd path) = locate cwd above := by
  obtain ⟨-, ⟨hnil, -⟩ | ⟨dots, last, rest, hsteps, hdots, hlast, hrest⟩⟩ :=
    exists_last_of_parent? habove
  · exact absurd hnil hne
  · have hnil : rest = [] := by
      by_contra hmore
      obtain ⟨front, dot, rfl⟩ := (List.eq_nil_or_concat rest).resolve_left hmore
      obtain rfl := hrest dot (by simp)
      refine h above habove hne ?_
      rw [hsteps, List.concat_eq_append, ← List.cons_append, ← List.append_assoc,
        ← List.append_assoc, List.getLast?_concat]
    subst hnil
    refine ⟨steps above ++ dots, last, by rw [hsteps, List.append_assoc], hlast, ?_⟩
    rw [List.foldl_append, foldl_step_of_forall_eq hdots, locate, origin_of_parent? habove]

/-- At the empty path there is nothing to make. -/
theorem ne_nil_of_made (h : fs.makeDirectories cwd path = (.ok (), fs')) (hne : fs' ≠ fs) :
    path ≠ [] := by
  rintro rfl
  rw [makeDirectories] at h
  exact hne (congrArg Prod.snd h).symm

/-- Once directories have been made above an anchored path, the path leads
    somewhere. -/
theorem resolve_of_made {above : Text} (hfs : fs.WellFormed) (hpath : Anchored fs cwd path)
    (hend : EndsProperly path) (habove : Path.parent? path = some above)
    (hdirs : fs.makeDirectories cwd above = (.ok (), fs')) (hne : fs' ≠ fs) :
    fs'.resolve cwd path = .ok (locate cwd path) := by
  have habovene : above ≠ [] := ne_nil_of_made hdirs hne
  have hdir : fs'.get? (locate cwd above) = some .directory :=
    (of_makeDirectories_eq_ok hdirs).resolve_left hne
  have hchanges := ChangesOnly.of_makeDirectories hdirs
  have hfs' := (keeps_wellFormed cwd).makeDirectories above hfs
  rw [hdirs] at hfs'
  obtain ⟨front, last, hsteps, -, hfront⟩ := hend.exists_last habove habovene cwd
  exact (hpath.changesOnly hchanges).resolve_concat_eq_ok hfs' hsteps (by rwa [hfront])

/-- In a well-formed file system, making a directory at an anchored path with
    those above it leaves no trace if it fails. -/
theorem makeDirectories_eq_of_error (hfs : fs.WellFormed) (hpath : Anchored fs cwd path)
    (hend : EndsProperly path) (h : ∃ e, (fs.makeDirectories cwd path).1 = .error e) :
    (fs.makeDirectories cwd path).2 = fs := by
  fun_induction FileSystem.makeDirectories fs cwd path with
  | case1 => rfl
  | case2 path above _ fs' hmade => exact absurd h (by simp)
  | case3 path above habove _ e fs' hdirs ih =>
    rw [hdirs] at ih
    exact ih (hpath.of_parent? habove) (fun _ => getLast?_steps_of_parent? habove) ⟨e, rfl⟩
  | case4 path above _ _ fs₁ hdirs fs₂ hmade ih => exact absurd h (by simp)
  | case5 path above habove hfirst fs₁ hdirs e₁ hmade ih =>
    show fs₁ = fs
    by_contra hne
    have hresolve := resolve_of_made hfs hpath hend habove hdirs hne
    obtain ⟨e, he⟩ := h
    rw [makeDirectory_of_resolve hresolve] at hmade
    cases hentry : fs₁.get? (locate cwd path) with
    | none =>
      rw [if_pos hentry] at hmade
      cases hmade
    | some entry =>
      rw [hentry, if_neg (Option.some_ne_none entry)] at hmade
      obtain rfl := Except.error.inj hmade
      cases entry with
      | directory =>
        have hdirectory := isDirectory_iff.mpr (stat_eq_directory_iff.mpr ⟨hresolve, hentry⟩)
        rw [if_pos ⟨rfl, hdirectory⟩] at he
        cases he
      | file data =>
        -- A file was there before, in a directory, so the first attempt met it too.
        have hfile : fs.get? (locate cwd path) = some (.file data) :=
          (ChangesOnly.of_makeDirectories hdirs).of_get?_file hentry id
        obtain ⟨front, last, hsteps, hlast, -⟩ :=
          hend.exists_last habove (ne_nil_of_made hdirs hne) cwd
        have hbefore := hpath.resolve_of_isSome hfs hsteps hlast (by rw [hfile]; rfl)
        rw [makeDirectory_of_resolve hbefore, hfile, if_neg (Option.some_ne_none _)] at hfirst
        cases hfirst
  | case6 => rfl

theorem ensureDirectory_eq_of_error (hfs : fs.WellFormed) (hpath : Anchored fs cwd path)
    (hend : EndsProperly path) (h : ∃ f, (fs.ensureDirectory cwd path).1 = .error f) :
    (fs.ensureDirectory cwd path).2 = fs := by
  unfold ensureDirectory at h ⊢
  split
  · next hnot =>
    rw [if_pos hnot] at h
    obtain ⟨f, hf⟩ := h
    refine makeDirectories_eq_of_error hfs hpath hend ?_
    cases hresult : (fs.makeDirectories cwd path).1 with
    | error e => exact ⟨e, rfl⟩
    | ok u =>
      dsimp only at hf
      rw [hresult] at hf
      cases hf
  · split <;> rfl

/-- Making sure of a directory does nothing, or makes one where none was. -/
theorem of_ensureDirectory_eq_ok (h : fs.ensureDirectory cwd path = (.ok (), fs'))
    (hne : fs' ≠ fs) :
    fs.pathExists cwd path = false ∧ fs.makeDirectories cwd path = (.ok (), fs') := by
  unfold ensureDirectory at h
  split at h
  · next hmissing =>
    refine ⟨by simpa using hmissing, ?_⟩
    obtain ⟨hresult, hfiles⟩ := Prod.mk.inj h
    refine Prod.ext ?_ hfiles
    cases hmade : (fs.makeDirectories cwd path).1 with
    | ok u => rfl
    | error e =>
      rw [hmade] at hresult
      cases hresult
  · split at h
    · cases h
    · exact absurd (congrArg Prod.snd h).symm hne

/-- If no directory can be made sure of above an anchored path, no trace is
    left. -/
theorem ensureParent_eq_of_error (hfs : fs.WellFormed) (hpath : Anchored fs cwd path)
    (h : ∃ f, (fs.ensureParent cwd path).1 = .error f) :
    (fs.ensureParent cwd path).2 = fs := by
  unfold ensureParent at h ⊢
  split
  · rfl
  · next above habove =>
    rw [habove] at h
    dsimp only at h
    split
    · rfl
    · next hne =>
      rw [if_neg hne] at h
      exact ensureDirectory_eq_of_error hfs (hpath.of_parent? habove)
        (fun _ => getLast?_steps_of_parent? habove) h

/-! ## Saving -/

/-- A file is written where a path leads, unless a directory stands there or the
    path asks for one. -/
theorem write_eq_ok {data : Bytes} (hl : fs.resolve cwd path = .ok (locate cwd path))
    (hno : fs.get? (locate cwd path) ≠ some .directory) (hend : endsInSlash path = false) :
    fs.write cwd path data = .ok (fs.put (locate cwd path) (.file data)) := by
  unfold write
  rw [hl]
  cases hentry : fs.get? (locate cwd path) with
  | none => simp [hentry, hend, bind, Except.bind, pure, Except.pure]
  | some e =>
    cases e with
    | directory => exact absurd hentry hno
    | file old => simp [hentry, hend, bind, Except.bind, pure, Except.pure]

/-- A name does not end in a separator, nor does a path that it ends. -/
theorem endsInSlash_join (base : Text) {name : Text} (h : Path.IsName name) :
    endsInSlash (Path.join base name) = false := by
  have hlast : ∀ front : Text, (front ++ name).getLast? ≠ some '/' := by
    intro front heq
    obtain ⟨more, last, rfl⟩ := (List.eq_nil_or_concat name).resolve_left h.ne_nil
    rw [List.concat_eq_append, ← List.append_assoc, List.getLast?_concat] at heq
    exact h.no_separator (by simp [Option.some.inj heq])
  unfold endsInSlash
  rw [Path.join_piece base h.isPiece]
  split
  · simpa using hlast base
  · simpa using hlast (base ++ ['/'])

/-- Where directories have been made above an anchored path that ends in a name,
    nothing is in the way of a file. -/
theorem get?_eq_none_of_made {above : Text} (name : Text) (hfs : fs.WellFormed)
    (habove : Anchored fs cwd above) (hne : above ≠ [])
    (hmissing : fs.pathExists cwd above = false)
    (hchanges : ChangesOnly (AtOrAbove cwd above) nowhere fs fs') :
    fs'.get? (locate cwd above ++ [name]) = none := by
  by_contra hsome
  have hchange := hchanges (locate cwd above ++ [name])
  generalize hbefore : fs.get? (locate cwd above ++ [name]) = before at hchange
  generalize hafter : fs'.get? (locate cwd above ++ [name]) = after at hchange hsome
  cases hchange with
  | same =>
    -- What stood there stood in a directory, so the path above was there.
    have hdir : fs.get? (locate cwd above) = some .directory :=
      hfs.get?_above (List.cons_ne_nil name [])
        (by rw [hbefore]; exact Option.isSome_iff_ne_none.mpr hsome)
    have hstat := stat_eq_directory_iff.mpr ⟨habove.resolve_eq_ok hfs hne hdir, hdir⟩
    rw [pathExists, hstat] at hmissing
    cases hmissing
  | made hup =>
    have hprefix := (habove.prefix_of_upTo hup.upTo hbefore).length_le
    rw [List.length_append, List.length_singleton] at hprefix
    omega
  | written hnowhere => exact hnowhere

/-- A file can be written at an anchored path that ends in a name once directories
    had to be made above it. -/
theorem write_of_made {base name : Text} {data : Bytes} (hfs : fs.WellFormed)
    (hbase : Anchored fs cwd base) (hname : Path.IsName name)
    (hparent : fs.ensureParent cwd (Path.join base name) = (.ok (), fs')) (hne : fs' ≠ fs) :
    ∃ fs'', fs'.write cwd (Path.join base name) data = .ok fs'' := by
  have hpath := hbase.join hname
  have hlast : (steps (Path.join base name)).getLast? ≠ some ("." : Text) := by
    rw [steps_join base hname.isPiece, List.getLast?_concat]
    exact fun heq => hname.ne_current (Option.some.inj heq)
  unfold ensureParent at hparent
  split at hparent
  · exact absurd (congrArg Prod.snd hparent).symm hne
  · next above habove =>
    split at hparent
    · exact absurd (congrArg Prod.snd hparent).symm hne
    · next habovene =>
      have hend : EndsProperly (Path.join base name) := fun _ _ _ => hlast
      obtain ⟨hmissing, hdirs⟩ := of_ensureDirectory_eq_ok hparent hne
      have hresolve := resolve_of_made hfs hpath hend habove hdirs hne
      -- The name is the one step that leads on from the path above.
      obtain ⟨front, last, hsteps, -, hfront⟩ := hend.exists_last habove habovene cwd
      have hsame := hsteps.symm.trans (steps_join base hname.isPiece)
      obtain ⟨-, hlastname⟩ := List.append_inj' hsame rfl
      obtain rfl : last = name := List.singleton_inj.mp hlastname
      have hlocate : locate cwd (Path.join base last) = locate cwd above ++ [last] := by
        rw [← hfront, locate, hsteps, List.foldl_append]
        show step _ last = _
        rw [step, if_neg hname.ne_current, if_neg hname.ne_parent]
      have hfree := get?_eq_none_of_made last hfs (hpath.of_parent? habove) habovene hmissing
        (ChangesOnly.of_makeDirectories hdirs)
      rw [← hlocate] at hfree
      exact ⟨_, write_eq_ok hresolve (by simp [hfree]) (endsInSlash_join base hname)⟩

/-- **A failed save leaves no trace** in a well-formed file system, if it is made
    under a name below an anchored path. -/
theorem save_eq_of_error {base name text : Text} {f : Failure} (hfs : fs.WellFormed)
    (hbase : Anchored fs cwd base) (hname : Path.IsName name)
    (h : fs.save cwd (Path.join base name) text = (.error f, fs')) : fs' = fs := by
  unfold save at h
  split at h
  · next f₁ fs₁ hfailed =>
    obtain rfl : fs₁ = fs' := congrArg Prod.snd h
    have hsame := ensureParent_eq_of_error hfs (hbase.join hname) ⟨f₁, by rw [hfailed]⟩
    rwa [hfailed] at hsame
  · next fs₁ hparent =>
    split at h
    · next e hwrite =>
      obtain rfl : fs₁ = fs' := congrArg Prod.snd h
      by_contra hne
      obtain ⟨fs₂, hwritten⟩ := write_of_made hfs hbase hname hparent hne
      rw [hwritten] at hwrite
      cases hwrite
    · cases h

/-- A save that fails has done no more than to make sure of the directory above
    its path. -/
theorem eq_ensureParent_of_save_eq_error {text : Text} {f : Failure}
    (h : fs.save cwd path text = (.error f, fs')) : fs' = (fs.ensureParent cwd path).2 := by
  unfold save at h
  split at h
  · next fs₁ hfailed =>
    rw [hfailed]
    exact (congrArg Prod.snd h).symm
  · next fs₁ hmade =>
    split at h
    · rw [hmade]
      exact (congrArg Prod.snd h).symm
    · cases h

/-- Whatever the path, a failed save makes no more than directories on the way
    there. -/
theorem changesOnly_of_save_eq_error {text : Text} {f : Failure}
    (h : fs.save cwd path text = (.error f, fs')) :
    ChangesOnly (OnTheWay cwd path) nowhere fs fs' := by
  rw [eq_ensureParent_of_save_eq_error h]
  exact (changesOnly_ensureParent fs cwd path).mono (fun _ hl => hl.onTheWay) fun _ => id

/-- Of several saves those before the first that fails are done. -/
theorem exists_of_saveAll_eq_error {pairs : List (Text × Text)} {f : Failure}
    (h : fs.saveAll cwd pairs = (.error f, fs')) :
    ∃ saved path text rest fs₁, pairs = saved ++ (path, text) :: rest ∧
      fs.saveAll cwd saved = (.ok (), fs₁) ∧ fs₁.save cwd path text = (.error f, fs') := by
  induction pairs generalizing fs with
  | nil => cases h
  | cons pair rest ih =>
    obtain ⟨path, text⟩ := pair
    rw [saveAll] at h
    split at h
    · next f₁ fs₁ hfailed =>
      obtain ⟨hresult, rfl⟩ := Prod.mk.inj h
      obtain rfl := Except.error.inj hresult
      exact ⟨[], path, text, rest, fs, rfl, rfl, hfailed⟩
    · next fs₁ hsaved =>
      obtain ⟨saved, last, lastText, more, fs₂, rfl, hbefore, hfailed⟩ := ih h
      refine ⟨(path, text) :: saved, last, lastText, more, fs₂, rfl, ?_, hfailed⟩
      rw [saveAll, hsaved]
      exact hbefore

end

end Neaten.FileSystem
