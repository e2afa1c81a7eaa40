import Neaten.Proofs.FileSystem.Wellformedness

/-! # Anchored paths

    A path is anchored if the directory that it takes its last step up in
    exists; a path that only goes down is anchored anyway.  What stands on an
    anchored way is enough to tell where the path leads: it can be resolved as
    soon as all but its last step ends in a directory, and only places above its
    end can be empty. -/

namespace Neaten.FileSystem

/-! ## Anchored paths -/

/-- Some steps are anchored at a location if they can be walked up to the last
    that leads up.  From there they only lead down. -/
def AnchoredSteps (fs : FileSystem) (l : Location) (pieces : List Text) : Prop :=
  ∃ (up down : List Text) (m : Location),
    pieces = up ++ down ∧ fs.walk l up = .ok m ∧ ∀ piece ∈ down, piece ≠ ".."

/-- A path is anchored if it takes its last step up, if any, in a directory that
    exists. -/
def Anchored (fs : FileSystem) (cwd : Location) (path : Text) : Prop :=
  AnchoredSteps fs (origin cwd path) (steps path)

section

variable {fs fs' : FileSystem} {l : Location} {cwd : Location} {path : Text}

/-- A path without steps up is anchored. -/
theorem anchored_of_forall_ne (h : ∀ piece ∈ steps path, piece ≠ "..") : Anchored fs cwd path :=
  ⟨[], steps path, origin cwd path, rfl, rfl, h⟩

theorem AnchoredSteps.of_append {front back : List Text}
    (h : AnchoredSteps fs l (front ++ back)) : AnchoredSteps fs l front := by
  obtain ⟨up, down, m, heq, hwalk, hdown⟩ := h
  rcases List.append_eq_append_iff.mp heq with ⟨more, rfl, rfl⟩ | ⟨more, rfl, rfl⟩
  · -- The steps end before the last step up, so all of them can be walked.
    rw [walk_append] at hwalk
    obtain ⟨n, hn, -⟩ := of_bind_eq_ok hwalk
    exact ⟨front, [], n, (List.append_nil front).symm, hn, by simp⟩
  · exact ⟨up, more, m, rfl, hwalk, fun p hp => hdown p (List.mem_append_left _ hp)⟩

theorem AnchoredSteps.append {pieces more : List Text} (h : AnchoredSteps fs l pieces)
    (hmore : ∀ piece ∈ more, piece ≠ "..") : AnchoredSteps fs l (pieces ++ more) := by
  obtain ⟨up, down, m, rfl, hwalk, hdown⟩ := h
  refine ⟨up, down ++ more, m, List.append_assoc up down more, hwalk, fun p hp => ?_⟩
  rcases List.mem_append.mp hp with hp | hp
  · exact hdown p hp
  · exact hmore p hp

/-- An anchored path stays so, because directories stay. -/
theorem Anchored.changesOnly {dirs files : Location → Prop} (h : Anchored fs cwd path)
    (hchanges : ChangesOnly dirs files fs fs') : Anchored fs' cwd path := by
  obtain ⟨up, down, m, heq, hwalk, hdown⟩ := h
  exact ⟨up, down, m, heq, hchanges.walk_eq_ok hwalk, hdown⟩

theorem Anchored.of_parent? {above : Text} (h : Anchored fs cwd path)
    (habove : Path.parent? path = some above) : Anchored fs cwd above := by
  obtain ⟨-, more, -, hsteps⟩ := steps_of_parent? habove
  unfold Anchored at h ⊢
  rw [hsteps, ← origin_of_parent? habove] at h
  exact h.of_append

theorem Anchored.join (h : Anchored fs cwd path) {name : Text} (hname : Path.IsName name) :
    Anchored fs cwd (Path.join path name) := by
  unfold Anchored origin at h ⊢
  rw [steps_join path hname.isPiece, Path.isAbsolute_join path hname.isPiece]
  refine h.append fun p hp => ?_
  obtain rfl := List.mem_singleton.mp hp
  exact hname.ne_parent

theorem Anchored.foldl_join {names : List Text} (h : Anchored fs cwd path)
    (hnames : ∀ name ∈ names, Path.IsName name) :
    Anchored fs cwd (names.foldl Path.join path) := by
  induction names generalizing path with
  | nil => exact h
  | cons name rest ih =>
    exact ih (h.join (hnames name List.mem_cons_self))
      fun n hn => hnames n (List.mem_cons_of_mem name hn)

/-! ### Walking an anchored path -/

/-- Steps that do not lead up end at or below where they start. -/
theorem prefix_foldl_step {pieces : List Text} (h : ∀ piece ∈ pieces, piece ≠ "..") :
    l <+: pieces.foldl step l := by
  induction pieces generalizing l with
  | nil => exact List.prefix_rfl
  | cons piece rest ih =>
    have hstep : l <+: step l piece := by
      unfold step
      split
      · exact List.prefix_rfl
      · rw [if_neg (h piece List.mem_cons_self)]
        exact List.prefix_append l [piece]
    exact hstep.trans (ih fun p hp => h p (List.mem_cons_of_mem piece hp))

/-- Steps that do not lead up can be walked if they end in a directory. -/
theorem WellFormed.walk_eq_ok (hfs : fs.WellFormed) {pieces : List Text}
    (h : ∀ piece ∈ pieces, piece ≠ "..")
    (hend : fs.get? (pieces.foldl step l) = some .directory) :
    fs.walk l pieces = .ok (pieces.foldl step l) := by
  induction pieces generalizing l with
  | nil => rfl
  | cons piece rest ih =>
    -- Everything on the way is above the end, so it is a directory.
    obtain ⟨more, hmore⟩ : l <+: (piece :: rest).foldl step l := prefix_foldl_step h
    have hl : fs.get? l = some .directory := by
      rw [← hmore] at hend
      exact hfs.get?_directory hend
    rw [walk, hl]
    exact ih (fun p hp => h p (List.mem_cons_of_mem piece hp)) hend

theorem AnchoredSteps.walk_eq_ok {pieces : List Text} (h : AnchoredSteps fs l pieces)
    (hfs : fs.WellFormed) (hend : fs.get? (pieces.foldl step l) = some .directory) :
    fs.walk l pieces = .ok (pieces.foldl step l) := by
  obtain ⟨up, down, m, rfl, hwalk, hdown⟩ := h
  obtain rfl := eq_foldl_of_walk hwalk
  rw [List.foldl_append] at hend ⊢
  rw [walk_append, hwalk]
  exact hfs.walk_eq_ok hdown hend

/-- A path that takes a step is walked from where it starts. -/
theorem resolve_of_steps_ne_nil (h : steps path ≠ []) :
    fs.resolve cwd path = fs.walk (origin cwd path) (steps path) := by
  unfold resolve
  rw [if_neg]
  · rfl
  · rintro rfl
    exact h rfl

/-- An anchored path can be resolved if it ends in a directory. -/
theorem Anchored.resolve_eq_ok (h : Anchored fs cwd path) (hfs : fs.WellFormed) (hne : path ≠ [])
    (hend : fs.get? (locate cwd path) = some .directory) :
    fs.resolve cwd path = .ok (locate cwd path) := by
  unfold resolve
  rw [if_neg hne]
  exact h.walk_eq_ok hfs hend

/-- An anchored path can be resolved if all but its last step ends in a
    directory. -/
theorem Anchored.resolve_concat_eq_ok (h : Anchored fs cwd path) (hfs : fs.WellFormed)
    {front : List Text} {last : Text} (hsteps : steps path = front ++ [last])
    (hfront : fs.get? (front.foldl step (origin cwd path)) = some .directory) :
    fs.resolve cwd path = .ok (locate cwd path) := by
  unfold Anchored at h
  rw [hsteps] at h
  have hwalk := h.of_append.walk_eq_ok hfs hfront
  rw [resolve_of_steps_ne_nil (by simp [hsteps]), locate, hsteps, walk_append, hwalk,
    List.foldl_append]
  show fs.walk (front.foldl step (origin cwd path)) [last] = _
  rw [walk, hfront]
  rfl

/-- An anchored path that does not end in a dot can be resolved if something
    stands where it leads. -/
theorem Anchored.resolve_of_isSome (h : Anchored fs cwd path) (hfs : fs.WellFormed)
    {front : List Text} {last : Text} (hsteps : steps path = front ++ [last]) (hlast : last ≠ ".")
    (hsome : (fs.get? (locate cwd path)).isSome) :
    fs.resolve cwd path = .ok (locate cwd path) := by
  have hlocate : locate cwd path = step (front.foldl step (origin cwd path)) last := by
    rw [locate, hsteps, List.foldl_append]
    rfl
  by_cases hparent : last = ".."
  · -- The last step leads up, so the whole path can be walked.
    obtain ⟨up, down, m, heq, hwalk, hdown⟩ := h
    have hnil : down = [] := by
      by_contra hne
      obtain ⟨more, final, rfl⟩ := (List.eq_nil_or_concat down).resolve_left hne
      rw [hsteps, List.concat_eq_append, ← List.append_assoc] at heq
      obtain ⟨-, hfinal⟩ := List.append_inj' heq rfl
      refine hdown last ?_ hparent
      simp [List.singleton_inj.mp hfinal]
    rw [hnil, List.append_nil] at heq
    obtain rfl := eq_foldl_of_walk hwalk
    rw [resolve_of_steps_ne_nil (by simp [hsteps]), locate, heq]
    exact hwalk
  · refine h.resolve_concat_eq_ok hfs hsteps ?_
    rw [hlocate, step, if_neg hlast, if_neg hparent] at hsome
    exact hfs.get?_above (List.cons_ne_nil last []) hsome

/-- Where nothing stands on an anchored way, only the end of the way is below. -/
theorem Anchored.prefix_of_upTo (h : Anchored fs cwd path) (hl : UpTo cwd path l)
    (hnone : fs.get? l = none) : l <+: locate cwd path := by
  rcases hl with rfl | ⟨front, more, hne, hsteps, rfl⟩
  · exact List.prefix_rfl
  · obtain ⟨up, down, m, heq, hwalk, hdown⟩ := h
    rw [hsteps] at heq
    unfold locate
    rw [hsteps, List.foldl_append]
    rcases List.append_eq_append_iff.mp heq with ⟨back, rfl, rfl⟩ | ⟨back, rfl, rfl⟩
    · cases back with
      | nil => exact prefix_foldl_step hdown
      | cons piece back =>
        -- The walk goes on from here, so a directory stands here.
        rw [walk_append] at hwalk
        obtain ⟨n, hn, hon⟩ := of_bind_eq_ok hwalk
        obtain rfl := eq_foldl_of_walk hn
        rw [walk, hnone] at hon
        cases hon
    · exact prefix_foldl_step fun p hp => hdown p (List.mem_append_right back hp)

end

end Neaten.FileSystem
