import Neaten.Proofs.FileSystem.FailedSaves

/-! # The effect of a save

    A save that succeeds leaves its text at its path.  Apart from that, all it
    may have done is to make directories, where nothing stood, that paths above
    its own lead to; and if it fails, this is all it may have done.  If there is
    something above its path that is no directory, it has not even done that. -/

namespace Neaten.FileSystem

variable {fs fs' : FileSystem} {cwd : Location} {path text : Text} {l : Location}

/-- A location is as it was, or a directory has been made there, where nothing
    was, because a path leads there that the given one goes on from. -/
def KeptOrMade (fs fs' : FileSystem) (cwd : Location) (path : Text) (l : Location) : Prop :=
  fs'.get? l = fs.get? l ∨
    fs.get? l = none ∧ fs'.get? l = some .directory ∧
      ∃ above ∈ Path.upward path, above <+: path ∧ above ≠ path ∧ l = locate cwd above

theorem Above.exists_prefix (h : Above cwd path l) :
    ∃ above ∈ Path.upward path, above <+: path ∧ above ≠ path ∧ l = locate cwd above := by
  obtain ⟨above, hmem, rfl⟩ := h
  have habove := List.mem_of_mem_tail hmem
  exact ⟨above, habove, Path.prefix_of_mem_upward habove, Path.ne_of_mem_tail_upward hmem, rfl⟩

/-- Where no file was written, nothing has happened, or a directory was made. -/
theorem ChangesOnly.keptOrMade {files : Location → Prop}
    (h : ChangesOnly (Above cwd path) files fs fs') (hl : ¬ files l) :
    KeptOrMade fs fs' cwd path l := by
  have hchange := h l
  unfold KeptOrMade
  generalize fs.get? l = before at hchange ⊢
  generalize fs'.get? l = after at hchange ⊢
  cases hchange with
  | same => exact .inl rfl
  | made habove => exact .inr ⟨rfl, rfl, habove.exists_prefix⟩
  | written hfile => exact absurd hfile hl

/-- Nothing stands at the empty path. -/
theorem ne_nil_of_pathExists (h : fs.pathExists cwd path = true) : path ≠ [] := by
  rintro rfl
  cases h

/-- Below something that is no directory nothing is saved. -/
theorem save_of_parent? {above : Text} (habove : Path.parent? path = some above)
    (hexists : fs.pathExists cwd above = true) (hno : fs.isDirectory cwd above = false) :
    fs.save cwd path text = (.error ⟨[], .notADirectory above⟩, fs) := by
  have hparent : fs.ensureParent cwd path = (.error ⟨[], .notADirectory above⟩, fs) := by
    unfold ensureParent
    rw [habove]
    dsimp only
    rw [if_neg (ne_nil_of_pathExists hexists), ensureDirectory, if_neg (by simp [hexists]),
      if_pos (by simp [hno])]
  rw [save, hparent]

/-- **The effect of a save.**  If it succeeds, its path gives its text, and every
    other location is as it was but for directories made above the path.  If it
    fails, that goes for every location.  It fails without any effect if there is
    something above the path that is no directory. -/
theorem save_effect {result : Except Failure Unit} (h : fs.save cwd path text = (result, fs')) :
    (result = .ok () →
      fs'.read cwd path = .ok (Utf8.encode text) ∧
      fs'.get? (locate cwd path) = some (.file (Utf8.encode text)) ∧
      ∀ l ≠ locate cwd path, KeptOrMade fs fs' cwd path l) ∧
    ((∃ f, result = .error f) → ∀ l, KeptOrMade fs fs' cwd path l) ∧
    ∀ above, Path.parent? path = some above → fs.pathExists cwd above = true →
      fs.isDirectory cwd above = false →
      result = .error ⟨[], .notADirectory above⟩ ∧ fs' = fs := by
  refine ⟨?_, ?_, fun above habove hexists hno => ?_⟩
  · rintro rfl
    obtain ⟨hresolve, hend, hfile⟩ := of_save_eq_ok h
    exact ⟨read_eq_ok hresolve hfile hend, hfile, fun l hl => (ChangesOnly.of_save h).keptOrMade hl⟩
  · rintro ⟨f, rfl⟩ l
    have hchanges := changesOnly_ensureParent fs cwd path
    rw [← eq_ensureParent_of_save_eq_error h] at hchanges
    exact hchanges.keptOrMade id
  · rw [save_of_parent? habove hexists hno] at h
    obtain ⟨hresult, hfiles⟩ := Prod.mk.inj h
    exact ⟨hresult.symm, hfiles.symm⟩

/-- Nothing but a single file. -/
def loneFile : FileSystem where
  entries := [(["a.txt"], .file [120])]

/-- Next to a file, a save makes a directory and succeeds, another makes one and
    fails, and below the file a third one fails at once. -/
theorem save_effect_loneFile :
    (loneFile.save [] "new/b.txt" "y").2.read [] "new/b.txt" = .ok (Utf8.encode "y") ∧
      KeptOrMade loneFile (loneFile.save [] "new/b.txt" "y").2 [] "new/b.txt" ["new"] ∧
      (∀ l, KeptOrMade loneFile (loneFile.save [] "new/.." "y").2 [] "new/.." l) ∧
      (loneFile.save [] "a.txt/b.txt" "y").1 = .error ⟨[], .notADirectory "a.txt"⟩ ∧
      (loneFile.save [] "a.txt/b.txt" "y").2 = loneFile := by
  have hmade : loneFile.save [] "new/b.txt" "y" =
      (.ok (), (loneFile.save [] "new/b.txt" "y").2) :=
    Prod.ext (Failure.eq_ok_of_toOption (by decide +kernel)) rfl
  have hup : loneFile.save [] "new/.." "y" =
      ((loneFile.save [] "new/.." "y").1, (loneFile.save [] "new/.." "y").2) := rfl
  have hbelow : loneFile.save [] "a.txt/b.txt" "y" =
      ((loneFile.save [] "a.txt/b.txt" "y").1, (loneFile.save [] "a.txt/b.txt" "y").2) := rfl
  obtain ⟨hread, -, hkept⟩ := (save_effect hmade).1 rfl
  have hfailed : ∃ f, (loneFile.save [] "new/.." "y").1 = .error f :=
    Failure.exists_of_toOption_eq_none (by decide +kernel)
  exact ⟨hread, hkept ["new"] (by decide +kernel), (save_effect hup).2.1 hfailed,
    (save_effect hbelow).2.2 "a.txt" (by decide +kernel) (by decide +kernel) (by decide +kernel)⟩

end Neaten.FileSystem
