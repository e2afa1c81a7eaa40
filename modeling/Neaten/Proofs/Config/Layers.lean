import Neaten.Config.Load

/-! # What two files say together

    The two files are combined once every setting has a value, so a setting that
    the project's file leaves out and one that it sets to the initial value look
    alike.  Hence the project's file counts only where it departs from the
    initial configuration.

    Both files are layers all the same: what is used is the initial configuration
    with the user's layer over it, and over that the part of the project's layer
    that departs. -/

namespace Neaten.Config

/-! ## A single setting -/

section

variable {α : Type} [DecidableEq α]

theorem filter_ne_self (start : α) : (some start).filter (· ≠ start) = none := by
  simp [Option.filter]

theorem filter_ne_of_ne {start value : α} (h : value ≠ start) :
    (some value).filter (· ≠ start) = some value := by
  simp [Option.filter, h]

/-- Of two values that may be missing, the project's counts if it is there and
    departs from the initial one. -/
theorem prefer_getD (start : α) (user project : Option α) :
    prefer start (user.getD start) (project.getD start) =
      (project.filter (· ≠ start)).getD (user.getD start) := by
  cases project with
  | none => exact prefer_self start (user.getD start)
  | some value =>
    by_cases hstart : value = start
    · subst hstart
      rw [filter_ne_self]
      exact prefer_self value (user.getD value)
    · rw [filter_ne_of_ne hstart]
      exact prefer_of_ne hstart

/-- Leaving out what does not depart makes a difference only where it would have
    put another value back to the initial one. -/
theorem getD_filter_ne_iff (start : α) (user project : Option α) :
    (project.filter (· ≠ start)).getD (user.getD start) = project.getD (user.getD start) ↔
      (project = some start → user.getD start = start) := by
  cases project with
  | none => simp
  | some value =>
    by_cases hstart : value = start
    · subst hstart
      rw [filter_ne_self]
      simp
    · rw [filter_ne_of_ne hstart]
      simp [hstart]

end

/-! ## Layers -/

namespace Layer

/-- The part of a layer that departs from the initial configuration. -/
def departing (l : Layer) : Layer where
  indentLimit := l.indentLimit.filter (· ≠ initial.indentLimit)
  directory := l.directory.filter (· ≠ initial.directory)
  readmeFile := l.readmeFile.filter (· ≠ initial.readmeFile)
  host := l.host.filter (· ≠ initial.host)
  port := l.port.filter (· ≠ initial.port)
  crossOrigin := l.crossOrigin.filter (· ≠ initial.crossOrigin)

/-- A layer puts nothing back over another: where it sets the initial value, the
    other leaves that value. -/
structure PutsNothingBack (project user : Layer) : Prop where
  indentLimit : project.indentLimit = some initial.indentLimit →
    user.toConfig.indentLimit = initial.indentLimit
  directory : project.directory = some initial.directory →
    user.toConfig.directory = initial.directory
  readmeFile : project.readmeFile = some initial.readmeFile →
    user.toConfig.readmeFile = initial.readmeFile
  host : project.host = some initial.host → user.toConfig.host = initial.host
  port : project.port = some initial.port → user.toConfig.port = initial.port
  crossOrigin : project.crossOrigin = some initial.crossOrigin →
    user.toConfig.crossOrigin = initial.crossOrigin

end Layer

/-- Two configurations that stand for layers are combined as layers, the
    project's without what does not depart. -/
theorem merge_toConfig (user project : Layer) :
    user.toConfig.merge project.toConfig = project.departing.over user.toConfig := by
  unfold merge Layer.toConfig Layer.over Layer.departing
  simp only [prefer_getD]

/-- The project's whole layer counts just if it puts nothing back. -/
theorem departing_over_eq_iff (user project : Layer) :
    project.departing.over user.toConfig = project.over user.toConfig ↔
      project.PutsNothingBack user := by
  unfold Layer.departing Layer.over
  simp only [mk.injEq]
  unfold Layer.toConfig Layer.over
  simp only [getD_filter_ne_iff]
  constructor
  · rintro ⟨hlimit, hdirectory, hreadme, hhost, hport, horigin⟩
    exact ⟨hlimit, hdirectory, hreadme, hhost, hport, horigin⟩
  · rintro ⟨hlimit, hdirectory, hreadme, hhost, hport, horigin⟩
    exact ⟨hlimit, hdirectory, hreadme, hhost, hport, horigin⟩

/-! ## Loading -/

/-- What is loaded, if both files can be read. -/
theorem load_of_layers {place : Place} {fs : FileSystem} {user project : Layer}
    (huser : Layer.ofUser place fs = .ok user) (hproject : Layer.ofProject place fs = .ok project) :
    load place fs =
      match ((project.departing.over user.toConfig).expand place.home).check place fs with
      | .ok () => .ok ((project.departing.over user.toConfig).expand place.home)
      | .error fault => .error ⟨[.checkingConfig], .config fault⟩ := by
  unfold load
  rw [huser, hproject]
  show (match ((user.toConfig.merge project.toConfig).expand place.home).check place fs with
    | .ok () => _
    | .error fault => _) = _
  rw [merge_toConfig]
  rfl

/-- **What is loaded.**  Whatever the two files set, loading gives the initial
    configuration with the user's layer over it and over that the part of the
    project's layer that departs, the directory's `~` replaced, provided that this
    may be used.  That is the project's whole layer over the user's just if the
    project's puts nothing back. -/
theorem load_eq_ok_iff {place : Place} {fs : FileSystem} {user project : Layer}
    (huser : Layer.ofUser place fs = .ok user) (hproject : Layer.ofProject place fs = .ok project)
    (c : Config) :
    (load place fs = .ok c ↔
      c = (project.departing.over user.toConfig).expand place.home ∧ c.check place fs = .ok ()) ∧
    (project.departing.over user.toConfig = project.over user.toConfig ↔
      project.PutsNothingBack user) := by
  refine ⟨?_, departing_over_eq_iff user project⟩
  rw [load_of_layers huser hproject]
  constructor
  · intro h
    split at h
    · next hcheck =>
      obtain rfl := Except.ok.inj h
      exact ⟨rfl, hcheck⟩
    · cases h
  · rintro ⟨rfl, hcheck⟩
    rw [hcheck]

/-! ### Two files -/

/-- A file system with nothing but the two files. -/
def twoFiles (user project : Text) : FileSystem where
  entries := [
    (["work"], .directory),
    (["work", projectName], .file (Utf8.encode project)),
    (["home"], .directory),
    (["home", ".config"], .directory),
    (["home", ".config", "codetidy"], .directory),
    (["home", ".config", "codetidy", "config.toml"], .file (Utf8.encode user))]

/-- A user's file. -/
def userText : Text := "[output]\ndirectory = \"~/tidied\"\n\n[serve]\nport = 9000\n"

/-- A project's file that sets the port to the initial one. -/
def projectText : Text := "[formatter]\nmax_indent_level = 8\n\n[serve]\nport = 8000\n"

/-- The place that the two files are for. -/
def projectPlace : Place := ⟨["work"], "/home", none⟩

theorem ofUser_twoFiles : Layer.ofUser projectPlace (twoFiles userText projectText) =
    .ok { directory := some "~/tidied".toList, port := some 9000 } :=
  Failure.eq_ok_of_toOption (by decide +kernel)

theorem ofProject_twoFiles : Layer.ofProject projectPlace (twoFiles userText projectText) =
    .ok { indentLimit := some 8, port := some 8000 } :=
  Failure.eq_ok_of_toOption (by decide +kernel)

/-- The project's limit counts and so does the user's directory, and of the two
    ports the user's. -/
theorem load_twoFiles :
    Layer.ofUser projectPlace (twoFiles userText projectText) =
      .ok { directory := some "~/tidied".toList, port := some 9000 } ∧
    Layer.ofProject projectPlace (twoFiles userText projectText) =
      .ok { indentLimit := some 8, port := some 8000 } ∧
    load projectPlace (twoFiles userText projectText) =
      .ok { indentLimit := 8, directory := "/home/tidied".toList, port := 9000 } := by
  refine ⟨ofUser_twoFiles, ofProject_twoFiles, ?_⟩
  refine (load_eq_ok_iff ofUser_twoFiles ofProject_twoFiles _).1.mpr ⟨by decide +kernel, ?_⟩
  exact Failure.eq_ok_of_toOption (by decide +kernel)

/-- The project's layer does not always count as a whole: a port that it sets to
    the initial one is passed over. -/
theorem not_forall_load_eq_over :
    ¬ ∀ (place : Place) (fs : FileSystem) (user project : Layer) (c : Config),
      Layer.ofUser place fs = .ok user → Layer.ofProject place fs = .ok project →
      load place fs = .ok c → c = (project.over user.toConfig).expand place.home := by
  intro h
  have hload : load projectPlace (twoFiles userText projectText) =
      .ok { indentLimit := 8, directory := "/home/tidied".toList, port := 9000 } :=
    Failure.eq_ok_of_toOption (by decide +kernel)
  have hlayered := h _ _ _ _ _ ofUser_twoFiles ofProject_twoFiles hload
  have hport : (9000 : UInt16) = 8000 := congrArg Config.port hlayered
  exact absurd hport (by decide)

end Neaten.Config
