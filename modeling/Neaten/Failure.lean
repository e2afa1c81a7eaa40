import Neaten.Archive.Error
import Neaten.Config.Basic
import Neaten.FileSystem.Calls
import Neaten.Text.Quoted

/-! # Failures

    A failure is its cause and what was being done when it arose, the widest
    task first.  Its wording is that of the tasks and of the cause, with colons
    between.  Of a document that cannot be read and of a template that cannot
    be rendered the task says it all. -/

namespace Neaten

/-- What was being done. -/
inductive Task where
  | loadingConfig
  | checkingConfig
  | readingConfig (path : Text)
  | parsingConfig (path : Text)
  | makingDirectory (path : Text)
  | writing (path : Text)
  | reading (path : Text)
  | openingArchive (name : Text)
  | describing (name : Text)
  | describingUpload
  | rendering (template : Text)
  | collectingVariables (template : Text)
deriving DecidableEq

/-- A task in words. -/
def Task.message : Task → Text
  | loadingConfig => "Failed to load codetidy configuration"
  | checkingConfig => "Configuration validation failed"
  | readingConfig path => "Failed to read configuration file: " ++ path
  | parsingConfig path => "Failed to parse TOML from file: " ++ path
  | makingDirectory path => "Failed to create directory " ++ Text.quote path
  | writing path => "Failed to write to file " ++ Text.quote path
  | reading path => "Failed to read '" ++ path ++ "'"
  | openingArchive name => "Failed to open archive '" ++ name ++ "'"
  | describing name => "Failed to generate README for '" ++ name ++ "'"
  | describingUpload => "Failed to generate README"
  | rendering template => "Tera rendering failed for template '" ++ template ++ "'"
  | collectingVariables template => "Failed to build template context for '" ++ template ++ "'"

/-- What went wrong. -/
inductive Cause where
  | archive (e : Archive.Error)
  | config (fault : Config.Fault)
  /-- A path leads outside the directory it is placed under. -/
  | outside (path : Text)
  /-- A path placed under a directory has no name in it. -/
  | emptyPath (path : Text)
  /-- Something that is not a directory stands at a path. -/
  | notADirectory (path : Text)
  | call (e : FileSystem.CallError)
  | notUtf8
  | badToml
  | badTemplate
  | noFileName (path : Text)
  /-- A README is asked for something that is not an archive. -/
  | notAnArchive (name : Text)
  /-- None of some ports is free. -/
  | noPort (host : Net.Address) (start : UInt16) (attempts : Nat)
deriving DecidableEq

/-- A cause in words, if the task does not say it all. -/
def Cause.message? : Cause → Option Text
  | archive e => some ("Failed to process ZIP archive: " ++ e.message)
  | config fault => some ("Configuration error: " ++ fault.message)
  | outside path =>
    some ("Filesystem error: Refusing to write outside the output directory: '" ++ path ++ "'")
  | emptyPath path => some ("Filesystem error: Empty relative path: '" ++ path ++ "'")
  | notADirectory path =>
    some ("Filesystem error: Path exists but is not a directory: " ++ Text.quote path)
  | call e => some e.message
  | notUtf8 => some "stream did not contain valid UTF-8"
  | badToml => none
  | badTemplate => none
  | noFileName path => some ("Path '" ++ path ++ "' has no file name")
  | notAnArchive name =>
    some ("README generation needs a ZIP archive, got '" ++ name ++
      "'. Use 'codetidy format' for single files.")
  | noPort host start attempts =>
    some ("Server error: Could not find an available port on host " ++ host.print ++
      " starting from port " ++ Text.decimal start.toNat ++ " after trying " ++
      Text.decimal attempts ++ " ports")

/-- A cause and the tasks in which it arose. -/
structure Failure where
  tasks : List Task
  cause : Cause
deriving DecidableEq

namespace Failure

/-- A failure in words. -/
def message (f : Failure) : Text :=
  (": " : Text).intercalate (f.tasks.map Task.message ++ f.cause.message?.toList)

/-- The failure as it is seen from a wider task. -/
def during (task : Task) (f : Failure) : Failure := { f with tasks := task :: f.tasks }

/-- Whether an archive is to blame. -/
def isArchive (f : Failure) : Bool :=
  match f.cause with
  | .archive _ => true
  | _ => false

@[simp] theorem isArchive_during (task : Task) (f : Failure) :
    (f.during task).isArchive = f.isArchive := rfl

/-- Something tried as part of a task. -/
def within {α : Type} (task : Task) (x : Except Failure α) : Except Failure α :=
  x.mapError (during task)

/-! ## Results that are known

    Equality of results is not decidable, but that of what they hold may be. -/

section

variable {ε α : Type} {x : Except ε α} {a : α} {p : α → Bool}

theorem eq_ok_of_toOption (h : x.toOption = some a) : x = .ok a := by
  cases x with
  | error e => cases h
  | ok value => exact congrArg Except.ok (Option.some.inj h)

theorem of_all_toOption (hp : x.toOption.all p = true) (hx : x = .ok a) : p a = true := by
  subst hx
  exact hp

theorem exists_of_toOption_eq_none (h : x.toOption = none) : ∃ e, x = .error e := by
  cases x with
  | error e => exact ⟨e, rfl⟩
  | ok value => cases h

theorem exists_of_any_toOption (h : x.toOption.any p = true) : ∃ a, x = .ok a ∧ p a = true := by
  cases x with
  | error e => cases h
  | ok value => exact ⟨value, rfl, h⟩

end

end Failure

end Neaten
