import Neaten.SourceFile

/-! # Statistics

    How many files there are under each label, the labels in the order in
    which they first come up. -/

namespace Neaten.Readme

/-- The number of files under a label. -/
structure LabelCount where
  label : Text
  count : Nat
deriving DecidableEq

/-- Counts one more file under a label. -/
def tally (label : Text) : List LabelCount → List LabelCount
  | [] => [⟨label, 1⟩]
  | entry :: rest =>
    if entry.label = label then { entry with count := entry.count + 1 } :: rest
    else entry :: tally label rest

/-- The number of files under each label. -/
def statistics (files : List SourceFile) : List LabelCount :=
  files.foldl (fun counts f => tally f.label counts) []

/-! ## Counting -/

/-- The labels, in order. -/
def labels (counts : List LabelCount) : List Text := counts.map (·.label)

/-- All files counted. -/
def total : List LabelCount → Nat
  | [] => 0
  | entry :: rest => entry.count + total rest

@[simp] theorem total_tally (label : Text) (counts : List LabelCount) :
    total (tally label counts) = total counts + 1 := by
  induction counts with
  | nil => simp [tally, total]
  | cons entry rest ih =>
    rw [tally]
    split
    · simp [total]; omega
    · simp only [total, ih]
      omega

end Neaten.Readme
