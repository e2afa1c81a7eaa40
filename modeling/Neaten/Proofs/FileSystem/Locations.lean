import Neaten.FileSystem.Saving
import Neaten.Proofs.Text.Pieces

/-! # Where paths lead

    Without links the location of a path depends on the path and the working
    directory alone; the file system only decides whether one gets there.  Each
    name that a path is extended by leads one step down, and the path above a
    path leads to a place on the way. -/

namespace Neaten

namespace Path

/-! ## Names -/

/-- A text that stands between separators of a path: not empty, and without
    separator. -/
structure IsPiece (piece : Text) : Prop where
  ne_nil : piece ≠ []
  no_separator : '/' ∉ piece

/-- A name that can stand for one component: not empty, without separator, and
    neither of the two that have a meaning of their own. -/
structure IsName (name : Text) : Prop where
  ne_nil : name ≠ []
  no_separator : '/' ∉ name
  ne_current : name ≠ "."
  ne_parent : name ≠ ".."

instance : DecidablePred IsName := fun name =>
  decidable_of_iff (name ≠ [] ∧ '/' ∉ name ∧ name ≠ ['.'] ∧ name ≠ ['.', '.'])
    ⟨fun h => ⟨h.1, h.2.1, h.2.2.1, h.2.2.2⟩,
      fun h => ⟨h.ne_nil, h.no_separator, h.ne_current, h.ne_parent⟩⟩

theorem IsName.isPiece {name : Text} (h : IsName name) : IsPiece name :=
  ⟨h.ne_nil, h.no_separator⟩

theorem IsName.isTrivial_eq_false {name : Text} (h : IsName name) : isTrivial name = false := by
  simpa [isTrivial, h.ne_nil] using h.ne_current

theorem isAbsolute_piece {piece : Text} (h : IsPiece piece) : isAbsolute piece = false := by
  unfold isAbsolute
  cases piece with
  | nil => rfl
  | cons c rest =>
    have hc : c ≠ '/' := fun e => h.no_separator (by simp [e])
    simp [hc]

/-- A piece below a path is the path, a separator unless there is one, and the
    piece. -/
theorem join_piece (base : Text) {piece : Text} (h : IsPiece piece) :
    join base piece =
      if base = [] ∨ base.getLast? = some '/' then base ++ piece else base ++ '/' :: piece := by
  rw [join, if_neg (by simp [isAbsolute_piece h])]

theorem isAbsolute_join (base : Text) {piece : Text} (h : IsPiece piece) :
    isAbsolute (join base piece) = isAbsolute base := by
  rw [join_piece base h]
  cases base with
  | nil => exact isAbsolute_piece h
  | cons c rest => split <;> rfl

/-! ## Going down by names -/

/-- What stands apart at the start of a path is no name. -/
theorem normal_ne_cutLead (path name : Text) : .normal name ∉ (cutLead path).1.toList := by
  unfold cutLead
  split <;> simp

/-- A component that is a name can stand for itself. -/
theorem isName_of_mem_components {path name : Text} (h : .normal name ∈ components path) :
    IsName name := by
  unfold components at h
  rcases List.mem_append.mp h with hlead | hpiece
  · exact absurd hlead (normal_ne_cutLead path name)
  · obtain ⟨piece, hmem, heq⟩ := List.mem_map.mp hpiece
    obtain ⟨hsplit, htrivial⟩ := List.mem_filter.mp hmem
    unfold Component.ofPiece at heq
    split at heq
    · cases heq
    · next hparent =>
      obtain rfl := Component.normal.inj heq
      have hnot : piece ≠ [] ∧ piece ≠ ['.'] := by simpa [isTrivial] using htrivial
      exact ⟨hnot.1, Text.not_mem_of_mem_split _ _ piece hsplit, hnot.2, hparent⟩

theorem normal_mem_of_downward? {cs : List Component} {names : List Text} {name : Text}
    (h : downward? cs = some names) (hname : name ∈ names) : .normal name ∈ cs := by
  induction cs generalizing names with
  | nil =>
    obtain rfl : [] = names := Option.some.inj h
    cases hname
  | cons c rest ih =>
    cases c with
    | normal head =>
      obtain ⟨tail, htail, rfl⟩ := Option.map_eq_some_iff.mp h
      rcases List.mem_cons.mp hname with rfl | hmem
      · exact List.mem_cons_self
      · exact List.mem_cons_of_mem _ (ih htail hmem)
    | current => exact List.mem_cons_of_mem _ (ih h hname)
    | parent => cases h
    | root => cases h

/-- A path goes below a directory by names, at least one. -/
theorem below_eq_ok_iff {base path t : Text} :
    below base path = .ok t ↔
      ∃ names ≠ [], downward? (components path) = some names ∧ t = names.foldl join base := by
  unfold below
  split
  · next h => simp [h]
  · next h =>
    refine ⟨fun hok => ?_, ?_⟩
    · cases hok
    · rintro ⟨names, hne, hnames, -⟩
      exact absurd (Option.some.inj (hnames.symm.trans h)) hne
  · next names hne h =>
    refine ⟨fun hok => ⟨names, hne, h, (Except.ok.inj hok).symm⟩, ?_⟩
    rintro ⟨_, -, hnames, rfl⟩
    rw [Option.some.inj (h.symm.trans hnames)]

/-! ## The path above -/

/-- What stands apart at the start of a path. -/
def lead (path : Text) : Text := path.take (path.length - (cutLead path).2.length)

theorem lead_append (path : Text) : lead path ++ (cutLead path).2 = path := by
  unfold lead cutLead
  split <;> simp

/-- A path starts with the root or with a lone dot, or nothing stands apart at
    its start. -/
theorem cutLead_cases (path : Text) :
    (∃ rest, path = '/' :: rest ∧ cutLead path = (some .root, rest)) ∨
      (∃ rest, path = '.' :: rest ∧ (rest = [] ∨ ∃ more, rest = '/' :: more) ∧
        cutLead path = (some .current, rest)) ∨
      isAbsolute path = false ∧ cutLead path = (none, path) := by
  unfold cutLead
  split
  · next rest => exact .inl ⟨rest, rfl, rfl⟩
  · exact .inr (.inl ⟨[], rfl, .inl rfl, rfl⟩)
  · next rest => exact .inr (.inl ⟨'/' :: rest, rfl, .inr ⟨rest, rfl⟩, rfl⟩)
  · next hroot _ _ =>
    refine .inr (.inr ⟨?_, rfl⟩)
    cases path with
    | nil => rfl
    | cons c rest =>
      have hc : c ≠ '/' := fun e => hroot rest (by rw [e])
      simp [isAbsolute, hc]

theorem isAbsolute_of_prefix {path t : Text} (h : t <+: path) (hpath : isAbsolute path = false) :
    isAbsolute t = false := by
  cases t with
  | nil => rfl
  | cons c rest =>
    obtain ⟨more, rfl⟩ := h
    exact hpath

/-- After a lone dot a component ends: a separator comes next, or nothing, and so
    it is when the rest is cut short. -/
theorem separator_of_prefix {rest t : Text} (hrest : rest = [] ∨ ∃ more, rest = '/' :: more)
    (h : t <+: rest) : t = [] ∨ ∃ more, t = '/' :: more := by
  rcases hrest with rfl | ⟨more, rfl⟩
  · exact .inl (List.prefix_nil.mp h)
  · rcases List.prefix_cons_iff.mp h with rfl | ⟨back, rfl, -⟩
    · exact .inl rfl
    · exact .inr ⟨back, rfl⟩

/-- A path starts from the root just if what stands apart at its start does. -/
theorem isAbsolute_lead_append {path t : Text} (h : t <+: (cutLead path).2) :
    isAbsolute (lead path ++ t) = isAbsolute path := by
  unfold lead
  rcases cutLead_cases path with ⟨rest, rfl, hcut⟩ | ⟨rest, rfl, -, hcut⟩ | ⟨habsolute, hcut⟩
  · simp [hcut, isAbsolute]
  · simp [hcut, isAbsolute]
  · rw [hcut] at h ⊢
    simpa [habsolute] using isAbsolute_of_prefix h habsolute

/-- What counts for nothing at the end is dropped, and the last piece that is
    kept counts. -/
theorem exists_dropTrivialEnd_eq (pieces : List Text) :
    ∃ dots, (∀ p ∈ dots, isTrivial p = true) ∧ pieces = dropTrivialEnd pieces ++ dots ∧
      (dropTrivialEnd pieces = [] ∨
        ∃ front last, dropTrivialEnd pieces = front ++ [last] ∧ isTrivial last = false) := by
  refine ⟨(pieces.reverse.takeWhile isTrivial).reverse, ?_, ?_, ?_⟩
  · intro p hp
    exact List.all_eq_true.mp List.all_takeWhile p (List.mem_reverse.mp hp)
  · rw [dropTrivialEnd, ← List.reverse_append, List.takeWhile_append_dropWhile,
      List.reverse_reverse]
  · unfold dropTrivialEnd
    cases hkept : pieces.reverse.dropWhile isTrivial with
    | nil => exact .inl rfl
    | cons last front =>
      refine .inr ⟨front.reverse, last, List.reverse_cons, ?_⟩
      have hlast := List.head_dropWhile_not isTrivial (by rw [hkept]; exact List.cons_ne_nil _ _)
      simpa only [hkept, List.head_cons] using hlast

/-- The path above a path is what stands apart at the start and the pieces before
    the last one that counts, without those at their end that do not.  Above a
    lone dot with no such piece is the empty path. -/
theorem exists_of_parent? {path above : Text} (h : parent? path = some above) :
    (above = [] ∧ (cutLead path).1 = some .current ∧
        ∀ p ∈ Text.split '/' (cutLead path).2, isTrivial p = true) ∨
      ∃ front dots last rest, Text.split '/' (cutLead path).2 = front ++ (dots ++ last :: rest) ∧
        (∀ p ∈ dots, isTrivial p = true) ∧ isTrivial last = false ∧
        (∀ p ∈ rest, isTrivial p = true) ∧
        (front = [] ∨ ∃ more end_, front = more ++ [end_] ∧ isTrivial end_ = false) ∧
        above = lead path ++ ['/'].intercalate front := by
  unfold parent? at h
  unfold lead
  generalize cutLead path = cut at h ⊢
  obtain ⟨lead, rest⟩ := cut
  dsimp only at h ⊢
  split at h
  · next hnil =>
    obtain ⟨dots, hdots, hpieces, -⟩ := exists_dropTrivialEnd_eq (Text.split '/' rest)
    rw [hnil, List.nil_append] at hpieces
    exact .inl ⟨(Option.some.inj h).symm, rfl, hpieces ▸ hdots⟩
  · cases h
  · next hp _ =>
    have hp : dropTrivialEnd (Text.split '/' rest) ≠ [] := hp
    obtain ⟨outer, houter, hpieces, hkept⟩ := exists_dropTrivialEnd_eq (Text.split '/' rest)
    obtain ⟨kept, last, hlast, hcounts⟩ := hkept.resolve_left hp
    obtain ⟨dots, hdots, hinner, hfront⟩ := exists_dropTrivialEnd_eq kept
    rw [hlast, List.dropLast_concat] at h
    refine .inr ⟨dropTrivialEnd kept, dots, last, outer, ?_, hdots, hcounts, houter, hfront,
      (Option.some.inj h).symm⟩
    calc Text.split '/' rest
        = kept ++ [last] ++ outer := by rw [← hlast]; exact hpieces
      _ = dropTrivialEnd kept ++ dots ++ [last] ++ outer := by rw [← hinner]
      _ = dropTrivialEnd kept ++ (dots ++ last :: outer) := by simp

/-- The path above a path is the beginning of it. -/
theorem prefix_of_parent? {path above : Text} (h : parent? path = some above) :
    above <+: path := by
  rcases exists_of_parent? h with ⟨rfl, -⟩ | ⟨front, dots, last, rest, hsplit, -, -, -, -, rfl⟩
  · exact List.nil_prefix
  · have hfront := Text.intercalate_prefix_of_split hsplit
    calc lead path ++ ['/'].intercalate front
        <+: lead path ++ (cutLead path).2 := (List.prefix_append_right_inj _).mpr hfront
      _ = path := lead_append path

/-! ## All paths above -/

theorem upward_eq_cons (path : Text) : ∃ above, upward path = path :: above := by
  rw [upward]
  exact ⟨_, rfl⟩

theorem mem_upward_self (path : Text) : path ∈ upward path := by
  obtain ⟨above, h⟩ := upward_eq_cons path
  rw [h]
  exact List.mem_cons_self

/-- The paths above a path get shorter and shorter. -/
theorem pairwise_upward (path : Text) :
    (upward path).Pairwise fun lower upper => upper.length < lower.length := by
  induction path using upward.induct with
  | case1 path ih =>
    cases h : parent? path with
    | none => simp [upward_of_parent?_eq_none h]
    | some next =>
      have hnext := ih next h
      rw [upward_of_parent? h]
      refine List.pairwise_cons.mpr ⟨fun other hother => ?_, hnext⟩
      have hlt := length_parent?_lt h
      obtain ⟨above, habove⟩ := upward_eq_cons next
      rw [habove] at hother hnext
      rcases List.mem_cons.mp hother with rfl | hother
      · exact hlt
      · exact Nat.lt_trans ((List.pairwise_cons.mp hnext).1 other hother) hlt

/-- They are beginnings of it. -/
theorem prefix_of_mem_upward {path above : Text} (h : above ∈ upward path) : above <+: path := by
  induction path using upward.induct with
  | case1 path ih =>
    cases hparent : parent? path with
    | none =>
      rw [upward_of_parent?_eq_none hparent] at h
      exact List.mem_singleton.mp h ▸ List.prefix_rfl
    | some next =>
      rw [upward_of_parent? hparent] at h
      rcases List.mem_cons.mp h with rfl | h
      · exact List.prefix_rfl
      · exact (ih next hparent h).trans (prefix_of_parent? hparent)

theorem ne_of_mem_tail_upward {path above : Text} (h : above ∈ (upward path).tail) :
    above ≠ path := by
  rintro rfl
  obtain ⟨more, hmore⟩ := upward_eq_cons above
  have hshorter := pairwise_upward above
  rw [hmore] at h hshorter
  exact Nat.lt_irrefl _ ((List.pairwise_cons.mp hshorter).1 above h)

end Path

namespace FileSystem

/-! ## The location of a path -/

/-- Where a path starts from. -/
def origin (cwd : Location) (path : Text) : Location :=
  if Path.isAbsolute path then [] else cwd

/-- Where a path leads. -/
def locate (cwd : Location) (path : Text) : Location := (steps path).foldl step (origin cwd path)

/-- A walk that succeeds ends where its steps lead. -/
theorem eq_foldl_of_walk {fs : FileSystem} {pieces : List Text} {l m : Location}
    (h : fs.walk l pieces = .ok m) : m = pieces.foldl step l := by
  induction pieces generalizing l with
  | nil => exact (Except.ok.inj h).symm
  | cons piece rest ih =>
    rw [walk] at h
    split at h
    · cases h
    · cases h
    · exact ih h

theorem eq_locate_of_resolve {fs : FileSystem} {cwd l : Location} {path : Text}
    (h : fs.resolve cwd path = .ok l) : l = locate cwd path := by
  unfold resolve at h
  split at h
  · cases h
  · exact eq_foldl_of_walk h

/-! ## Extending a path -/

@[simp] theorem steps_nil : steps [] = [] := rfl

/-- A separator ends one step and begins the next. -/
theorem steps_append_cons (front back : Text) :
    steps (front ++ '/' :: back) = steps front ++ steps back := by
  unfold steps
  rw [Text.split_append_cons, List.filter_append]

theorem steps_piece {piece : Text} (h : Path.IsPiece piece) : steps piece = [piece] := by
  unfold steps
  rw [Text.split_of_not_mem h.no_separator, List.filter_cons_of_pos (by simpa using h.ne_nil),
    List.filter_nil]

/-- A piece adds one step. -/
theorem steps_join (base : Text) {piece : Text} (h : Path.IsPiece piece) :
    steps (Path.join base piece) = steps base ++ [piece] := by
  rw [Path.join_piece base h, ← steps_piece h]
  split
  · next hbase =>
    rcases hbase with rfl | hlast
    · rfl
    · obtain ⟨front, rfl⟩ := List.getLast?_eq_some_iff.mp hlast
      rw [List.append_assoc, List.singleton_append, steps_append_cons, steps_append_cons,
        steps_nil, List.append_nil]
  · exact steps_append_cons base piece

/-- A piece leads one step on. -/
theorem locate_join_piece (cwd : Location) (base : Text) {piece : Text} (h : Path.IsPiece piece) :
    locate cwd (Path.join base piece) = step (locate cwd base) piece := by
  unfold locate origin
  rw [steps_join base h, Path.isAbsolute_join base h, List.foldl_append, List.foldl_cons,
    List.foldl_nil]

/-- A name leads one step down. -/
theorem locate_join (cwd : Location) (base : Text) {name : Text} (h : Path.IsName name) :
    locate cwd (Path.join base name) = locate cwd base ++ [name] := by
  rw [locate_join_piece cwd base h.isPiece, step, if_neg h.ne_current, if_neg h.ne_parent]

/-- Names lead down, one step each. -/
theorem locate_foldl_join (cwd : Location) (base : Text) {names : List Text}
    (h : ∀ n ∈ names, Path.IsName n) :
    locate cwd (names.foldl Path.join base) = locate cwd base ++ names := by
  induction names generalizing base with
  | nil => rw [List.foldl_nil, List.append_nil]
  | cons name rest ih =>
    rw [List.foldl_cons, ih _ fun n hn => h n (List.mem_cons_of_mem _ hn),
      locate_join cwd base (h name List.mem_cons_self), List.append_assoc, List.singleton_append]

/-! ## Steps to the path above -/

theorem steps_intercalate {pieces : List Text} (h : ∀ p ∈ pieces, '/' ∉ p) :
    steps (['/'].intercalate pieces) = pieces.filter (· ≠ []) := by
  by_cases hne : pieces = []
  · subst hne
    rfl
  · unfold steps
    rw [Text.split_intercalate hne h]

/-- Pieces that are left out at the end of a path are steps that are left out. -/
theorem steps_eq_append {front back : List Text} {rest : Text}
    (hsplit : Text.split '/' rest = front ++ back) :
    steps rest = steps (['/'].intercalate front) ++ back.filter (· ≠ []) := by
  rw [steps_intercalate fun p hp => Text.not_mem_of_split_eq_append hsplit hp, steps, hsplit,
    List.filter_append]

/-- What stands apart at the start is a step of its own, if it is one at all. -/
theorem steps_lead_append {path t : Text} (h : t <+: (Path.cutLead path).2) :
    steps (Path.lead path ++ t) = steps (Path.lead path) ++ steps t := by
  unfold Path.lead
  rcases Path.cutLead_cases path with ⟨rest, rfl, hcut⟩ | ⟨rest, rfl, hrest, hcut⟩ | ⟨-, hcut⟩
  · have hroot : steps ['/'] = [] := rfl
    simpa [hcut, hroot] using steps_append_cons [] t
  · have hlead : ('.' :: rest).take (('.' :: rest).length - rest.length) = ['.'] := by simp
    rw [hcut] at h ⊢
    rw [hlead]
    rcases Path.separator_of_prefix hrest h with rfl | ⟨more, rfl⟩
    · rw [List.append_nil, steps_nil, List.append_nil]
    · exact steps_append_cons ['.'] more
  · simp [hcut]

/-- A path that starts with a lone dot has a step and does not start from the
    root. -/
theorem of_cutLead_current {path : Text} (h : (Path.cutLead path).1 = some .current) :
    Path.isAbsolute path = false ∧ steps path ≠ [] := by
  rcases Path.cutLead_cases path with ⟨rest, -, hcut⟩ | ⟨rest, rfl, hrest, -⟩ | ⟨-, hcut⟩
  · rw [hcut] at h
    cases h
  · refine ⟨rfl, ?_⟩
    rcases hrest with rfl | ⟨more, rfl⟩
    · decide
    · exact steps_append_cons ['.'] more ▸ List.cons_ne_nil _ _
  · rw [hcut] at h
    cases h

theorem eq_current_of_isTrivial {p : Text} (h : Path.isTrivial p = true) (hne : p ≠ []) :
    p = "." := by
  simpa [Path.isTrivial, hne] using h

/-- The path above starts where the path does.  Unless it is empty and the path
    starts with a lone dot, one step that counts leads on from it, and any
    others that lead on do not count. -/
theorem exists_last_of_parent? {path above : Text} (h : Path.parent? path = some above) :
    Path.isAbsolute above = Path.isAbsolute path ∧
      (above = [] ∧ steps path ≠ [] ∨
        ∃ (dots : List Text) (last : Text) (rest : List Text),
          steps path = steps above ++ (dots ++ last :: rest) ∧
          (∀ p ∈ dots, p = ".") ∧ last ≠ "." ∧ ∀ p ∈ rest, p = ".") := by
  rcases Path.exists_of_parent? h with
    ⟨rfl, hlead, -⟩ | ⟨front, dots, last, rest, hsplit, hdots, hlast, hrest, -, rfl⟩
  · obtain ⟨habsolute, hne⟩ := of_cutLead_current hlead
    exact ⟨habsolute.symm, .inl ⟨rfl, hne⟩⟩
  · have hfront := Text.intercalate_prefix_of_split hsplit
    have htrivial : ∀ pieces : List Text, (∀ p ∈ pieces, Path.isTrivial p = true) →
        ∀ p ∈ pieces.filter (· ≠ []), p = "." := by
      intro pieces hall p hp
      obtain ⟨hmem, hne⟩ := List.mem_filter.mp hp
      exact eq_current_of_isTrivial (hall p hmem) (by simpa using hne)
    have hlastne : last ≠ [] ∧ last ≠ "." := by simpa [Path.isTrivial] using hlast
    refine ⟨Path.isAbsolute_lead_append hfront, .inr ⟨dots.filter (· ≠ []), last,
      rest.filter (· ≠ []), ?_, htrivial dots hdots, hlastne.2, htrivial rest hrest⟩⟩
    calc steps path
        = steps (Path.lead path ++ (Path.cutLead path).2) := by rw [Path.lead_append]
      _ = steps (Path.lead path) ++ steps (Path.cutLead path).2 := steps_lead_append List.prefix_rfl
      _ = steps (Path.lead path) ++ steps (['/'].intercalate front) ++
            (dots ++ last :: rest).filter (· ≠ []) := by
        rw [steps_eq_append hsplit, List.append_assoc]
      _ = steps (Path.lead path ++ ['/'].intercalate front) ++
            (dots ++ last :: rest).filter (· ≠ []) := by
        rw [steps_lead_append hfront]
      _ = steps (Path.lead path ++ ['/'].intercalate front) ++
            (dots.filter (· ≠ []) ++ last :: rest.filter (· ≠ [])) := by
        simp [List.filter_append, hlastne.1]

/-- The path above starts where the path does, and at least one step less leads
    to it. -/
theorem steps_of_parent? {path above : Text} (h : Path.parent? path = some above) :
    Path.isAbsolute above = Path.isAbsolute path ∧
      ∃ more, more ≠ [] ∧ steps path = steps above ++ more := by
  obtain ⟨habsolute, ⟨rfl, hne⟩ | ⟨dots, last, rest, hsteps, -⟩⟩ := exists_last_of_parent? h
  · exact ⟨habsolute, steps path, hne, rfl⟩
  · exact ⟨habsolute, dots ++ last :: rest, by simp, hsteps⟩

/-- A path above another does not end in a dot, unless only the empty path is
    above it. -/
theorem getLast?_steps_of_parent? {path above top : Text} (h : Path.parent? path = some above)
    (htop : Path.parent? above = some top) (hne : top ≠ []) :
    (steps above).getLast? ≠ some ("." : Text) := by
  rcases Path.exists_of_parent? h with
    ⟨rfl, -⟩ | ⟨front, dots, last, rest, hsplit, -, -, -, hfront, rfl⟩
  · cases htop
  · rcases hfront with rfl | ⟨more, end_, rfl, hend⟩
    · -- Only what stands apart at the start is left: the root, a lone dot or nothing.
      rw [List.intercalate_nil, List.append_nil] at htop
      rcases Path.cutLead_cases path with ⟨rest, rfl, hcut⟩ | ⟨rest, rfl, -, hcut⟩ | ⟨-, hcut⟩
      · simp [Path.lead, hcut] at htop
        cases htop
      · simp [Path.lead, hcut] at htop
        exact absurd (Option.some.inj htop).symm hne
      · simp [Path.lead, hcut] at htop
        cases htop
    · have hfront := Text.intercalate_prefix_of_split hsplit
      have hendne : end_ ≠ [] ∧ end_ ≠ "." := by simpa [Path.isTrivial] using hend
      rw [steps_lead_append hfront,
        steps_intercalate fun p hp => Text.not_mem_of_split_eq_append hsplit hp, List.filter_append,
        List.filter_cons_of_pos (by simpa using hendne.1), List.filter_nil, ← List.append_assoc,
        List.getLast?_concat]
      exact fun heq => hendne.2 (Option.some.inj heq)

/-! ## On the way -/

/-- A location that is passed on the way to a path, before its end. -/
def OnTheWay (cwd : Location) (path : Text) (l : Location) : Prop :=
  ∃ front more, more ≠ [] ∧ steps path = front ++ more ∧ l = front.foldl step (origin cwd path)

section

variable {cwd : Location} {path above : Text} (h : Path.parent? path = some above)

include h

theorem origin_of_parent? : origin cwd above = origin cwd path := by
  unfold origin
  rw [(steps_of_parent? h).1]

theorem onTheWay_of_parent? : OnTheWay cwd path (locate cwd above) := by
  obtain ⟨-, more, hne, hsteps⟩ := steps_of_parent? h
  exact ⟨steps above, more, hne, hsteps, by rw [locate, origin_of_parent? h]⟩

/-- What is passed on the way to the path above is passed on the way to the
    path. -/
theorem OnTheWay.of_parent? {l : Location} (hl : OnTheWay cwd above l) : OnTheWay cwd path l := by
  obtain ⟨-, more, -, hsteps⟩ := steps_of_parent? h
  obtain ⟨front, back, hne, habove, rfl⟩ := hl
  refine ⟨front, back ++ more, by simp [hne], ?_, by rw [origin_of_parent? h]⟩
  rw [hsteps, habove, List.append_assoc]

end

end FileSystem

end Neaten
