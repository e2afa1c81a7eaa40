import Neaten.Proofs.Text.Pieces
import Neaten.Tree.Line

/-! # What a drawing tells

    A drawing tells everything of a tree but the sizes of its files, as long as
    no name holds a slash or a line break and every file has the label of a
    language.

    It is read in three steps.  A line break ends every line.  Of a line, four
    characters at a time belong to the margin, up to the first connector; what
    is left ends in a slash for a directory, and in a label in brackets for a
    file.  Names may look like margins, connectors or labels, because each of
    these is told by its place.  The lines make up the tree again by how far in
    they are: what a directory holds is further in than what comes after it. -/

namespace Neaten.Tree

/-! ## A drawing is its lines -/

/-- What is written on a line is what a pen draws. -/
theorem Line.print_eq_append (l : Line) :
    l.print = l.around.flatMap marginPiece ++ connector l.isLast ++ l.entry ++ ['\n'] := rfl

/-- A drawing behind a margin has all its lines behind that margin. -/
theorem drawFrom_eq_flatMap_print (t : Tree) (margin : Text) (around : List Bool) :
    t.drawFrom (margin ++ around.flatMap marginPiece) =
      (t.linesFrom around).flatMap (margin ++ ·.print) := by
  induction t generalizing around with
  | empty => rfl
  | file name leaf later ih =>
    rw [drawFrom, linesFrom, List.flatMap_cons, ih]
    simp [Line.print_eq_append, Line.entry]
  | directory name contents later ihc ihl =>
    have hmargin : margin ++ around.flatMap marginPiece ++ marginPiece (later == empty) =
        margin ++ (around ++ [later == empty]).flatMap marginPiece := by
      simp
    rw [drawFrom, linesFrom, List.flatMap_cons, List.flatMap_append, hmargin, ihc, ihl]
    simp [Line.print_eq_append, Line.entry]

/-- A drawing is its lines, each as it is written. -/
theorem draw_eq_flatMap_print (t : Tree) : t.draw = t.lines.flatMap Line.print := by
  rw [draw_eq_drawFrom]
  simpa [lines] using drawFrom_eq_flatMap_print t [] []

/-! ## What a line tells -/

/-- A label that is shown for some language. -/
def IsLabel (label : Text) : Prop := ∃ l : Language, l.label = label

/-- What can be read back: a name without slash and line break, and the label of
    a language if there is one. -/
structure Line.Legible (l : Line) : Prop where
  no_slash : '/' ∉ l.name
  no_break : '\n' ∉ l.name
  label : ∀ label, l.label = some label → IsLabel label

/-- No label holds a bracket or a line break. -/
theorem not_mem_label (l : Language) : '(' ∉ l.label ∧ '\n' ∉ l.label := by
  cases l <;> decide

/-- What comes after the last occurrence of a character, and so what comes
    before it. -/
theorem append_cons_inj_of_not_mem {sep : Char} {s t before after : Text} (hs : sep ∉ s)
    (ht : sep ∉ t) (h : before ++ sep :: s = after ++ sep :: t) : before = after ∧ s = t := by
  have hlast := congrArg (fun text => (Text.split sep text).getLast?) h
  simp only [Text.split_append_cons, Text.split_of_not_mem hs, Text.split_of_not_mem ht,
    List.getLast?_concat, Option.some.injEq] at hlast
  subst hlast
  exact ⟨List.append_cancel_right h, rfl⟩

/-- How an entry ends tells a directory from a file. -/
theorem Line.getLast?_entry (l : Line) :
    l.entry.getLast? = some (if l.label.isSome then ')' else '/') := by
  unfold Line.entry
  cases l.label with
  | none => exact List.getLast?_concat
  | some label => exact List.getLast?_concat

/-- What is written for an entry tells its name and its label. -/
theorem Line.entry_inj {l m : Line} (hl : l.Legible) (hm : m.Legible)
    (h : l.entry = m.entry) : l.name = m.name ∧ l.label = m.label := by
  have hend := congrArg List.getLast? h
  rw [Line.getLast?_entry, Line.getLast?_entry] at hend
  unfold Line.entry at h
  cases hlabel : l.label with
  | none =>
    cases hother : m.label with
    | none =>
      rw [hlabel, hother] at h
      exact ⟨List.append_cancel_right h, rfl⟩
    | some other => simp [hlabel, hother] at hend
  | some label =>
    cases hother : m.label with
    | none => simp [hlabel, hother] at hend
    | some other =>
      rw [hlabel, hother] at h
      -- No label holds a bracket, so the last one comes before the label.
      obtain ⟨language, rfl⟩ := hl.label label hlabel
      obtain ⟨otherLanguage, rfl⟩ := hm.label other hother
      have hsplit : (l.name ++ [' ']) ++ '(' :: language.label =
          (m.name ++ [' ']) ++ '(' :: otherLanguage.label := by
        simpa using List.append_cancel_right h
      obtain ⟨hname, hsame⟩ := append_cons_inj_of_not_mem (not_mem_label language).1
        (not_mem_label otherLanguage).1 hsplit
      exact ⟨List.append_cancel_right hname, congrArg some hsame⟩

/-- The margin ends where the first connector stands, whatever comes after. -/
theorem margin_inj {around others : List Bool} {isLast other : Bool} {s t : Text}
    (h : around.flatMap marginPiece ++ (connector isLast ++ s) =
      others.flatMap marginPiece ++ (connector other ++ t)) :
    around = others ∧ isLast = other ∧ s = t := by
  induction around generalizing others with
  | nil =>
    cases others with
    | nil => cases isLast <;> cases other <;> simp_all [connector]
    | cons piece more => cases isLast <;> cases piece <;> simp [connector, marginPiece] at h
  | cons piece more ih =>
    cases others with
    | nil => cases other <;> cases piece <;> simp [connector, marginPiece] at h
    | cons otherPiece rest =>
      have hpieces : piece = otherPiece ∧ more.flatMap marginPiece ++ (connector isLast ++ s) =
          rest.flatMap marginPiece ++ (connector other ++ t) := by
        cases piece <;> cases otherPiece <;> simp_all [marginPiece]
      obtain ⟨rfl, hrest⟩ := hpieces
      obtain ⟨rfl, rfl, rfl⟩ := ih hrest
      exact ⟨rfl, rfl, rfl⟩

/-! ## Where a line ends -/

/-- A line in writing, without the line break that ends it. -/
def Line.body (l : Line) : Text :=
  l.around.flatMap marginPiece ++ (connector l.isLast ++ l.entry)

theorem Line.print_eq (l : Line) : l.print = l.body ++ ['\n'] := by
  simp [Line.print_eq_append, Line.body]

/-- What is written on a line tells the line. -/
theorem Line.body_inj {l m : Line} (hl : l.Legible) (hm : m.Legible)
    (h : l.body = m.body) : l = m := by
  obtain ⟨haround, hlast, hentry⟩ := margin_inj h
  obtain ⟨hname, hlabel⟩ := Line.entry_inj hl hm hentry
  cases l
  cases m
  simp_all

theorem Line.not_mem_entry {l : Line} (hl : l.Legible) : '\n' ∉ l.entry := by
  have hname := hl.no_break
  unfold Line.entry
  cases hlabel : l.label with
  | none => simp [hname]
  | some label =>
    obtain ⟨language, rfl⟩ := hl.label label hlabel
    simp [hname, (not_mem_label language).2]

/-- A line holds no other line break. -/
theorem Line.not_mem_body {l : Line} (hl : l.Legible) : '\n' ∉ l.body := by
  have hmargin : ∀ piece, '\n' ∉ marginPiece piece := by decide
  have hconnector : ∀ isLast, '\n' ∉ connector isLast := by decide
  simp [Line.body, hmargin, hconnector, Line.not_mem_entry hl]

/-- The pieces of some lines between line breaks are the lines, and nothing after
    the last one. -/
theorem split_flatMap_print {ls : List Line} (h : ∀ l ∈ ls, l.Legible) :
    Text.split '\n' (ls.flatMap Line.print) = ls.map Line.body ++ [[]] := by
  induction ls with
  | nil => rfl
  | cons l rest ih =>
    have hl : '\n' ∉ l.body := Line.not_mem_body (h l List.mem_cons_self)
    have hrest := ih fun m hm => h m (List.mem_cons_of_mem l hm)
    rw [List.flatMap_cons, Line.print_eq, List.append_assoc, List.singleton_append,
      Text.split_append_cons, Text.split_of_not_mem hl, hrest]
    rfl

/-- What is written on some lines tells the lines. -/
theorem map_body_inj {ls ms : List Line} (hls : ∀ l ∈ ls, l.Legible)
    (hms : ∀ m ∈ ms, m.Legible) (h : ls.map Line.body = ms.map Line.body) : ls = ms := by
  induction ls generalizing ms with
  | nil => exact (List.map_eq_nil_iff.mp h.symm).symm
  | cons l rest ih =>
    cases ms with
    | nil => cases h
    | cons m more =>
      obtain ⟨hbody, hbodies⟩ := List.cons.inj h
      obtain ⟨hl, hrest⟩ := List.forall_mem_cons.mp hls
      obtain ⟨hm, hmore⟩ := List.forall_mem_cons.mp hms
      rw [Line.body_inj hl hm hbody, ih hrest hmore hbodies]

/-! ## From lines to the tree -/

/-- The tree with every size left out, as a drawing leaves them out. -/
def withoutSizes : Tree → Tree
  | empty => empty
  | file name leaf later => file name { leaf with size := 0 } later.withoutSizes
  | directory name contents later =>
    directory name contents.withoutSizes later.withoutSizes

@[simp] theorem withoutSizes_beq_empty (t : Tree) :
    (t.withoutSizes == empty) = (t == empty) := by
  cases t <;> rfl

theorem linesFrom_withoutSizes (t : Tree) (around : List Bool) :
    t.withoutSizes.linesFrom around = t.linesFrom around := by
  induction t generalizing around with
  | empty => rfl
  | file name leaf later ih => simp [withoutSizes, linesFrom, ih]
  | directory name contents later ihc ihl => simp [withoutSizes, linesFrom, ihc, ihl]

/-- Some lines start further out than a depth, if there are any. -/
def StartsAbove (depth : Nat) (ls : List Line) : Prop :=
  ∀ l ∈ ls.head?, l.around.length < depth

/-- What comes after the contents of a directory starts further out than they. -/
theorem startsAbove_linesFrom_append (later : Tree) (around : List Bool) {rest : List Line}
    (h : StartsAbove around.length rest) :
    StartsAbove (around.length + 1) (later.linesFrom around ++ rest) := by
  intro l hl
  cases later with
  | empty => exact Nat.lt_succ_of_lt (h l hl)
  | file name leaf later =>
    obtain rfl : _ = l := Option.some.inj hl
    exact Nat.lt_succ_self _
  | directory name contents later =>
    obtain rfl : _ = l := Option.some.inj hl
    exact Nat.lt_succ_self _

/-- Lines that start further out than a tree are not those of a tree with
    entries. -/
theorem eq_empty_of_startsAbove {t : Tree} {around : List Bool} {ls rest : List Line}
    (h : StartsAbove around.length ls) (heq : ls = t.linesFrom around ++ rest) : t = empty := by
  subst heq
  cases t with
  | empty => rfl
  | file name leaf later => exact absurd (h _ rfl) (Nat.lt_irrefl _)
  | directory name contents later => exact absurd (h _ rfl) (Nat.lt_irrefl _)

/-- The lines of a tree tell the tree, whatever lines come after it, as long as
    those start further out. -/
theorem linesFrom_append_inj {t s : Tree} {around : List Bool} {rest more : List Line}
    (hrest : StartsAbove around.length rest) (hmore : StartsAbove around.length more)
    (h : t.linesFrom around ++ rest = s.linesFrom around ++ more) :
    t.withoutSizes = s.withoutSizes ∧ rest = more := by
  induction t generalizing s around rest more with
  | empty =>
    obtain rfl := eq_empty_of_startsAbove hrest h
    exact ⟨rfl, h⟩
  | file name leaf later ih =>
    cases s with
    | empty => cases eq_empty_of_startsAbove hmore h.symm
    | file other otherLeaf otherLater =>
      obtain ⟨hline, htail⟩ := List.cons.inj h
      obtain ⟨-, -, rfl, hlabel⟩ := Line.mk.inj hline
      obtain ⟨hlater, rfl⟩ := ih hrest hmore htail
      refine ⟨?_, rfl⟩
      rw [withoutSizes, withoutSizes, hlater, Option.some.inj hlabel]
    | directory other contents otherLater =>
      obtain ⟨-, -, -, hlabel⟩ := Line.mk.inj (List.cons.inj h).1
      cases hlabel
  | directory name contents later ihc ihl =>
    cases s with
    | empty => cases eq_empty_of_startsAbove hmore h.symm
    | file other leaf otherLater =>
      obtain ⟨-, -, -, hlabel⟩ := Line.mk.inj (List.cons.inj h).1
      cases hlabel
    | directory other otherContents otherLater =>
      rw [linesFrom, linesFrom, List.cons_append, List.cons_append] at h
      obtain ⟨hline, htail⟩ := List.cons.inj h
      obtain ⟨-, hlast, rfl, -⟩ := Line.mk.inj hline
      -- The contents end where a line stands that is as far out as the directory.
      rw [hlast, List.append_assoc, List.append_assoc] at htail
      have hdepth : (around ++ [otherLater == empty]).length = around.length + 1 := by simp
      obtain ⟨hcontents, htail⟩ :=
        ihc (hdepth ▸ startsAbove_linesFrom_append later around hrest)
          (hdepth ▸ startsAbove_linesFrom_append otherLater around hmore) htail
      obtain ⟨hlater, rfl⟩ := ihl hrest hmore htail
      refine ⟨?_, rfl⟩
      rw [withoutSizes, withoutSizes, hcontents, hlater]

/-! ## The theorem -/

/-- What can be read back from its drawing: every name is without slash and line
    break, and every file has the label of a language. -/
def Legible : Tree → Prop
  | empty => True
  | file name leaf later => '/' ∉ name ∧ '\n' ∉ name ∧ IsLabel leaf.label ∧ later.Legible
  | directory name contents later =>
    '/' ∉ name ∧ '\n' ∉ name ∧ contents.Legible ∧ later.Legible

theorem Legible.linesFrom {t : Tree} (h : t.Legible) (around : List Bool) :
    ∀ l ∈ t.linesFrom around, l.Legible := by
  induction t generalizing around with
  | empty => simp [Tree.linesFrom]
  | file name leaf later ih =>
    obtain ⟨hslash, hbreak, hlabel, hlater⟩ := h
    refine List.forall_mem_cons.mpr ⟨⟨hslash, hbreak, ?_⟩, ih hlater around⟩
    intro label heq
    exact Option.some.inj heq ▸ hlabel
  | directory name contents later ihc ihl =>
    obtain ⟨hslash, hbreak, hcontents, hlater⟩ := h
    refine List.forall_mem_cons.mpr ⟨⟨hslash, hbreak, ?_⟩, ?_⟩
    · intro label heq
      cases heq
    · intro l hl
      rcases List.mem_append.mp hl with hin | hafter
      · exact ihc hcontents _ l hin
      · exact ihl hlater _ l hafter

/-- The lines of a legible tree are those of its drawing. -/
theorem split_draw {t : Tree} (h : t.Legible) :
    Text.split '\n' t.draw = t.lines.map Line.body ++ [[]] := by
  rw [draw_eq_flatMap_print]
  exact split_flatMap_print (h.linesFrom [])

/-- The lines of a tree tell the tree. -/
theorem withoutSizes_eq_of_lines_eq {t s : Tree} (h : t.lines = s.lines) :
    t.withoutSizes = s.withoutSizes := by
  have hnone : StartsAbove ([] : List Bool).length [] := by
    intro l hl
    cases hl
  have happend : t.linesFrom [] ++ [] = s.linesFrom [] ++ [] := congrArg (· ++ []) h
  exact (linesFrom_append_inj hnone hnone happend).1

/-- **A drawing tells the tree.**  Two legible trees have the same drawing just
    if they are the same but for the sizes of their files. -/
theorem draw_eq_draw_iff {t s : Tree} (ht : t.Legible) (hs : s.Legible) :
    t.draw = s.draw ↔ t.withoutSizes = s.withoutSizes := by
  constructor
  · intro h
    have hsplit : Text.split '\n' t.draw = Text.split '\n' s.draw := congrArg _ h
    rw [split_draw ht, split_draw hs] at hsplit
    have hbodies := List.append_cancel_right hsplit
    exact withoutSizes_eq_of_lines_eq
      (map_body_inj (ht.linesFrom []) (hs.linesFrom []) hbodies)
  · intro h
    have hlines : t.lines = s.lines := by
      unfold lines
      rw [← linesFrom_withoutSizes t, ← linesFrom_withoutSizes s, h]
    rw [draw_eq_flatMap_print, draw_eq_flatMap_print, hlines]

/-- A directory whose only file has a name that looks like a line below it. -/
def deceptive : Tree :=
  directory "src" (file "    └── a.py (Python)" ⟨"Plain text", 1⟩ empty) empty

/-- The file that the name looks like. -/
def honest : Tree :=
  directory "src" (directory "" (file "a.py" ⟨"Python", 1⟩ empty) empty) empty

/-- A name that looks like a line is not taken for one. -/
theorem draw_deceptive_ne_draw_honest :
    deceptive.Legible ∧ honest.Legible ∧ deceptive.draw ≠ honest.draw := by
  have hdeceptive : deceptive.Legible :=
    ⟨by decide, by decide, ⟨by decide, by decide, ⟨.plainText, rfl⟩, trivial⟩, trivial⟩
  have hhonest : honest.Legible :=
    ⟨by decide, by decide, ⟨by decide, by decide, ⟨by decide, by decide, ⟨.python, rfl⟩, trivial⟩,
      trivial⟩, trivial⟩
  refine ⟨hdeceptive, hhonest, ?_⟩
  intro h
  have hsame := (draw_eq_draw_iff hdeceptive hhonest).mp h
  exact absurd hsame (by decide)

end Neaten.Tree
