import Neaten.Proofs.Readme.Values
import Neaten.Proofs.Template.Rendering
import Neaten.Readme.Document

/-! # A README is its parts put together

    The template of a README always reads well and can always be filled in, and
    what comes out is the fixed text with the values in between.  The template
    is taken apart into its sections; each section contributes its text
    whatever the values are, so nothing in a value is read as template, and
    every value stands in the document as it is. -/

namespace Neaten.Readme

open Template (Expression Condition Value)

/-! ## The template, read -/

/-- The place of a variable. -/
def named (name : Text) : Expression := ⟨name, [], []⟩

/-- The place of a field of a variable. -/
def fieldOf (name field : Text) : Expression := ⟨name, [field], []⟩

/-- The condition that a variable has elements. -/
def hasElements (name : Text) : Condition := .above ⟨name, [], ["length"]⟩ 0

/-- The title and the drawing of the tree. -/
def headingPart (next : Template) : Template :=
  .text "# " <| .print (named "title") <|
  .text ("\n" ++ fixed ["", "## 📁 Project Structure", "", "\x60\x60\x60"]) <|
  .print (named "tree") next

/-- The number of files and the counts. -/
def countsPart (next : Template) : Template :=
  .text (fixed ["\x60\x60\x60", "", "## 📊 Project Statistics", ""] ++ "- **Total Files:** ") <|
  .print (named "total_files") <|
  .text ("\n" ++ fixed ["- **File Types:**"]) <|
  .each "stat" (named "stats")
    (.text "  - " <| .print (fieldOf "stat" "label") <| .text ": " <|
      .print (fieldOf "stat" "count") <| .text "\n" .done) <|
  .text "\n" next

/-- The section on frameworks, in a choice without another side. -/
def frameworksPart (next : Template) : Template :=
  .branch (hasElements "frameworks")
    (.text (fixed ["## 🛠️ Frameworks & Technologies", ""]) <|
      .each "framework" (named "frameworks")
        (.text "- " <| .print (named "framework") <| .text "\n" .done) <|
      .text "\n" .done)
    .done next

/-- The block of the entry point, or the note that there is none. -/
def entryPointPart (next : Template) : Template :=
  .branch (.holds (named "main_file"))
    (.text "The main entry point appears to be \x60" <| .print (fieldOf "main_file" "path") <|
      .text ("\x60:\n\n" ++ "\x60\x60\x60") <| .print (fieldOf "main_file" "language") <|
      .text "\n" <| .print (fieldOf "main_file" "excerpt") <|
      .text "\n\x60\x60\x60\n" .done)
    (.text "No clear entry point detected.\n" .done) next

/-- How a list of remarks is written: the variables of the list and of one
    remark, the fields of a remark, and what stands before and between them. -/
structure RemarkStyle where
  list : Text
  item : Text
  subject : Text
  remark : Text
  before : Text
  between : Text

/-- The line of a remark. -/
def RemarkStyle.line (s : RemarkStyle) (r : Remark) : Text :=
  s.before ++ r.subject ++ s.between ++ r.remark ++ "\n"

/-- A line for each remark, or a note if there are none. -/
def remarksPart (s : RemarkStyle) (note : Text) (next : Template) : Template :=
  .branch (hasElements s.list)
    (.each s.item (named s.list)
      (.text s.before <| .print (fieldOf s.item s.subject) <| .text s.between <|
        .print (fieldOf s.item s.remark) <| .text "\n" .done) .done)
    (.text (note ++ ['\n']) .done) next

/-- How directories are listed. -/
def directoryStyle : RemarkStyle :=
  ⟨"directories", "dir", "name", "description", "- **", "/**: "⟩

/-- How configuration files are listed. -/
def configurationStyle : RemarkStyle :=
  ⟨"config_files", "file", "path", "note", "- \x60", "\x60: "⟩

/-- The development lines and what follows them. -/
def developmentPart : Template :=
  .text (fixed ["", "## 💻 Development", ""] ++ "- **Stack:** ") <|
  .print (named "stack_summary") <|
  .text ("\n" ++ "- **Structure:** ") <| .print (named "structure_note") <|
  .text ("\n" ++ "- **Language:** ") <| .print (named "language_note") <|
  .text ("\n" ++ closing) .done

/-- The template of a README, from section to section. -/
def document : Template :=
  headingPart <| countsPart <| frameworksPart <| .text gettingStarted <| entryPointPart <|
  .text (fixed ["", "## 📂 Directory Overview", ""]) <|
  remarksPart directoryStyle "All files are located in the project root." <|
  .text (fixed ["", "## ⚙️ Configuration Files", ""]) <|
  remarksPart configurationStyle "No configuration files detected." developmentPart

theorem fixed_cons (l : String) (lines : List String) :
    fixed (l :: lines) = l.toList ++ '\n' :: fixed lines := by
  simp [fixed]

/-- The text of the template reads as its sections. -/
theorem parse_templateText : Template.parse templateText = .ok document := by
  have h : (Template.parse templateText).toOption = some document := by
    unfold document headingPart countsPart frameworksPart entryPointPart remarksPart
      developmentPart directoryStyle configurationStyle gettingStarted closing named fieldOf
      hasElements templateText templateLines
    repeat rw [List.map_cons]
    repeat rw [fixed_cons]
    -- The kernel is slow at taking string literals apart, so that is done for it.
    repeat rw [String.toList_ofList]
    decide +kernel
  cases hp : Template.parse templateText with
  | error e =>
    rw [hp] at h
    cases h
  | ok t =>
    rw [hp] at h
    exact congrArg Except.ok (Option.some.inj h)

/-! ## Values of places -/

section Places

variable {scope : Template.Scope} {name field : Text} {v w : Value}

theorem value_named (h : scope.lookup name = some v) : (named name).value scope = .ok v := by
  unfold named Expression.value Expression.find?
  rw [List.foldl_nil, h]
  rfl

theorem value_fieldOf (h : scope.lookup name = some v) (hw : v.field? field = some w) :
    (fieldOf name field).value scope = .ok w := by
  unfold fieldOf Expression.value Expression.find?
  rw [List.foldl_cons, List.foldl_nil, h, Option.bind_some, hw]
  rfl

/-- A list has elements just if it is not empty. -/
theorem decide_hasElements {values : List Value} (h : scope.lookup name = some (.list values)) :
    (hasElements name).decide scope = .ok (decide (values ≠ [])) := by
  have hlength : Expression.value ⟨name, [], ["length"]⟩ scope = .ok (.number values.length) := by
    unfold Expression.value Expression.find?
    rw [List.foldl_nil, h]
    rfl
  rw [hasElements, Condition.decide, hlength]
  show Except.ok (decide (0 < values.length)) = _
  simp only [List.length_pos_iff]

end Places

/-! ## What the sections contribute -/

section Sections

variable {c : Contents} {next : Template} {rest : Text}

theorem renderIn_headingPart (h : next.renderIn c.scope = .ok rest) :
    (headingPart next).renderIn c.scope =
      .ok ("# " ++ (c.title ++ ("\n" ++ fixed ["", "## 📁 Project Structure", "", "\x60\x60\x60"] ++
        (c.drawing ++ rest)))) := by
  rw [headingPart]
  apply Template.renderIn_text
  apply Template.renderIn_print_text (value_named rfl)
  apply Template.renderIn_text
  exact Template.renderIn_print_text (value_named rfl) h

theorem LabelCount.line_eq (count : LabelCount) :
    count.line = ("  - " : Text) ++ (count.label ++ ((": " : Text) ++
      (Text.decimal count.count ++ ("\n" : Text)))) := by
  unfold LabelCount.line
  ac_rfl

theorem renderIn_countsPart (h : next.renderIn c.scope = .ok rest) :
    (countsPart next).renderIn c.scope =
      .ok (fixed ["\x60\x60\x60", "", "## 📊 Project Statistics", ""] ++ "- **Total Files:** " ++
        (Text.decimal c.fileCount ++ ("\n" ++ fixed ["- **File Types:**"] ++
          (c.counts.flatMap LabelCount.line ++ ("\n" ++ rest))))) := by
  rw [countsPart]
  apply Template.renderIn_text
  apply Template.renderIn_print_number (value_named rfl)
  apply Template.renderIn_text
  refine Template.renderIn_each LabelCount.toValue (value_named rfl) ?_
    (Template.renderIn_text _ h)
  intro count _
  rewrite [LabelCount.line_eq]
  apply Template.renderIn_text
  apply Template.renderIn_print_text (value_fieldOf rfl rfl)
  apply Template.renderIn_text
  apply Template.renderIn_print_number (value_fieldOf rfl rfl)
  exact Template.renderIn_last _

theorem renderIn_frameworksPart (h : next.renderIn c.scope = .ok rest) :
    (frameworksPart next).renderIn c.scope = .ok (frameworkSection c.frameworks ++ rest) := by
  have hlist : c.scope.lookup ("frameworks" : Text) = some (.list (c.frameworks.map .text)) := rfl
  rw [frameworksPart]
  refine Template.renderIn_branch (decide_hasElements hlist) ?_ h
  by_cases hempty : c.frameworks = []
  · rw [if_neg (by simpa using hempty), frameworkSection, if_pos hempty]
    rfl
  · rw [if_pos (by simpa using hempty), frameworkSection, if_neg hempty, List.append_assoc]
    apply Template.renderIn_text
    refine Template.renderIn_each Template.Value.text (value_named hlist) ?_
      (Template.renderIn_last _)
    intro label _
    apply Template.renderIn_text "- "
    apply Template.renderIn_print_text (value_named rfl)
    exact Template.renderIn_last _

theorem entryPointBlock_some (e : Excerpt) :
    entryPointBlock (some e) =
      ("The main entry point appears to be \x60" : Text) ++ (e.path ++
        (("\x60:\n\n" ++ "\x60\x60\x60" : Text) ++ (e.tag ++
          (("\n" : Text) ++ (e.lines ++ ("\n\x60\x60\x60\n" : Text)))))) := by
  unfold entryPointBlock
  ac_rfl

theorem renderIn_entryPointPart (h : next.renderIn c.scope = .ok rest) :
    (entryPointPart next).renderIn c.scope = .ok (entryPointBlock c.entryPoint ++ rest) := by
  have hlookup : c.scope.lookup ("main_file" : Text) =
      some ((c.entryPoint.map Excerpt.toValue).getD .null) := rfl
  have hfound : (Condition.holds (named "main_file")).decide c.scope = .ok c.entryPoint.isSome := by
    show Except.ok ((c.entryPoint.map Excerpt.toValue).getD .null).isTrue = _
    cases c.entryPoint <;> rfl
  rw [entryPointPart]
  refine Template.renderIn_branch hfound ?_ h
  cases he : c.entryPoint with
  | none => exact Template.renderIn_last _
  | some e =>
    rw [he] at hlookup
    rw [Option.isSome_some, if_pos rfl]
    rewrite [entryPointBlock_some]
    apply Template.renderIn_text
    apply Template.renderIn_print_text (value_fieldOf hlookup rfl)
    apply Template.renderIn_text
    apply Template.renderIn_print_text (value_fieldOf hlookup rfl)
    apply Template.renderIn_text
    apply Template.renderIn_print_text (value_fieldOf hlookup rfl)
    exact Template.renderIn_last _

/-- Where the remarks of a list are found, and that the fields of a remark are
    not mixed up. -/
structure RemarkStyle.Finds (s : RemarkStyle) (scope : Template.Scope) (remarks : List Remark) :
    Prop where
  list : scope.lookup s.list = some (.list (remarks.map (Remark.toValue s.subject s.remark)))
  distinct : s.remark ≠ s.subject

theorem renderIn_remarksPart {s : RemarkStyle} {remarks : List Remark} (note : Text)
    (hs : s.Finds c.scope remarks) (h : next.renderIn c.scope = .ok rest) :
    (remarksPart s note next).renderIn c.scope =
      .ok (linesOr note (remarks.map s.line) ++ rest) := by
  rw [remarksPart]
  refine Template.renderIn_branch (decide_hasElements hs.list) ?_ h
  by_cases hempty : remarks = []
  · rw [if_neg (by simpa using hempty), linesOr, if_pos (by simpa using hempty)]
    exact Template.renderIn_last _
  · rw [if_pos (by simpa using hempty), linesOr, if_neg (by simpa using hempty),
      ← List.flatMap_def, ← List.append_nil (remarks.flatMap s.line)]
    refine Template.renderIn_each (Remark.toValue s.subject s.remark) (value_named hs.list) ?_ rfl
    intro r _
    have hitem : ((s.item, r.toValue s.subject s.remark) :: c.scope).lookup s.item =
        some (r.toValue s.subject s.remark) := by
      rw [List.lookup_cons, beq_self_eq_true]
    have hsubject : (r.toValue s.subject s.remark).field? s.subject = some (.text r.subject) := by
      simp [Remark.toValue, Value.field?]
    have hremark : (r.toValue s.subject s.remark).field? s.remark = some (.text r.remark) := by
      simp [Remark.toValue, Value.field?, List.lookup_cons, beq_false_of_ne hs.distinct]
    have hline : s.line r =
        s.before ++ (r.subject ++ (s.between ++ (r.remark ++ ("\n" : Text)))) := by
      unfold RemarkStyle.line
      ac_rfl
    rw [hline]
    apply Template.renderIn_text
    apply Template.renderIn_print_text (value_fieldOf hitem hsubject)
    apply Template.renderIn_text
    apply Template.renderIn_print_text (value_fieldOf hitem hremark)
    exact Template.renderIn_last _

theorem renderIn_developmentPart (c : Contents) :
    developmentPart.renderIn c.scope =
      .ok (fixed ["", "## 💻 Development", ""] ++ "- **Stack:** " ++ (c.stack ++
        (("\n" ++ "- **Structure:** ") ++ (c.structureNote ++ (("\n" ++ "- **Language:** ") ++
          (c.languageNote ++ ("\n" ++ closing))))))) := by
  rw [developmentPart]
  apply Template.renderIn_text
  apply Template.renderIn_print_text (value_named rfl)
  apply Template.renderIn_text
  apply Template.renderIn_print_text (value_named rfl)
  apply Template.renderIn_text
  apply Template.renderIn_print_text (value_named rfl)
  exact Template.renderIn_last _

end Sections

/-! ## The whole document -/

theorem finds_directories (c : Contents) : directoryStyle.Finds c.scope c.directories :=
  ⟨rfl, by decide⟩

theorem finds_configuration (c : Contents) : configurationStyle.Finds c.scope c.configuration :=
  ⟨rfl, by decide⟩

/-- The sections one after another are the document. -/
theorem renderIn_document (c : Contents) : document.renderIn c.scope = .ok c.assemble := by
  have hdevelopment := renderIn_developmentPart c
  have hconfiguration := renderIn_remarksPart "No configuration files detected."
    (finds_configuration c) hdevelopment
  have hdirectories := renderIn_remarksPart "All files are located in the project root."
    (finds_directories c)
    (Template.renderIn_text (fixed ["", "## ⚙️ Configuration Files", ""]) hconfiguration)
  have hentry := renderIn_entryPointPart
    (Template.renderIn_text (fixed ["", "## 📂 Directory Overview", ""]) hdirectories)
  have hframeworks := renderIn_frameworksPart (Template.renderIn_text gettingStarted hentry)
  have hall := renderIn_headingPart (renderIn_countsPart hframeworks)
  have hdirectory : directoryStyle.line = Remark.directoryLine := rfl
  have hfile : configurationStyle.line = Remark.configurationLine := rfl
  rw [document, hall, hdirectory, hfile]
  refine congrArg Except.ok ?_
  unfold Contents.assemble
  ac_rfl

/-- Any contents can be written, and come out put together directly. -/
theorem render_eq_assemble (c : Contents) : c.render = .ok c.assemble := by
  rw [Contents.render, Template.fill_eq_ok_iff, Template.render, parse_templateText]
  exact renderIn_document c

/-- So can what some files tell under a title. -/
theorem generate_eq_ok (title : Text) (files : List SourceFile) :
    generate title files = .ok (Contents.toldBy title files).assemble := by
  rw [generate, ofFiles_eq_toldBy, render_eq_assemble]

/-! ## The values in a document -/

/-- Everything that is put into a document. -/
def Contents.values (c : Contents) : List Text :=
  [c.title, c.drawing, Text.decimal c.fileCount] ++
    c.counts.flatMap (fun e => [e.label, Text.decimal e.count]) ++ c.frameworks ++
    c.entryPoint.toList.flatMap (fun e => [e.path, e.tag, e.lines]) ++
    (c.directories ++ c.configuration).flatMap (fun r => [r.subject, r.remark]) ++
    [c.stack, c.structureNote, c.languageNote]

/-- The parts of a document that hold values. -/
def Contents.parts (c : Contents) : List Text :=
  [c.title, c.drawing, Text.decimal c.fileCount] ++
    [c.counts.flatMap LabelCount.line, frameworkSection c.frameworks,
      entryPointBlock c.entryPoint,
      linesOr "All files are located in the project root."
        (c.directories.map Remark.directoryLine),
      linesOr "No configuration files detected."
        (c.configuration.map Remark.configurationLine)] ++
    [c.stack, c.structureNote, c.languageNote]

/-- Each part stands somewhere in the document. -/
theorem infix_assemble {c : Contents} {part : Text} (h : part ∈ c.parts) :
    part <:+: c.assemble := by
  simp only [Contents.parts, List.cons_append, List.nil_append, List.mem_cons,
    List.not_mem_nil, or_false] at h
  unfold Contents.assemble
  -- Going back from the end, what is passed over is kept on the right.
  rcases h with rfl | rfl | rfl | rfl | rfl | rfl | rfl | rfl | rfl | rfl | rfl <;>
    with_reducible
      repeat' first
        | exact List.infix_append_right
        | apply List.infix_append_of_infix_left

/-- What a line is made of stands in the lines. -/
theorem infix_flatMap {α : Type} {line : α → Text} {items : List α} {a : α} {v : Text}
    (ha : a ∈ items) (hv : v <:+: line a) : v <:+: items.flatMap line := by
  rw [List.flatMap_def]
  exact hv.trans (List.infix_of_mem_flatten (List.mem_map_of_mem ha))

theorem infix_linesOr {line : Remark → Text} {remarks : List Remark} {r : Remark} {v : Text}
    (note : Text) (hr : r ∈ remarks) (hv : v <:+: line r) :
    v <:+: linesOr note (remarks.map line) := by
  have hne : remarks.map line ≠ [] := by
    simpa using List.ne_nil_of_mem hr
  rw [linesOr, if_neg hne, ← List.flatMap_def]
  exact infix_flatMap hr hv

theorem infix_frameworkSection {labels : List Text} {label : Text} (h : label ∈ labels) :
    label <:+: frameworkSection labels := by
  rw [frameworkSection, if_neg (List.ne_nil_of_mem h)]
  refine List.infix_append_of_infix_left (List.infix_append_of_infix_right ?_)
  refine infix_flatMap h ?_
  exact List.infix_append ['-', ' '] label ['\n']

theorem infix_entryPointBlock {e : Excerpt} {v : Text} (h : v ∈ [e.path, e.tag, e.lines]) :
    v <:+: entryPointBlock (some e) := by
  simp only [List.mem_cons, List.not_mem_nil, or_false] at h
  unfold entryPointBlock
  rcases h with rfl | rfl | rfl <;>
    with_reducible
      repeat' first
        | exact List.infix_append_right
        | apply List.infix_append_of_infix_left

/-- Both values of a line stand in it. -/
theorem infix_line {first second v : Text} (before between after : Text)
    (h : v ∈ [first, second]) : v <:+: before ++ first ++ between ++ second ++ after := by
  simp only [List.mem_cons, List.not_mem_nil, or_false] at h
  refine List.infix_append_of_infix_left ?_
  rcases h with rfl | rfl
  · refine List.infix_append_of_infix_left (List.infix_append_of_infix_left ?_)
    exact List.infix_append_right
  · exact List.infix_append_right

/-- A value stands in the document as it is, whatever it holds. -/
theorem infix_of_mem_values {c : Contents} {v : Text} (h : v ∈ c.values) : v <:+: c.assemble := by
  have hpart : ∀ part ∈ c.parts, v <:+: part → v <:+: c.assemble :=
    fun part hmem hv => hv.trans (infix_assemble hmem)
  simp only [Contents.values, List.mem_append, or_assoc] at h
  rcases h with hfirst | hcount | hframework | hentry | hremark | hlast
  · have hmem : v ∈ c.parts := List.mem_append_left _ (List.mem_append_left _ hfirst)
    exact infix_assemble hmem
  · obtain ⟨e, he, hv⟩ := List.mem_flatMap.mp hcount
    refine hpart (c.counts.flatMap LabelCount.line) (by simp [Contents.parts]) ?_
    exact infix_flatMap he (infix_line _ _ _ hv)
  · refine hpart (frameworkSection c.frameworks) (by simp [Contents.parts]) ?_
    exact infix_frameworkSection hframework
  · obtain ⟨e, he, hv⟩ := List.mem_flatMap.mp hentry
    refine hpart (entryPointBlock c.entryPoint) (by simp [Contents.parts]) ?_
    rw [Option.mem_toList.mp he]
    exact infix_entryPointBlock hv
  · obtain ⟨r, hr, hv⟩ := List.mem_flatMap.mp hremark
    rcases List.mem_append.mp hr with hdirectory | hfile
    · refine hpart (linesOr "All files are located in the project root."
        (c.directories.map Remark.directoryLine)) (by simp [Contents.parts]) ?_
      exact infix_linesOr _ hdirectory (infix_line _ _ _ hv)
    · refine hpart (linesOr "No configuration files detected."
        (c.configuration.map Remark.configurationLine)) (by simp [Contents.parts]) ?_
      exact infix_linesOr _ hfile (infix_line _ _ _ hv)
  · have hmem : v ∈ c.parts := List.mem_append_right _ hlast
    exact infix_assemble hmem

/-- **A README is its parts put together**: for any title and any files there
    is a README, and it is the fixed text with the title, the drawing, the
    counts, the frameworks if there are any, the entry point or a note, a line
    for each directory and configuration file or a note, and the remarks on
    development in between.  Every value in it stands there as it is. -/
theorem generate_eq_assemble (title : Text) (files : List SourceFile) :
    generate title files = .ok (Contents.toldBy title files).assemble ∧
      ∀ v ∈ (Contents.toldBy title files).values,
        v <:+: (Contents.toldBy title files).assemble :=
  ⟨generate_eq_ok title files, fun _ hv => infix_of_mem_values hv⟩

/-- A project with frameworks, an entry point, directories and configuration files,
    in which much looks like a template. -/
def hostile : List SourceFile :=
  [⟨"main.py", "\x7b#/main.py", "import FLASK", none⟩,
   ⟨"index.ts", "src/index.ts",
    "let a = \x7b\x7b title \x7d\x7d;\n\x7b% if b %\x7d\n3\n4\n5\n6\n7\n8\n9\n10\n11", none⟩,
   ⟨"package.json", "package.json", "\x7b\"react\": 18\x7d", none⟩,
   ⟨"web.config", "web.config", "", none⟩]

/-- The README of the project says everything there is to say, and reads none of
    it as template.  Without files it has the notes in their places. -/
theorem generate_eq_assemble_hostile :
    generate "\x7b\x7b tree \x7d\x7d & <b>" hostile = .ok (fixed
      ["# \x7b\x7b tree \x7d\x7d & <b>",
       "",
       "## 📁 Project Structure",
       "",
       "\x60\x60\x60",
       "├── \x7b#/",
       "│   └── main.py (Python)",
       "├── src/",
       "│   └── index.ts (TypeScript)",
       "├── package.json (JSON)",
       "└── web.config (Plain text)",
       "\x60\x60\x60",
       "",
       "## 📊 Project Statistics",
       "",
       "- **Total Files:** 4",
       "- **File Types:**",
       "  - Python: 1",
       "  - TypeScript: 1",
       "  - JSON: 1",
       "  - Plain text: 1",
       "",
       "## 🛠️ Frameworks & Technologies",
       "",
       "- React",
       "- Flask",
       "",
       "## 🚀 Getting Started",
       "",
       "### Prerequisites",
       "",
       "- Install the runtime and package manager used by this project.",
       "",
       "### Installation",
       "",
       "1. Clone the repository",
       "2. Install the dependencies",
       "3. Start the application from its main entry point",
       "",
       "## 📝 Main Entry Point",
       "",
       "The main entry point appears to be \x60src/index.ts\x60:",
       "",
       "\x60\x60\x60ts",
       "let a = \x7b\x7b title \x7d\x7d;",
       "\x7b% if b %\x7d",
       "3",
       "4",
       "5",
       "6",
       "7",
       "8",
       "9",
       "10",
       "...",
       "\x60\x60\x60",
       "",
       "## 📂 Directory Overview",
       "",
       "- **\x7b#/**: Project files",
       "- **src/**: Source code",
       "",
       "## ⚙️ Configuration Files",
       "",
       "- \x60package.json\x60: Project dependencies and scripts",
       "- \x60web.config\x60: Configuration settings",
       "",
       "## 💻 Development",
       "",
       "- **Stack:** React, Flask",
       "- **Structure:** Source code lives under \x60src/\x60, separate from root-level configuration.",
       "- **Language:** TypeScript is used; run the type checker before committing.",
       "",
       "## 🤝 Contributing",
       "",
       "1. Fork the repository",
       "2. Create a feature branch (\x60git checkout -b feature/my-change\x60)",
       "3. Commit your changes (\x60git commit -m \"Describe the change\"\x60)",
       "4. Push the branch (\x60git push origin feature/my-change\x60)",
       "5. Open a pull request",
       "",
       "## 📄 License",
       "",
       "This project is licensed under the MIT License. See the \x60LICENSE\x60 file for details."]) ∧
    generate "" [] = .ok (fixed
      ["# ", "", "## 📁 Project Structure", "", "\x60\x60\x60", "\x60\x60\x60", "",
       "## 📊 Project Statistics", "", "- **Total Files:** 0", "- **File Types:**", ""] ++
      gettingStarted ++
      fixed
      ["No clear entry point detected.", "", "## 📂 Directory Overview", "",
       "All files are located in the project root.", "", "## ⚙️ Configuration Files", "",
       "No configuration files detected.", "", "## 💻 Development", "",
       "- **Stack:** Plain text files",
       "- **Structure:** Flat layout; every file lives in the project root.",
       "- **Language:** No JavaScript or TypeScript sources were found."] ++
      closing) := by
  refine ⟨(generate_eq_assemble _ hostile).1.trans (congrArg Except.ok ?_),
    (generate_eq_assemble _ []).1.trans (congrArg Except.ok ?_)⟩
  all_goals
    unfold Contents.assemble gettingStarted closing
    repeat rw [fixed_cons]
    -- As for the template, string literals are taken apart beforehand.
    repeat rw [String.toList_ofList]
    decide +kernel

end Neaten.Readme
