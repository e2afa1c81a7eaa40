import Mathlib.Data.List.Induction
import Neaten.Archive.Writer
import Neaten.Proofs.Server.Requests
import Neaten.Proofs.Upload.Processing

/-! # All that is read is one outcome

    What the server remembers after some requests is the outcome of the last
    upload among them, under the number of uploads as its token.  This holds
    while tokens last, that is for fewer than `2 ^ 64` uploads.

    Everything that can be read then is this one outcome: the result, the files
    and the README of the upload, or nothing but an error. -/

namespace Neaten.Server

/-! ## What is read -/

/-- A response says a text with a status. -/
structure Response.Says (r : Response) (status : Nat) (text : Text) : Prop where
  status : r.status = status
  body : r.body = Utf8.encode text

/-- An error message as JSON. -/
def errorText (message : Text) : Text := (Json.object [("error", .text message)]).print

/-- What the result says of a file, with its layout if there is one. -/
def fileResult (f : SourceFile) : Json :=
  match f.formatted with
  | some text =>
    .object [("name", .text f.name), ("path", .text f.path), ("content", .text f.content),
      ("formatted", .text text)]
  | none => .object [("name", .text f.name), ("path", .text f.path), ("content", .text f.content)]

/-- What the result says of an upload under its token, while it is the newest. -/
def uploadResult (token : UInt64) (u : Upload) : Json :=
  .object
    [("token", .number token.toNat), ("current", .bool true), ("upload_name", .text u.name),
     ("is_archive", .bool u.isArchive), ("files", .array (u.files.map fileResult)),
     ("readme", match u.readme with
       | some text => .text text
       | none => .null)]

theorem fileJson_eq_fileResult (f : SourceFile) : fileJson f = fileResult f := by
  unfold fileJson fileResult
  cases f.formatted <;> rfl

/-- The newest upload is summed up as the result says it. -/
theorem summary_eq_uploadResult (token : UInt64) (u : Upload) :
    summary token true u = uploadResult token u := by
  unfold summary uploadResult
  rw [List.map_congr_left fun f _ => fileJson_eq_fileResult f]
  cases u.readme <;> rfl

/-- What is read at a state is an upload that was processed under a token. -/
structure ShowsUpload (o : Options) (s : State) (token : UInt64) (u : Upload) : Prop where
  result : (answer o s .result).Says 200 (uploadResult token u).print
  file : ∀ (i : Nat) (h : i < u.files.length), ∃ text, u.files[i].formatted = some text ∧
    (answer o s (.numbered i)).Says 200 text
  /-- A number of more than 64 bits is not even looked for. -/
  noFile : ∀ i, u.files.length ≤ i →
    (answer o s (.numbered i)).status = if i < UInt64.size then 404 else 400
  readme : u.isArchive = true → ∃ text, u.readme = some text ∧ (answer o s .readme).Says 200 text
  noReadme : u.isArchive = false → u.readme = none ∧ (answer o s .readme).status = 404

/-- What is read at a state is nothing, and the result says why. -/
structure ShowsNothing (o : Options) (s : State) (status : Nat) (message : Text) : Prop where
  result : (answer o s .result).Says status (errorText message)
  noFile : ∀ i, (answer o s (.numbered i)).status = if i < UInt64.size then 404 else 400
  noReadme : (answer o s .readme).status = 404

section

variable {o : Options} {s : State}

/-- An answer says what the route shows. -/
theorem says_answer {route : Route} {r : Response} {status : Nat} {text : Text}
    (hpath : Route.ofPath? route.path = some route) (hshown : route.shown s = some r)
    (hr : r.Says status text) : (answer o s route).Says status text := by
  obtain ⟨hstatus, hbody⟩ := answer_of_shown (o := o) hpath hshown
  exact ⟨hstatus.trans hr.status, hbody.trans hr.body⟩

/-- Every file that is there is answered, as it is laid out. -/
theorem says_answer_numbered {u : Upload} {n : Nat} {text : Text} (hupload : s.upload? = some u)
    (hsize : u.files.length < UInt64.size) (hn : n < u.files.length)
    (htext : u.files[n].formatted = some text) : (answer o s (.numbered n)).Says 200 text := by
  have hword : n < UInt64.size := Nat.lt_trans hn hsize
  have hfile : s.upload?.bind (·.files[n]?) = some u.files[n] := by
    rw [hupload]
    exact List.getElem?_eq_getElem hn
  have hshown := shown_numbered hword hfile
  refine says_answer (ofPath?_numbered n) hshown ⟨rfl, ?_⟩
  show Utf8.encode u.files[n].shownText = Utf8.encode text
  rw [SourceFile.shownText, htext]
  rfl

/-- Where there is no file, the answer depends on the number alone. -/
theorem status_answer_numbered {n : Nat} (h : s.upload?.bind (·.files[n]?) = none) :
    (answer o s (.numbered n)).status = if n < UInt64.size then 404 else 400 := by
  by_cases hn : n < UInt64.size
  · have hshown : (Route.numbered n).shown s =
        some (errorResponse 404 "No formatted file at that index") := by
      show some (showFormatted s (Text.decimal n)) = _
      rw [showFormatted, index_decimal, if_pos hn]
      dsimp only
      rw [h]
    rw [if_pos hn]
    exact (answer_of_shown (ofPath?_numbered n) hshown).1
  · have hshown : (Route.numbered n).shown s =
        some (badRequest (IndexFault.notANumber (Text.decimal n)).message) := by
      show some (showFormatted s (Text.decimal n)) = _
      rw [showFormatted, index_decimal, if_neg hn]
    rw [if_neg hn]
    exact (answer_of_shown (ofPath?_numbered n) hshown).1

/-- The README is answered, if there is one. -/
theorem says_answer_readme {text : Text} (h : s.upload?.bind (·.readme) = some text) :
    (answer o s .readme).Says 200 text := by
  have hshown : Route.readme.shown s =
      some (attachment "README.md" "text/markdown; charset=utf-8" text) := by
    show some (showReadme s) = _
    rw [showReadme, h]
  exact says_answer (by decide) hshown ⟨rfl, rfl⟩

theorem status_answer_readme (h : s.upload?.bind (·.readme) = none) :
    (answer o s .readme).status = 404 := by
  have hshown : Route.readme.shown s = some (errorResponse 404 "No README available") := by
    show some (showReadme s) = _
    rw [showReadme, h]
  exact (answer_of_shown (by decide) hshown).1

/-- The result is answered, whatever it is. -/
theorem says_answer_result {status : Nat} {json : Json}
    (h : showResult s = jsonResponse status json) :
    (answer o s .result).Says status json.print := by
  have hshown : Route.result.shown s = some (jsonResponse status json) := congrArg some h
  exact says_answer (by decide) hshown ⟨rfl, rfl⟩

/-- Without an upload that was processed there is nothing to read. -/
theorem showsNothing_of_upload? (h : s.upload? = none) {status : Nat} {message : Text}
    (hresult : showResult s = errorResponse status message) :
    ShowsNothing o s status message where
  result := says_answer_result hresult
  noFile := by
    intro i
    apply status_answer_numbered
    rw [h]
    rfl
  noReadme := by
    apply status_answer_readme
    rw [h]
    rfl

/-- An upload that was processed and stored can be read. -/
theorem showsUpload_of_stored {limit : Nat} {name : Text} {bytes : Bytes} {token : UInt64}
    {u : Upload} (hprocess : Upload.process limit name bytes = .ok u)
    (hstored : s.stored = some ⟨token, .processed u⟩) : ShowsUpload o s token u := by
  have hupload : s.upload? = some u := by
    rw [State.upload?, hstored]
  have hresult : showResult s = jsonResponse 200 (uploadResult token u) := by
    rw [showResult, hstored, ← summary_eq_uploadResult]
  obtain ⟨files, hfiles, rfl⟩ := Upload.process_eq_ok_iff.mp hprocess
  -- An archive counts its entries in 64 bits, so no file is out of reach.
  have hsize : files.length < UInt64.size := SourceFile.length_ofUpload_lt hfiles
  refine ⟨says_answer_result hresult, ?_, ?_, ?_, ?_⟩
  · intro i hi
    have hfile := SourceFile.laidOut_of_ofUpload hfiles files[i] (List.getElem_mem hi)
    exact ⟨_, hfile.formatted, says_answer_numbered hupload hsize hi hfile.formatted⟩
  · intro i hi
    apply status_answer_numbered
    rw [hupload]
    exact List.getElem?_eq_none hi
  · intro harchive
    have hreadme := Upload.readme_ofFiles_of_archive harchive files
    refine ⟨_, hreadme, says_answer_readme ?_⟩
    rw [hupload]
    exact hreadme
  · intro hsingle
    have hreadme := Upload.readme_ofFiles_of_single hsingle files
    refine ⟨hreadme, status_answer_readme ?_⟩
    rw [hupload]
    exact hreadme

end

/-! ## What is remembered -/

/-- What becomes of an upload under a limit of levels. -/
def outcomeOf (limit : Nat) (upload : Text × Bytes) : Outcome :=
  match Upload.process limit upload.1 upload.2 with
  | .ok u => .processed u
  | .error _ => .failed upload.1 failedMessage

/-- A state remembers the last of some uploads, under their number. -/
structure Remembers (limit : Nat) (uploads : List (Text × Bytes)) (s : State) : Prop where
  issued : s.issued.toNat = uploads.length
  stored : s.stored = uploads.getLast?.map fun u => ⟨s.issued, outcomeOf limit u⟩

theorem remembers_start (limit : Nat) : Remembers limit [] {} where
  issued := rfl
  stored := rfl

/-- Taking an upload is publishing what becomes of it under the next token. -/
theorem state_takeUpload (limit : Nat) (name : Text) (bytes : Bytes) (s : State) :
    (takeUpload limit name bytes s).2 =
      (s.issue.2.publish s.issue.1 (outcomeOf limit (name, bytes))).2 := by
  unfold takeUpload outcomeOf
  dsimp only
  cases Upload.process limit name bytes with
  | ok u => rfl
  | error f => rfl

/-- One more upload is remembered in place of the others. -/
theorem Remembers.takeUpload {limit : Nat} {uploads : List (Text × Bytes)} {s : State}
    (h : Remembers limit uploads s) (hroom : uploads.length + 1 < UInt64.size) (name : Text)
    (bytes : Bytes) :
    Remembers limit (uploads ++ [(name, bytes)]) (takeUpload limit name bytes s).2 := by
  -- The next token is greater than the one that is stored, because tokens last.
  have hnext : (s.issued + 1).toNat = uploads.length + 1 := by
    rw [UInt64.toNat_add, h.issued]
    exact Nat.mod_eq_of_lt hroom
  have haccepts : s.issue.2.accepts s.issue.1 = true := by
    show s.stored.all (fun p => p.token ≤ s.issued + 1) = true
    rw [h.stored]
    cases uploads.getLast? with
    | none => rfl
    | some u =>
      have hle : s.issued ≤ s.issued + 1 := by
        rw [UInt64.le_iff_toNat_le, hnext, h.issued]
        exact Nat.le_succ _
      exact decide_eq_true hle
  have hstate : (Server.takeUpload limit name bytes s).2 =
      ⟨s.issued + 1, some ⟨s.issued + 1, outcomeOf limit (name, bytes)⟩⟩ := by
    rw [state_takeUpload, State.publish, if_pos haccepts]
    rfl
  rw [hstate]
  refine ⟨?_, ?_⟩
  · rw [List.length_append]
    exact hnext
  · rw [List.getLast?_concat]
    rfl

/-! ## Requests one after another -/

/-- The uploads among some requests, in order. -/
def uploadsOf (requests : List Request) : List (Text × Bytes) :=
  requests.filterMap Request.upload?

/-- The state of a new server after some requests. -/
def stateAfter (o : Options) (requests : List Request) : State := (respondAll o requests {}).2

theorem state_respondAll_cons (o : Options) (request : Request) (rest : List Request)
    (s : State) :
    (respondAll o (request :: rest) s).2 = (respondAll o rest (respond o request s).2).2 := rfl

theorem stateAfter_concat (o : Options) (requests : List Request) (request : Request) :
    stateAfter o (requests ++ [request]) = (respond o request (stateAfter o requests)).2 := by
  unfold stateAfter
  -- The first request changes the state that the others meet.
  generalize ({} : State) = s
  induction requests generalizing s with
  | nil => rfl
  | cons first rest ih =>
    rw [List.cons_append, state_respondAll_cons, state_respondAll_cons, ih]

/-- A request keeps remembered what was, or the upload that it is. -/
theorem Remembers.respond {o : Options} {uploads : List (Text × Bytes)} {s : State}
    (h : Remembers o.limit uploads s) (request : Request)
    (hroom : (uploads ++ request.upload?.toList).length < UInt64.size) :
    Remembers o.limit (uploads ++ request.upload?.toList) (respond o request s).2 := by
  cases hupload : request.upload? with
  | none =>
    rw [state_respond_of_upload?_eq_none hupload, Option.toList_none, List.append_nil]
    exact h
  | some upload =>
    obtain ⟨name, bytes⟩ := upload
    rw [hupload, Option.toList_some, List.length_append] at hroom
    rw [respond_of_uploads (Request.upload?_eq_some_iff.mp hupload)]
    exact h.takeUpload hroom name bytes

/-- **The last upload is remembered** after any requests. -/
theorem remembers_stateAfter (o : Options) (requests : List Request)
    (hroom : (uploadsOf requests).length < UInt64.size) :
    Remembers o.limit (uploadsOf requests) (stateAfter o requests) := by
  -- The invariant speaks of the last upload, so the last request is taken off.
  induction requests using List.reverseRecOn with
  | nil => exact remembers_start o.limit
  | append_singleton requests request ih =>
    have huploads : uploadsOf (requests ++ [request]) =
        uploadsOf requests ++ request.upload?.toList := by
      unfold uploadsOf
      rw [List.filterMap_append]
      cases hupload : request.upload? <;> simp [hupload]
    rw [huploads] at hroom ⊢
    rw [stateAfter_concat]
    have hbefore : (uploadsOf requests).length < UInt64.size := by
      rw [List.length_append] at hroom
      omega
    exact (ih hbefore).respond request hroom

/-- The requests that make some uploads, one after another. -/
def postAll (uploads : List (Text × Bytes)) : List Request :=
  uploads.map fun upload => .post upload.1 upload.2

/-- Any uploads can be made. -/
@[simp] theorem uploadsOf_postAll (uploads : List (Text × Bytes)) :
    uploadsOf (postAll uploads) = uploads := by
  induction uploads with
  | nil => rfl
  | cons upload rest ih =>
    have hfirst : (Request.post upload.1 upload.2).upload? = some upload := upload?_post _ _
    show (Request.post upload.1 upload.2 :: postAll rest).filterMap Request.upload? = _
    rw [List.filterMap_cons_some hfirst]
    exact congrArg (upload :: ·) ih

theorem remembers_postAll (o : Options) (uploads : List (Text × Bytes))
    (hroom : uploads.length < UInt64.size) :
    Remembers o.limit uploads (stateAfter o (postAll uploads)) := by
  have hremembers := remembers_stateAfter o (postAll uploads)
  rw [uploadsOf_postAll] at hremembers
  exact hremembers hroom

theorem stateAfter_postAll_concat (o : Options) (uploads : List (Text × Bytes)) (name : Text)
    (bytes : Bytes) :
    stateAfter o (postAll (uploads ++ [(name, bytes)])) =
      (takeUpload o.limit name bytes (stateAfter o (postAll uploads))).2 := by
  rw [postAll, List.map_append, List.map_singleton, stateAfter_concat,
    respond_of_uploads (uploads_post name bytes)]
  rfl

/-! ## The theorem -/

section

variable {o : Options} {uploads : List (Text × Bytes)} {s : State}
  (h : Remembers o.limit uploads s)

include h

theorem Remembers.showsNothing_of_eq_nil (hnone : uploads = []) :
    ShowsNothing o s 404 "Nothing has been processed yet" := by
  have hstored : s.stored = none := by
    rw [h.stored, hnone]
    rfl
  apply showsNothing_of_upload?
  · rw [State.upload?, hstored]
  · rw [showResult, hstored]

variable {name : Text} {bytes : Bytes}

theorem Remembers.showsUpload (hlast : uploads.getLast? = some (name, bytes)) {u : Upload}
    (hprocess : Upload.process o.limit name bytes = .ok u) : ShowsUpload o s s.issued u := by
  have houtcome : outcomeOf o.limit (name, bytes) = .processed u := by
    rw [outcomeOf, hprocess]
  apply showsUpload_of_stored hprocess
  rw [h.stored, hlast, Option.map_some, houtcome]

theorem Remembers.showsNothing_of_error (hlast : uploads.getLast? = some (name, bytes))
    {f : Failure} (hprocess : Upload.process o.limit name bytes = .error f) :
    ShowsNothing o s 422 failedMessage := by
  have houtcome : outcomeOf o.limit (name, bytes) = .failed name failedMessage := by
    rw [outcomeOf, hprocess]
  have hstored : s.stored = some ⟨s.issued, .failed name failedMessage⟩ := by
    rw [h.stored, hlast, Option.map_some, houtcome]
  apply showsNothing_of_upload?
  · rw [State.upload?, hstored]
  · rw [showResult, hstored]

end

/-- **All that is read is one outcome.**  After any requests, a request with the
    method for reading leaves the state as it is, and only its path counts.  As
    long as tokens last, before any upload there is nothing to read; afterwards
    the last upload is read, with its number as its token, if it was processed,
    and nothing but an error if it failed, whatever came before. -/
theorem reads_latest_outcome (o : Options) (requests : List Request)
    (hroom : (uploadsOf requests).length < UInt64.size) :
    (∀ request : Request, request.method = "GET" →
      respond o request (stateAfter o requests) =
        ((respond o (.get request.target.path) (stateAfter o requests)).1,
          stateAfter o requests)) ∧
    (uploadsOf requests = [] →
      ShowsNothing o (stateAfter o requests) 404 "Nothing has been processed yet") ∧
    ∀ name bytes, (uploadsOf requests).getLast? = some (name, bytes) →
      (∀ u, Upload.process o.limit name bytes = .ok u →
        u.name = name ∧ u.isArchive = Archive.isArchiveName name ∧
          ∃ token : UInt64, token.toNat = (uploadsOf requests).length ∧
            ShowsUpload o (stateAfter o requests) token u) ∧
      ∀ f, Upload.process o.limit name bytes = .error f →
        ShowsNothing o (stateAfter o requests) 422 failedMessage := by
  have hremembers := remembers_stateAfter o requests hroom
  refine ⟨?_, ?_, ?_⟩
  · intro request hget
    exact respond_get o hget _
  · intro hnone
    exact hremembers.showsNothing_of_eq_nil hnone
  · intro name bytes hlast
    refine ⟨?_, ?_⟩
    · intro u hprocess
      have hshows := hremembers.showsUpload hlast hprocess
      obtain ⟨files, -, rfl⟩ := Upload.process_eq_ok_iff.mp hprocess
      exact ⟨rfl, rfl, _, hremembers.issued, hshows⟩
    · intro f hprocess
      exact hremembers.showsNothing_of_error hlast hprocess

/-! ### Runs -/

/-- What the server of a run goes by. -/
def plainOptions : Options := ⟨64, true⟩

/-- An archive with two files. -/
def archiveUpload : Text × Bytes := ("a.zip", Archive.emptyFiles ["src/a.rs", "b.txt"])

/-- A single file without anything in it. -/
def emptyUpload : Text × Bytes := ("a.txt", [])

/-- What is named as an archive, but is none. -/
def brokenUpload : Text × Bytes := ("b.zip", [])

theorem process_archiveUpload :
    ∃ u, Upload.process 64 archiveUpload.1 archiveUpload.2 = .ok u ∧ u.isArchive = true ∧
      u.files.length = 2 := by
  have hfiles : SourceFile.ofUpload 64 archiveUpload.1 archiveUpload.2 =
      .ok [.ofContent 64 "src/a.rs" [], .ofContent 64 "b.txt" []] :=
    Failure.eq_ok_of_toOption (by decide +kernel)
  exact ⟨_, Upload.process_eq_ok_iff.mpr ⟨_, hfiles, rfl⟩, by decide, rfl⟩

theorem process_emptyUpload :
    ∃ u, Upload.process 64 emptyUpload.1 emptyUpload.2 = .ok u ∧ u.files.length = 1 := by
  have hname : Archive.isArchiveName emptyUpload.1 = false := by decide
  exact ⟨_, Upload.process_eq_ok_iff.mpr ⟨_, SourceFile.ofUpload_single hname, rfl⟩, rfl⟩

theorem process_brokenUpload :
    ∃ f, Upload.process 64 brokenUpload.1 brokenUpload.2 = .error f :=
  Failure.exists_of_toOption_eq_none (by decide +kernel)

/-- The files of an archive can be read, until another upload fails. -/
theorem reads_latest_outcome_replaced :
    (uploadsOf (postAll [archiveUpload, brokenUpload])).length < UInt64.size ∧
      (answer plainOptions (stateAfter plainOptions (postAll [archiveUpload]))
        (.numbered 1)).status = 200 ∧
      (answer plainOptions (stateAfter plainOptions (postAll [archiveUpload]))
        .readme).status = 200 ∧
      ShowsNothing plainOptions (stateAfter plainOptions (postAll [archiveUpload, brokenUpload]))
        422 failedMessage := by
  have hfirst : (uploadsOf (postAll [archiveUpload])).length < UInt64.size := by
    rw [uploadsOf_postAll]
    decide
  have hboth : (uploadsOf (postAll [archiveUpload, brokenUpload])).length < UInt64.size := by
    rw [uploadsOf_postAll]
    decide
  have hprocessed := (reads_latest_outcome plainOptions _ hfirst).2.2
  have hfailed := (reads_latest_outcome plainOptions _ hboth).2.2
  rw [uploadsOf_postAll] at hprocessed hfailed
  obtain ⟨u, hu, harchive, hlength⟩ := process_archiveUpload
  obtain ⟨f, hf⟩ := process_brokenUpload
  obtain ⟨-, -, token, -, hshows⟩ := (hprocessed _ _ rfl).1 u hu
  obtain ⟨text, -, htext⟩ := hshows.file 1 (by rw [hlength]; decide)
  obtain ⟨readme, -, hreadme⟩ := hshows.readme harchive
  exact ⟨hboth, htext.status, hreadme.status, (hfailed _ _ rfl).2 f hf⟩

/-- Once the last token is taken, the next upload is not stored any more. -/
theorem stored_takeUpload_of_full {limit : Nat} {uploads : List (Text × Bytes)} {s : State}
    (h : Remembers limit uploads s) (hfull : uploads.length + 1 = UInt64.size) (name : Text)
    (bytes : Bytes) : (takeUpload limit name bytes s).2.stored = s.stored := by
  -- The tokens start again at zero, which is less than the one that is stored.
  have hnext : (s.issued + 1).toNat = 0 := by
    rw [UInt64.toNat_add, h.issued]
    show (uploads.length + 1) % UInt64.size = 0
    rw [hfull, Nat.mod_self]
  have hlt : ¬ s.issued ≤ s.issued + 1 := by
    rw [UInt64.le_iff_toNat_le, hnext, h.issued]
    have hsize : 1 < UInt64.size := by decide
    omega
  have hrefused : s.issue.2.accepts s.issue.1 = false := by
    show s.stored.all (fun p => p.token ≤ s.issued + 1) = false
    rw [h.stored]
    cases hlast : uploads.getLast? with
    | none =>
      obtain rfl := List.getLast?_eq_none_iff.mp hlast
      exact absurd hfull (by decide)
    | some upload => exact decide_eq_false hlt
  rw [state_takeUpload, State.publish, hrefused]
  rfl

/-- So an upload under the last token stays, whatever comes next. -/
theorem exists_showsUpload_of_full {o : Options} {uploads : List (Text × Bytes)} {name : Text}
    {bytes : Bytes} {u : Upload} (hfull : uploads.length + 1 = UInt64.size)
    (hlast : uploads.getLast? = some (name, bytes))
    (hprocess : Upload.process o.limit name bytes = .ok u) (next : Text × Bytes) :
    ∃ token, ShowsUpload o (stateAfter o (postAll (uploads ++ [next]))) token u := by
  have hremembers := remembers_postAll o uploads (by omega)
  have houtcome : outcomeOf o.limit (name, bytes) = .processed u := by
    rw [outcomeOf, hprocess]
  have hstored := stored_takeUpload_of_full hremembers hfull next.1 next.2
  rw [hremembers.stored, hlast, Option.map_some, houtcome, ← stateAfter_postAll_concat] at hstored
  exact ⟨_, showsUpload_of_stored hprocess hstored⟩

/-- What is read is not always one outcome: a number of more than 64 bits is
    refused, whatever is remembered, and once the tokens have run out, the last
    upload is not. -/
theorem not_forall_reads_latest_outcome :
    (¬ ∀ (o : Options) (requests : List Request) (name : Text) (bytes : Bytes) (u : Upload),
      (uploadsOf requests).getLast? = some (name, bytes) →
        Upload.process o.limit name bytes = .ok u → ∀ i, u.files.length ≤ i →
          (answer o (stateAfter o requests) (.numbered i)).status = 404) ∧
    ¬ ∀ (o : Options) (requests : List Request) (name : Text) (bytes : Bytes) (f : Failure),
      (uploadsOf requests).getLast? = some (name, bytes) →
        Upload.process o.limit name bytes = .error f →
          (answer o (stateAfter o requests) .result).status = 422 := by
  obtain ⟨u, hu, hlength⟩ := process_emptyUpload
  constructor
  · intro h
    have hone : (uploadsOf (postAll [emptyUpload])).getLast? = some emptyUpload := by
      rw [uploadsOf_postAll]
      rfl
    have hsize : u.files.length ≤ UInt64.size := by
      rw [hlength]
      decide
    have hremembers := remembers_postAll plainOptions [emptyUpload] (by decide)
    have hrefused := (hremembers.showsUpload rfl hu).noFile UInt64.size hsize
    rw [h plainOptions _ _ _ u hone hu UInt64.size hsize, if_neg (Nat.lt_irrefl _)] at hrefused
    cases hrefused
  · intro h
    -- So many uploads that the last token is taken, and then one that fails.
    obtain ⟨f, hf⟩ := process_brokenUpload
    have hfull : (List.replicate (UInt64.size - 1) emptyUpload).length + 1 = UInt64.size := by
      rw [List.length_replicate]
      decide
    have hlast : (List.replicate (UInt64.size - 1) emptyUpload).getLast? = some emptyUpload := by
      rw [List.getLast?_replicate]
      exact if_neg (by decide)
    have hnewest : (uploadsOf (postAll (List.replicate (UInt64.size - 1) emptyUpload ++
        [brokenUpload]))).getLast? = some brokenUpload := by
      rw [uploadsOf_postAll, List.getLast?_concat]
    obtain ⟨token, hshows⟩ :=
      exists_showsUpload_of_full (o := plainOptions) hfull hlast hu brokenUpload
    have hread := hshows.result.status
    rw [h plainOptions _ _ _ f hnewest hf] at hread
    cases hread

end Neaten.Server
