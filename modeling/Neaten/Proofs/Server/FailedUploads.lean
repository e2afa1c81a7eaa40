import Neaten.Proofs.Server.LatestOutcome

/-! # Failed uploads reveal nothing

    Of an upload that fails the server remembers the name, but neither the name
    nor the reason shows in any answer.  So let two servers handle the same
    requests, except that here and there they are sent two different uploads
    that both fail.  Nobody can tell from their answers which server it was.

    After every request the states of the two servers are the same, up to the
    name of a failed upload.  This carries the induction: from such states two
    requests of that kind get the same answer and lead to such states again. -/

namespace Neaten.Server

/-! ## States that look alike -/

/-- Two states look alike if they are the same, or if both remember a failure
    under the same token and differ in the name that failed alone. -/
inductive State.Alike : State → State → Prop
  | same (s : State) : Alike s s
  | failed (issued token : UInt64) (message first second : Text) :
      Alike ⟨issued, some ⟨token, .failed first message⟩⟩
        ⟨issued, some ⟨token, .failed second message⟩⟩

/-- Two answers cannot be told apart, and neither can the states that are left. -/
structure AnswersAlike (x y : Response × State) : Prop where
  response : x.1 = y.1
  state : x.2.Alike y.2

section

variable {s t : State} (h : s.Alike t)

include h

theorem State.Alike.issued_eq : s.issued = t.issued := by
  cases h with
  | same => rfl
  | failed issued token message first second => rfl

/-- **No route shows a difference.** -/
theorem State.Alike.shown_eq (route : Route) : route.shown s = route.shown t := by
  cases h with
  | same => rfl
  | failed issued token message first second =>
    -- The result is the message alone, and there is nothing to download.
    cases route with
    | page => rfl
    | upload => rfl
    | result => rfl
    | readme => rfl
    | formatted index => rfl

/-- The next token is the same. -/
theorem State.Alike.issue :
    s.issue.1 = t.issue.1 ∧ s.issue.2.Alike t.issue.2 := by
  cases h with
  | same => exact ⟨rfl, .same _⟩
  | failed issued token message first second => exact ⟨rfl, .failed _ _ _ _ _⟩

theorem State.Alike.accepts_eq (token : UInt64) : s.accepts token = t.accepts token := by
  cases h with
  | same => rfl
  | failed issued token message first second => rfl

/-- Outcomes that look alike once they are stored may be published. -/
theorem State.Alike.publish (token : UInt64) {a b : Outcome}
    (hab : ∀ issued, State.Alike ⟨issued, some ⟨token, a⟩⟩ ⟨issued, some ⟨token, b⟩⟩) :
    (s.publish token a).1 = (t.publish token b).1 ∧
      (s.publish token a).2.Alike (t.publish token b).2 := by
  unfold State.publish
  rw [h.accepts_eq]
  by_cases haccepts : t.accepts token = true
  · rw [if_pos haccepts, if_pos haccepts, h.issued_eq]
    exact ⟨rfl, hab t.issued⟩
  · rw [if_neg haccepts, if_neg haccepts]
    exact ⟨rfl, h⟩

/-! ## One request -/

/-- Two uploads that fail are answered alike, whatever their names and the
    reasons are. -/
theorem State.Alike.takeUpload_failing {limit : Nat} {first second : Text}
    {bytes others : Bytes} {f g : Failure} (hf : Upload.process limit first bytes = .error f)
    (hg : Upload.process limit second others = .error g) :
    AnswersAlike (takeUpload limit first bytes s) (takeUpload limit second others t) := by
  obtain ⟨htoken, hissue⟩ := h.issue
  unfold takeUpload
  rw [hf, hg]
  dsimp only
  rw [htoken]
  obtain ⟨-, hstate⟩ :=
    hissue.publish t.issue.1 fun issued => .failed issued t.issue.1 failedMessage first second
  exact ⟨rfl, hstate⟩

/-- The same upload is answered alike. -/
theorem State.Alike.takeUpload (limit : Nat) (name : Text) (bytes : Bytes) :
    AnswersAlike (takeUpload limit name bytes s) (takeUpload limit name bytes t) := by
  cases hprocess : Upload.process limit name bytes with
  | error f => exact h.takeUpload_failing hprocess hprocess
  | ok u =>
    obtain ⟨htoken, hissue⟩ := h.issue
    obtain ⟨hcurrent, hstate⟩ :=
      hissue.publish t.issue.1 fun issued => .same ⟨issued, some ⟨t.issue.1, .processed u⟩⟩
    unfold Server.takeUpload
    rw [hprocess]
    dsimp only
    rw [htoken]
    -- The response says whether the upload is the one that is remembered.
    exact ⟨by rw [hcurrent], hstate⟩

/-- A route answers the same request alike. -/
theorem State.Alike.answer (o : Options) (route : Route) (request : Request) :
    AnswersAlike (route.answer o request s) (route.answer o request t) := by
  unfold Route.answer
  rw [h.shown_eq]
  cases route.shown t with
  | some r =>
    dsimp only
    -- What is shown does not change the state, whatever the method.
    by_cases hget : request.method = "GET"
    · rw [if_pos hget, if_pos hget]
      exact ⟨rfl, h⟩
    by_cases hhead : request.method = "HEAD"
    · rw [if_neg hget, if_neg hget, if_pos hhead, if_pos hhead]
      exact ⟨rfl, h⟩
    · rw [if_neg hget, if_neg hget, if_neg hhead, if_neg hhead]
      exact ⟨rfl, h⟩
  | none =>
    dsimp only
    by_cases hpost : request.method = "POST"
    · rw [if_pos hpost, if_pos hpost]
      unfold Server.upload
      cases queryField "name" request.target.query with
      | error fault => exact ⟨rfl, h⟩
      | ok name => exact h.takeUpload o.limit name request.body
    · rw [if_neg hpost, if_neg hpost]
      exact ⟨rfl, h⟩

/-- The same request is answered alike. -/
theorem State.Alike.respond (o : Options) (request : Request) :
    AnswersAlike (respond o request s) (respond o request t) := by
  have hdispatch : AnswersAlike (dispatch o request s) (dispatch o request t) := by
    unfold dispatch
    by_cases hoptions : request.method = optionsMethod
    · rw [if_pos hoptions, if_pos hoptions]
      exact ⟨rfl, h⟩
    · rw [if_neg hoptions, if_neg hoptions]
      cases Route.ofPath? request.target.path with
      | none => exact ⟨rfl, h⟩
      | some route => exact h.answer o route request
  rw [respond_eq, respond_eq]
  exact ⟨congrArg (finish o request.method) hdispatch.response, hdispatch.state⟩

end

/-! ## Requests one after another -/

/-- A request uploads something that cannot be processed. -/
def Request.UploadFails (limit : Nat) (request : Request) : Prop :=
  ∃ name bytes f, request.Uploads name bytes ∧ Upload.process limit name bytes = .error f

/-- Two requests are the same, or both upload something that cannot be
    processed, whatever it is. -/
inductive Request.Alike (limit : Nat) : Request → Request → Prop
  | same (request : Request) : Alike limit request request
  | failing {first second : Request} (hfirst : first.UploadFails limit)
      (hsecond : second.UploadFails limit) : Alike limit first second

/-- **One step**: alike requests are answered alike. -/
theorem Request.Alike.respond {o : Options} {first second : Request} {s t : State}
    (hrequests : first.Alike o.limit second) (h : s.Alike t) :
    AnswersAlike (respond o first s) (respond o second t) := by
  cases hrequests with
  | same => exact h.respond o first
  | failing hfirst hsecond =>
    obtain ⟨name, bytes, f, huploads, hf⟩ := hfirst
    obtain ⟨other, others, g, hother, hg⟩ := hsecond
    have htake := h.takeUpload_failing hf hg
    rw [respond_of_uploads huploads, respond_of_uploads hother, huploads.method, hother.method]
    exact ⟨congrArg (finish o "POST") htake.response, htake.state⟩

/-- **A whole run**: alike requests, one after another, are answered alike. -/
theorem respondAll_alike {o : Options} {first second : List Request}
    (hrequests : List.Forall₂ (Request.Alike o.limit) first second) {s t : State}
    (h : s.Alike t) :
    (respondAll o first s).1 = (respondAll o second t).1 ∧
      (respondAll o first s).2.Alike (respondAll o second t).2 := by
  -- The first request changes both states, so the induction is over all alike ones.
  induction hrequests generalizing s t with
  | nil => exact ⟨rfl, h⟩
  | @cons request other rest others hhead htail ih =>
    obtain ⟨hresponse, hstate⟩ := hhead.respond h
    obtain ⟨hresponses, hend⟩ := ih hstate
    refine ⟨?_, hend⟩
    show (respond o request s).1 :: (respondAll o rest (respond o request s).2).1 =
      (respond o other t).1 :: (respondAll o others (respond o other t).2).1
    rw [hresponse, hresponses]

/-- **Failed uploads reveal nothing.**  Two new servers that go by the same
    options are sent the same requests, except that at some places both are sent
    an upload that fails, each with a name and bytes of its own.  Then all their
    responses are the same: status, header fields and body. -/
theorem failed_uploads_reveal_nothing (o : Options) (first second : List Request)
    (h : List.Forall₂ (Request.Alike o.limit) first second) :
    (respondAll o first {}).1 = (respondAll o second {}).1 :=
  (respondAll_alike h (.same _)).1

/-! ### Two runs -/

/-- A single file and an upload that may fail, with reads between and after. -/
def runWith (upload : Text × Bytes) : List Request :=
  [.post emptyUpload.1 emptyUpload.2, .get Route.result.path, .post upload.1 upload.2,
    .get Route.result.path, .get (Route.numbered 0).path, .post emptyUpload.1 emptyUpload.2,
    .get Route.result.path, .post upload.1 upload.2]

/-- An archive that ends too early. -/
def cutUpload : Text × Bytes := ("secret.ZIP", (Archive.emptyFiles ["a.txt"]).take 40)

theorem process_cutUpload : ∃ f, Upload.process 64 cutUpload.1 cutUpload.2 = .error f :=
  Failure.exists_of_toOption_eq_none (by decide +kernel)

/-- The servers remember different names, and answer the same. -/
theorem failed_uploads_reveal_nothing_named :
    List.Forall₂ (Request.Alike plainOptions.limit) (runWith brokenUpload) (runWith cutUpload) ∧
      (respondAll plainOptions (runWith brokenUpload) {}).1 =
        (respondAll plainOptions (runWith cutUpload) {}).1 ∧
      (respondAll plainOptions (runWith brokenUpload) {}).2.stored =
        some ⟨4, .failed brokenUpload.1 failedMessage⟩ ∧
      (respondAll plainOptions (runWith cutUpload) {}).2.stored =
        some ⟨4, .failed cutUpload.1 failedMessage⟩ := by
  obtain ⟨f, hf⟩ := process_brokenUpload
  obtain ⟨g, hg⟩ := process_cutUpload
  have hfailing : (Request.post brokenUpload.1 brokenUpload.2).Alike plainOptions.limit
      (.post cutUpload.1 cutUpload.2) :=
    .failing ⟨_, _, f, uploads_post _ _, hf⟩ ⟨_, _, g, uploads_post _ _, hg⟩
  have hruns : List.Forall₂ (Request.Alike plainOptions.limit) (runWith brokenUpload)
      (runWith cutUpload) :=
    .cons (.same _) <| .cons (.same _) <| .cons hfailing <| .cons (.same _) <| .cons (.same _) <|
      .cons (.same _) <| .cons (.same _) <| .cons hfailing .nil
  exact ⟨hruns, failed_uploads_reveal_nothing plainOptions _ _ hruns, by decide +kernel,
    by decide +kernel⟩

end Neaten.Server
