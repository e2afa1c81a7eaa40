import Neaten.Proofs.Text.Encoding
import Neaten.Proofs.Text.Pieces
import Neaten.Server.Respond

/-! # What requests ask for

    Two kinds of request matter: those that read what stands at the path of a
    route, and those that upload bytes under a name.  Every route but the one
    for uploads is read at its own path; a number in such a path is read back
    if it has 64 bits.  Whatever the name of an upload is, some query holds it.

    Only a request that uploads changes the state. -/

namespace Neaten

/-! ## Bytes of ASCII -/

namespace Utf8

/-- A text of ASCII has a byte for every character. -/
theorem encode_of_ascii {t : Text} (h : ∀ c ∈ t, c.toNat < 0x80) :
    encode t = t.map fun c => .ofNat c.toNat := by
  induction t with
  | nil => rfl
  | cons c rest ih =>
    obtain ⟨hc, hrest⟩ := List.forall_mem_cons.mp h
    have hchar : encodeChar c = [.ofNat c.toNat] := if_pos hc
    rw [encode_cons, hchar, ih hrest]
    rfl

/-- What was encoded is decoded, without loss. -/
theorem decode?_encode (t : Text) : decode? (encode t) = some t := by
  unfold decode?
  rw [scan_encode]
  induction t with
  | nil => rfl
  | cons c rest ih => rw [List.map_cons, List.mapM_cons, ih]; rfl

end Utf8

namespace Server

/-! ## Numbers in a path -/

/-- Bytes without percent sign stand for themselves. -/
theorem percentDecode_of_not_mem {bytes : Bytes} (h : percent ∉ bytes) :
    percentDecode bytes = bytes := by
  induction bytes with
  | nil => rfl
  | cons b rest ih =>
    obtain ⟨hb, hrest⟩ : percent ≠ b ∧ percent ∉ rest := by simpa using h
    match rest, ih with
    | [], _ => rfl
    | [c], _ => rfl
    | c :: d :: more, ih =>
      rw [percentDecode, if_neg (Ne.symm hb)]
      exact congrArg (b :: ·) (ih hrest)

theorem isDigit_of_mem_decimal {n : Nat} {c : Char} (h : c ∈ Text.decimal n) :
    c.isDigit = true :=
  Nat.isDigit_of_mem_toDigits (by decide) (by decide) h

/-- A number in decimal is read if it has 64 bits, and is no number otherwise. -/
theorem word?_decimal (n : Nat) :
    word? (Text.decimal n) = if n < UInt64.size then some n else none := by
  have hunsigned : unsigned (Text.decimal n) = Text.decimal n := by
    unfold unsigned
    split
    · next digits hplus =>
      have hmem : '+' ∈ Text.decimal n := by
        rw [hplus]
        exact List.mem_cons_self
      exact absurd (isDigit_of_mem_decimal hmem) (by decide)
    · rfl
  have hvalue : (Text.decimal n).foldl (fun m c => 10 * m + (c.toNat - 48)) 0 = n :=
    Nat.ofDigitChars_ten_toDigits
  have hproper : ¬ (Text.decimal n = [] ∨ !(Text.decimal n).all Char.isDigit) := by
    rintro (hnil | hall)
    · exact Nat.toDigits_ne_nil hnil
    · rw [List.all_eq_true.mpr fun c hc => isDigit_of_mem_decimal hc] at hall
      cases hall
  unfold word?
  simp only [hunsigned, if_neg hproper, hvalue]

/-- A digit is a character of ASCII other than the percent sign and the slash. -/
theorem of_isDigit {c : Char} (h : c.isDigit = true) :
    c.toNat < 0x80 ∧ UInt8.ofNat c.toNat ≠ percent ∧ c ≠ '/' := by
  have hbounds : 48 ≤ c.toNat ∧ c.toNat ≤ 57 := by
    simpa [Char.isDigit, UInt32.le_iff_toNat_le] using h
  refine ⟨by omega, ?_, ?_⟩
  · intro heq
    have hnat := congrArg UInt8.toNat heq
    rw [UInt8.toNat_ofNat'] at hnat
    have hpercent : percent.toNat = 37 := rfl
    omega
  · rintro rfl
    exact absurd hbounds (by decide)

/-- The number in a path is the one that was written, unless it is too large. -/
theorem index_decimal (n : Nat) :
    index (Text.decimal n) =
      if n < UInt64.size then .ok n else .error (.notANumber (Text.decimal n)) := by
  have hpercent : percent ∉ Utf8.encode (Text.decimal n) := by
    rw [Utf8.encode_of_ascii fun c hc => (of_isDigit (isDigit_of_mem_decimal hc)).1]
    intro hmem
    obtain ⟨c, hc, heq⟩ := List.mem_map.mp hmem
    exact (of_isDigit (isDigit_of_mem_decimal hc)).2.1 heq
  rw [index, percentDecode_of_not_mem hpercent, Utf8.decode?_encode]
  dsimp only
  rw [word?_decimal]
  by_cases hn : n < UInt64.size
  · rw [if_pos hn, if_pos hn]
  · rw [if_neg hn, if_neg hn]

/-! ## Paths of routes -/

/-- The path of a route. -/
def Route.path : Route → Text
  | page => "/"
  | upload => "/api/process"
  | result => "/api/result"
  | readme => "/download/readme"
  | formatted index => formattedPath ++ index

/-- The route of the laid out file with a number. -/
def Route.numbered (n : Nat) : Route := .formatted (Text.decimal n)

/-- A component is found again behind the path that it stands after. -/
theorem ofPath?_formatted {index : Text} (hne : index ≠ []) (hslash : '/' ∉ index) :
    Route.ofPath? (Route.formatted index).path = some (.formatted index) := by
  have hother : ∀ path : Text, formattedPath.isPrefixOf path = false →
      formattedPath ++ index ≠ path := by
    rintro path hpath rfl
    have hprefix : formattedPath <+: formattedPath ++ index := List.prefix_append _ _
    rw [List.isPrefixOf_iff_prefix.mpr hprefix] at hpath
    cases hpath
  have hbehind : formattedPath.isPrefixOf (formattedPath ++ index) = true :=
    List.isPrefixOf_iff_prefix.mpr (List.prefix_append _ _)
  have hindex : (formattedPath ++ index).drop formattedPath.length = index := List.drop_left
  have hproper : ¬ (index = [] ∨ '/' ∈ index) := by
    rintro (hnil | hmem)
    · exact hne hnil
    · exact hslash hmem
  unfold Route.ofPath? Route.path
  dsimp only
  rw [if_neg (hother _ (by decide)), if_neg (hother _ (by decide)),
    if_neg (hother _ (by decide)), if_neg (hother _ (by decide)), if_pos hbehind, hindex,
    if_neg hproper]

theorem ofPath?_numbered (n : Nat) :
    Route.ofPath? (Route.numbered n).path = some (.numbered n) := by
  apply ofPath?_formatted Nat.toDigits_ne_nil
  intro hslash
  exact (of_isDigit (isDigit_of_mem_decimal hslash)).2.2 rfl

/-! ## Reading -/

/-- The request for what stands at a path. -/
def Request.get (path : Text) : Request where
  method := "GET"
  target := ⟨path, []⟩
  body := []

/-- The answer to the request for a route. -/
def answer (o : Options) (s : State) (route : Route) : Response :=
  (respond o (.get route.path) s).1

theorem respond_eq (o : Options) (request : Request) (s : State) :
    respond o request s =
      (finish o request.method (dispatch o request s).1, (dispatch o request s).2) := rfl

/-- What stands at a path. -/
def standing (s : State) (path : Text) : Response :=
  match Route.ofPath? path with
  | some route => (route.shown s).getD (allowed 405 route)
  | none => withoutRoute 404 path

/-- Reading gives what stands at the path. -/
theorem dispatch_get (o : Options) {request : Request} (h : request.method = "GET") (s : State) :
    dispatch o request s = (standing s request.target.path, s) := by
  have hoptions : request.method ≠ optionsMethod := by
    rw [h]
    decide
  rw [dispatch, if_neg hoptions, standing]
  cases Route.ofPath? request.target.path with
  | none => rfl
  | some route =>
    dsimp only
    unfold Route.answer
    cases route.shown s with
    | some r => exact if_pos h
    | none => exact if_neg (by rw [h]; decide)

/-- A request with the method for reading leaves the state as it is, and nothing
    but its path counts. -/
theorem respond_get (o : Options) {request : Request} (h : request.method = "GET") (s : State) :
    respond o request s = ((respond o (.get request.target.path) s).1, s) := by
  have hget : (Request.get request.target.path).method = "GET" := rfl
  rw [respond_eq, respond_eq, dispatch_get o h, dispatch_get o hget, h, hget]
  rfl

/-- What a route shows is answered to the request for it, with the header fields
    that every answer has. -/
theorem answer_eq_finish {o : Options} {s : State} {route : Route} {r : Response}
    (hpath : Route.ofPath? route.path = some route) (hshown : route.shown s = some r) :
    answer o s route = finish o "GET" r := by
  have hstanding : standing s route.path = r := by
    rw [standing, hpath]
    dsimp only
    rw [hshown, Option.getD_some]
  have hdispatch : dispatch o (.get route.path) s = (r, s) := by
    rw [dispatch_get o rfl, ← hstanding]
    rfl
  rw [answer, respond_eq, hdispatch]
  rfl

theorem answer_of_shown {o : Options} {s : State} {route : Route} {r : Response}
    (hpath : Route.ofPath? route.path = some route) (hshown : route.shown s = some r) :
    (answer o s route).status = r.status ∧ (answer o s route).body = r.body := by
  rw [answer_eq_finish hpath hshown]
  exact ⟨rfl, rfl⟩

/-- The laid out file with a number is offered under its name. -/
theorem shown_numbered {s : State} {n : Nat} {f : SourceFile} (hn : n < UInt64.size)
    (hfile : s.upload?.bind (·.files[n]?) = some f) :
    (Route.numbered n).shown s =
      some (attachment (formattedName f.name) plainType f.shownText) := by
  show some (showFormatted s (Text.decimal n)) = _
  rw [showFormatted, index_decimal, if_pos hn]
  dsimp only
  rw [hfile]

/-! ## Uploading -/

/-- A request that uploads bytes under a name. -/
structure Request.Uploads (request : Request) (name : Text) (bytes : Bytes) : Prop where
  method : request.method = "POST"
  path : request.target.path = Route.upload.path
  name : queryField "name" request.target.query = .ok name
  body : request.body = bytes

/-- The name and the bytes that a request uploads, if it does. -/
def Request.upload? (request : Request) : Option (Text × Bytes) :=
  if request.method = "POST" ∧ request.target.path = Route.upload.path then
    match queryField "name" request.target.query with
    | .ok name => some (name, request.body)
    | .error _ => none
  else none

theorem Request.upload?_eq_some_iff {request : Request} {name : Text} {bytes : Bytes} :
    request.upload? = some (name, bytes) ↔ request.Uploads name bytes := by
  constructor
  · intro h
    unfold upload? at h
    split at h
    · next hpost =>
      split at h
      · next read hread =>
        obtain ⟨rfl, rfl⟩ := Prod.mk.inj (Option.some.inj h)
        exact ⟨hpost.1, hpost.2, hread, rfl⟩
      · cases h
    · cases h
  · intro h
    rw [upload?, if_pos ⟨h.method, h.path⟩, h.name, h.body]

/-- A request that uploads is answered as the upload is, and remembered. -/
theorem respond_of_uploads {request : Request} {name : Text} {bytes : Bytes}
    (h : request.Uploads name bytes) (o : Options) (s : State) :
    respond o request s =
      (finish o request.method (takeUpload o.limit name bytes s).1,
        (takeUpload o.limit name bytes s).2) := by
  have hoptions : request.method ≠ optionsMethod := by
    rw [h.method]
    decide
  have hroute : Route.ofPath? request.target.path = some .upload := by
    rw [h.path]
    decide
  have hdispatch : dispatch o request s = takeUpload o.limit name bytes s := by
    rw [dispatch, if_neg hoptions, hroute]
    dsimp only
    rw [Route.answer, Route.shown]
    dsimp only
    rw [if_pos h.method, Server.upload, h.name, h.body]
  rw [respond_eq, hdispatch]

theorem eq_upload_of_ofPath? {path : Text} (h : Route.ofPath? path = some .upload) :
    path = Route.upload.path := by
  unfold Route.ofPath? at h
  dsimp only at h
  by_cases hpath : path = "/api/process"
  · exact hpath
  · rw [if_neg hpath] at h
    split at h
    · cases h
    split at h
    · cases h
    split at h
    · cases h
    split at h
    · split at h <;> cases h
    · cases h

/-- **Only uploads change the state**: any other request leaves it as it is. -/
theorem state_respond_of_upload?_eq_none {request : Request} (h : request.upload? = none)
    (o : Options) (s : State) : (respond o request s).2 = s := by
  rw [respond_eq, dispatch]
  split
  · rfl
  cases hroute : Route.ofPath? request.target.path with
  | none => rfl
  | some route =>
    dsimp only
    unfold Route.answer
    cases hshown : route.shown s with
    | some r =>
      dsimp only
      split
      · rfl
      split <;> rfl
    | none =>
      dsimp only
      split
      · next hpost =>
        -- Nothing is shown for uploads alone, so the query is at fault.
        obtain rfl : route = .upload := by
          cases route <;> first | rfl | cases hshown
        rw [Request.upload?, if_pos ⟨hpost, eq_upload_of_ofPath? hroute⟩] at h
        unfold Server.upload
        split
        · rfl
        · next name hname =>
          rw [hname] at h
          cases h
      · rfl

/-! ## Names of uploads -/

/-- A byte as a percent sign and two digits. -/
def escapeByte (b : UInt8) : Text :=
  ['%', Nat.digitChar (b.toNat / 16), Nat.digitChar (b.toNat % 16)]

/-- A name with every byte of it written as a percent sign and two digits. -/
def escapeName (name : Text) : Text := (Utf8.encode name).flatMap escapeByte

/-- The request that uploads bytes under a name. -/
def Request.post (name : Text) (bytes : Bytes) : Request where
  method := "POST"
  target := ⟨Route.upload.path, "name=" ++ escapeName name⟩
  body := bytes

/-- A digit is read back, and is no other character that a query tells apart. -/
theorem hexDigit?_digitChar (n : Fin 16) :
    hexDigit? (.ofNat (Nat.digitChar n).toNat) = some n.val ∧ (Nat.digitChar n).toNat < 0x80 ∧
      Nat.digitChar n ≠ '&' ∧ Nat.digitChar n ≠ '+' := by
  revert n
  decide

theorem of_mem_escapeByte {b : UInt8} {c : Char} (h : c ∈ escapeByte b) :
    c.toNat < 0x80 ∧ c ≠ '&' ∧ c ≠ '+' := by
  have hhigh := (hexDigit?_digitChar ⟨b.toNat / 16, by have := b.toNat_lt; omega⟩).2
  have hlow := (hexDigit?_digitChar ⟨b.toNat % 16, Nat.mod_lt _ (by decide)⟩).2
  simp only [escapeByte, List.mem_cons, List.not_mem_nil, or_false] at h
  rcases h with rfl | rfl | rfl
  · decide
  · exact hhigh
  · exact hlow

/-- An escaped byte is read back, whatever follows. -/
theorem percentDecode_escapeByte (b : UInt8) (rest : Bytes) :
    percentDecode ((escapeByte b).map (fun c => .ofNat c.toNat) ++ rest) =
      b :: percentDecode rest := by
  have hhigh := (hexDigit?_digitChar ⟨b.toNat / 16, by have := b.toNat_lt; omega⟩).1
  have hlow := (hexDigit?_digitChar ⟨b.toNat % 16, Nat.mod_lt _ (by decide)⟩).1
  have hbyte : UInt8.ofNat (16 * (b.toNat / 16) + b.toNat % 16) = b := by
    rw [Nat.div_add_mod, UInt8.ofNat_toNat]
  have hpercent : UInt8.ofNat '%'.toNat = percent := rfl
  simp only [escapeByte, List.map_cons, List.map_nil, List.cons_append, List.nil_append,
    percentDecode, hpercent, if_pos, hexByte?, hhigh, hlow, Option.bind_eq_bind, Option.bind_some,
    hbyte]
  rfl

theorem of_mem_escapeName {name : Text} {c : Char} (h : c ∈ escapeName name) :
    c.toNat < 0x80 ∧ c ≠ '&' ∧ c ≠ '+' := by
  obtain ⟨b, -, hc⟩ := List.mem_flatMap.mp h
  exact of_mem_escapeByte hc

/-- Every name is read back. -/
theorem formText_escapeName (name : Text) : formText (escapeName name) = name := by
  have hplus : (escapeName name).map (fun c => if c = '+' then ' ' else c) = escapeName name := by
    rw [List.map_congr_left fun c hc => if_neg (of_mem_escapeName hc).2.2]
    exact List.map_id' _
  have hbytes : ∀ bytes : Bytes,
      percentDecode ((bytes.flatMap escapeByte).map fun c => .ofNat c.toNat) = bytes := by
    intro bytes
    induction bytes with
    | nil => rfl
    | cons b rest ih =>
      rw [List.flatMap_cons, List.map_append, percentDecode_escapeByte, ih]
  rw [formText, hplus, Utf8.encode_of_ascii fun c hc => (of_mem_escapeName hc).1, escapeName,
    hbytes, Utf8.decodeLossy_encode]

/-- **Every name can be uploaded.** -/
theorem uploads_post (name : Text) (bytes : Bytes) :
    (Request.post name bytes).Uploads name bytes where
  method := rfl
  path := rfl
  body := rfl
  name := by
    have hsingle : '&' ∉ "name=".toList ++ escapeName name := by
      intro hmem
      rcases List.mem_append.mp hmem with hfront | hname
      · exact absurd hfront (by decide)
      · exact (of_mem_escapeName hname).2.1 rfl
    have hfield : formField ("name=".toList ++ escapeName name) = ("name".toList, name) := by
      have hname : formText "name".toList = "name".toList := by decide
      unfold formField
      rw [show ("name=".toList ++ escapeName name).takeWhile (· ≠ '=') = "name".toList by
          simp,
        show (("name=".toList ++ escapeName name).dropWhile (· ≠ '=')).drop 1 = escapeName name by
          simp,
        hname, formText_escapeName]
    have hfields : queryFields (Request.post name bytes).target.query = [("name".toList, name)] := by
      unfold queryFields Request.post
      rw [Text.split_of_not_mem hsingle, List.filter_cons_of_pos (by simp), List.filter_nil,
        List.map_singleton, hfield]
    rw [queryField, hfields]
    rfl

theorem upload?_post (name : Text) (bytes : Bytes) :
    (Request.post name bytes).upload? = some (name, bytes) :=
  Request.upload?_eq_some_iff.mpr (uploads_post name bytes)

end Server

end Neaten
