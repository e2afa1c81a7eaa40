import Mathlib.Data.Bool.AllAny
import Neaten.Proofs.Server.Requests

/-! # The names of downloads

    A response that is a file says its name between quotes, in a field of its
    header.  The name comes from whoever uploaded it and may hold any character.
    A quote in it would end the name before its time, a backslash would take the
    next character with it, and a line break would end the field.

    No such character gets there: a name is shown with `_` in place of each one
    that is not allowed between quotes, and with all others where they were. -/

namespace Neaten.Server

/-! ## Characters -/

/-- A character of ASCII that is no control character. -/
def IsPlainAscii (c : Char) : Prop := 0x20 ≤ c.toNat ∧ c.toNat ≤ 0x7E

/-- A character that may stand between quotes. -/
def IsAllowed (c : Char) : Prop := IsPlainAscii c ∧ c ≠ '"' ∧ c ≠ '\\'

instance (c : Char) : Decidable (IsPlainAscii c) := inferInstanceAs (Decidable (_ ∧ _))

instance (c : Char) : Decidable (IsAllowed c) := inferInstanceAs (Decidable (_ ∧ _))

theorem isSafe_iff (c : Char) : isSafe c = true ↔ IsAllowed c := by
  simp [isSafe, IsAllowed, IsPlainAscii, and_assoc]

/-! ## What is shown of a name -/

/-- A text shows a name as far as that is allowed: it has every allowed character
    of the name in its place, and `_` in place of each other one. -/
structure StandsFor (shown name : Text) : Prop where
  length : shown.length = name.length
  kept : ∀ (i : Nat) (c : Char), name[i]? = some c → IsAllowed c → shown[i]? = some c
  replaced : ∀ (i : Nat) (c : Char), name[i]? = some c → ¬ IsAllowed c → shown[i]? = some '_'

theorem standsFor_safeName (name : Text) : StandsFor (safeName name) name where
  length := List.length_map _
  kept := by
    intro i c hc hallowed
    have hsafe : isSafe c = true := (isSafe_iff c).mpr hallowed
    rw [safeName, List.getElem?_map, hc, Option.map_some, if_pos hsafe]
  replaced := by
    intro i c hc hnot
    have hunsafe : ¬ isSafe c = true := fun hsafe => hnot ((isSafe_iff c).mp hsafe)
    rw [safeName, List.getElem?_map, hc, Option.map_some, if_neg hunsafe]

/-- Nothing but the allowed characters is shown. -/
theorem isAllowed_of_mem_safeName {name : Text} {c : Char} (h : c ∈ safeName name) :
    IsAllowed c := by
  obtain ⟨d, -, rfl⟩ := List.mem_map.mp h
  by_cases hd : isSafe d = true
  · rw [if_pos hd]
    exact (isSafe_iff d).mp hd
  · rw [if_neg hd]
    decide

/-- A name is shown as it is just if all of it is allowed. -/
theorem safeName_eq_self_iff (name : Text) : safeName name = name ↔ ∀ c ∈ name, IsAllowed c := by
  constructor
  · intro heq c hc
    rw [← heq] at hc
    exact isAllowed_of_mem_safeName hc
  · intro hall
    have hkept : ∀ c ∈ name, (if isSafe c then c else '_') = c := fun c hc =>
      if_pos ((isSafe_iff c).mpr (hall c hc))
    rw [safeName, List.map_congr_left hkept]
    exact List.map_id' name

theorem forall_isAllowed_formattedName_iff (name : Text) :
    (∀ c ∈ formattedName name, IsAllowed c) ↔ ∀ c ∈ name, IsAllowed c := by
  have hfront : ∀ c ∈ "formatted_".toList, IsAllowed c :=
    List.all_iff_forall_prop.mp (by decide)
  unfold formattedName
  rw [List.forall_mem_append]
  exact and_iff_right hfront

/-! ## The field -/

/-- A field says a name between quotes, and holds nothing that could end the name
    before its time, take the meaning from a quote, or end the field. -/
structure Quotes (value shown : Text) : Prop where
  eq : value = "attachment; filename=\"".toList ++ shown ++ "\"".toList
  isPlainAscii : ∀ c ∈ value, IsPlainAscii c
  count_quote : value.count '"' = 2
  not_mem_backslash : '\\' ∉ value

theorem quotes_disposition (name : Text) : Quotes (disposition name) (safeName name) where
  eq := rfl
  isPlainAscii := by
    have hfront : ∀ c ∈ "attachment; filename=\"".toList, IsPlainAscii c :=
      List.all_iff_forall_prop.mp (by decide)
    have hback : ∀ c ∈ "\"".toList, IsPlainAscii c := List.all_iff_forall_prop.mp (by decide)
    unfold disposition
    rw [List.forall_mem_append, List.forall_mem_append]
    exact ⟨⟨hfront, fun c hc => (isAllowed_of_mem_safeName hc).1⟩, hback⟩
  count_quote := by
    have hname : (safeName name).count '"' = 0 :=
      List.count_eq_zero.mpr fun hmem => (isAllowed_of_mem_safeName hmem).2.1 rfl
    have hfront : "attachment; filename=\"".toList.count '"' = 1 := by decide
    have hback : "\"".toList.count '"' = 1 := by decide
    unfold disposition
    rw [List.count_append, List.count_append, hfront, hname, hback]
  not_mem_backslash := by
    have hfront : '\\' ∉ "attachment; filename=\"".toList := by decide
    have hback : '\\' ∉ "\"".toList := by decide
    unfold disposition
    rw [List.mem_append, List.mem_append]
    rintro ((hmem | hmem) | hmem)
    · exact hfront hmem
    · exact (isAllowed_of_mem_safeName hmem).2.2 rfl
    · exact hback hmem

/-! ## Where the field is said -/

/-- What some header fields say under a name. -/
def valuesOf (field : Text) (headers : List Header) : List Text :=
  headers.filterMap fun h => if h.1 = field then some h.2 else none

theorem valuesOf_append (field : Text) (front back : List Header) :
    valuesOf field (front ++ back) = valuesOf field front ++ valuesOf field back :=
  List.filterMap_append

theorem valuesOf_cons_self (field value : Text) (rest : List Header) :
    valuesOf field ((field, value) :: rest) = value :: valuesOf field rest :=
  List.filterMap_cons_some (if_pos rfl)

theorem valuesOf_cons_of_ne {field other : Text} (h : other ≠ field) (value : Text)
    (rest : List Header) : valuesOf field ((other, value) :: rest) = valuesOf field rest :=
  List.filterMap_cons_none (if_neg h)

/-- The field in which a download says its name. -/
def nameField : Text := "content-disposition"

theorem valuesOf_attachment (name type text : Text) :
    valuesOf nameField (attachment name type text).headers = [disposition name] := by
  have htype : ("content-type" : Text) ≠ nameField := by decide
  have hlength : ("content-length" : Text) ≠ nameField := by decide
  unfold attachment Response.ofText Response.lengthHeader
  dsimp only
  rw [valuesOf_cons_of_ne htype, valuesOf_cons_of_ne hlength]
  exact valuesOf_cons_self nameField (disposition name) []

/-- What every answer says besides is said in other fields. -/
theorem valuesOf_finish_attachment (o : Options) (name type text : Text) :
    valuesOf nameField (finish o "GET" (attachment name type text)).headers =
      [disposition name] := by
  have hcommon : valuesOf nameField (varyHeader :: originHeaders o "GET") = [] := by
    unfold originHeaders
    cases o.crossOrigin <;> decide
  unfold finish Response.withHeaders
  dsimp only
  rw [valuesOf_append, valuesOf_attachment, hcommon, List.append_nil]

/-! ## The theorem -/

/-- **The name of a download stays within its quotes.**  Whatever the name of a
    file, the field for its download is plain ASCII without backslash, and has two
    quotes only: those around what is shown of the name that the file is offered
    under.  That is shown as it is just if all its characters are allowed.  The
    answer to the request for a file has this field, and no other of its kind. -/
theorem download_names_stay_quoted (name : Text) :
    (∃ shown, Quotes (disposition (formattedName name)) shown ∧
      StandsFor shown (formattedName name) ∧
      (shown = formattedName name ↔ ∀ c ∈ name, IsAllowed c)) ∧
    ∀ (o : Options) (s : State) (u : Upload) (i : Nat) (f : SourceFile),
      s.upload? = some u → u.files[i]? = some f → f.name = name → i < UInt64.size →
        valuesOf nameField (answer o s (.numbered i)).headers =
          [disposition (formattedName name)] := by
  constructor
  · refine ⟨_, quotes_disposition _, standsFor_safeName _, ?_⟩
    rw [safeName_eq_self_iff, forall_isAllowed_formattedName_iff]
  · rintro o s u i f hupload hfile rfl hi
    have hbind : s.upload?.bind (·.files[i]?) = some f := by
      rw [hupload]
      exact hfile
    rw [answer_eq_finish (ofPath?_numbered i) (shown_numbered hi hbind)]
    exact valuesOf_finish_attachment o _ _ _

/-- A file whose name tries to end the field and to begin another one. -/
def hostileFile : SourceFile :=
  { name := "a\"\r\nX: \\\u00e9.txt", path := "a\"\r\nX: \\\u00e9.txt", content := [],
    formatted := none }

/-- The state after an upload of this file. -/
def hostileState : State :=
  { issued := 1, stored := some ⟨1, .processed ⟨hostileFile.name, [hostileFile], none⟩⟩ }

/-- Each of the five characters in question is replaced. -/
theorem download_names_stay_quoted_hostile :
    hostileState.upload? = some ⟨hostileFile.name, [hostileFile], none⟩ ∧
      (Upload.mk hostileFile.name [hostileFile] none).files[0]? = some hostileFile ∧
      0 < UInt64.size ∧
      valuesOf nameField (answer ⟨64, true⟩ hostileState (.numbered 0)).headers =
        [("attachment; filename=\"formatted_a___X: __.txt\"" : Text)] := by
  have hvalues := (download_names_stay_quoted hostileFile.name).2 ⟨64, true⟩ hostileState
    ⟨hostileFile.name, [hostileFile], none⟩ 0 hostileFile rfl rfl rfl (by decide)
  refine ⟨rfl, rfl, by decide, ?_⟩
  rw [hvalues]
  decide

end Neaten.Server
