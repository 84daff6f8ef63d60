import Mathlib.Data.List.Forall2
import RpcWire.Proofs.Metadata
import RpcWire.Proofs.Status.Record
import RpcWire.Status.Completion

/-!
# The details of a status

What a failure says goes into a record and its text, and is read back from every
spelling of that text: the number of the code, the message, and the details in
their order. Only the type of a detail may have changed, and only in front of
its name (`Detail.Qualifies`). The trailers of a response that hold such a text
give the same details, whatever its status is (`details_roundTrip`).
-/

namespace RpcWire

/-- The one detail is the other under a type that has a slash. -/
structure Detail.Qualifies (d read : Detail) : Prop where
  value : read.value = d.value
  typeUrl : read.typeUrl =
    if '/' ∈ d.typeUrl.toList then d.typeUrl else "type.googleapis.com/" ++ d.typeUrl
  typeName : read.typeName = d.typeName

theorem Detail.qualifies_qualified (d : Detail) : d.Qualifies d.qualified where
  value := d.value_qualified
  typeUrl := by
    unfold qualified
    by_cases slash : '/' ∈ d.typeUrl.toList
    · rw [if_pos (List.contains_iff_mem.mpr slash), if_pos slash]
    · rw [if_neg (fun h => slash (List.contains_iff_mem.mp h)), if_neg slash]
      rfl
  typeName := d.typeName_qualified

namespace StatusRecord

/-- Only lengths of two to the sixty-four and more do not fit. -/
theorem fits_of {code : Code} {message : Option String} {details : List Detail}
    (words : (Utf8.encode (message.getD "")).length < 2 ^ 64)
    (fit : ∀ d ∈ details, d.qualified.encode.length < 2 ^ 64) : (of code message details).Fits := by
  obtain ⟨low, high⟩ := number_of_bounds code message details
  refine ⟨low, high, words, ?_⟩
  exact List.forall_mem_map.mpr fit

/-- Trailers that have a status and the text of a record give the details of the record; they are
not empty, so the headers do not count. -/
theorem details_parse {text status : String} {r : StatusRecord} (read : ofText text = .ok r)
    {trailers : Metadata} (present : trailers.text? FieldName.grpcStatus = some status)
    (holds : trailers.text? FieldName.grpcStatusRecord = some text) (headers : Metadata)
    (hasBody : Bool) : (Completion.parse headers hasBody trailers).details = r.details := by
  have full : (!hasBody && trailers.isEmpty) = false := by
    rw [Metadata.isEmpty_of_text? holds, Bool.and_false]
  unfold Completion.parse
  rw [full]
  simp only [Bool.false_eq_true, if_false, present, holds, Option.map_some, Option.getD_some,
    Completion.detailsOfText, read]

/-- A failure is read back from every spelling of its record: the number, the message, which is
empty if there is none, and every detail in its place, with its value and the name of its type. The
trailers of a response that hold the text give these details under any status. -/
theorem details_roundTrip (code : Code) {message : Option String} {details : List Detail}
    (words : (Utf8.encode (message.getD "")).length < 2 ^ 64)
    (fit : ∀ d ∈ details, d.qualified.encode.length < 2 ^ 64) {text : String}
    (spelled : (of code message details).Spells text) :
    ∃ r, ofText text = .ok r ∧ r.number = code.number ∧ r.message = message.getD "" ∧
      List.Forall₂ Detail.Qualifies details r.details ∧
      ∀ (headers : Metadata) (hasBody : Bool) (trailers : Metadata) (status : String),
        trailers.text? FieldName.grpcStatus = some status →
        trailers.text? FieldName.grpcStatusRecord = some text →
        (Completion.parse headers hasBody trailers).details = r.details := by
  have read := ofText_of_spells (fits_of words fit) spelled
  refine ⟨of code message details, read, rfl, rfl, ?_, ?_⟩
  · show List.Forall₂ Detail.Qualifies details (details.map Detail.qualified)
    rw [List.forall₂_map_right_iff, List.forall₂_same]
    exact fun d _ => d.qualifies_qualified
  · intro headers hasBody trailers status present holds
    exact details_parse read present holds headers hasBody

/-- A detail whose type has no slash, and one whose type has two. -/
def slashedDetails : List Detail := [⟨"a.B", [1, 2]⟩, ⟨"x/y/C", []⟩]

/-- The text of a record with those details. It has lost two signs of padding and stands between
blanks. -/
def strippedText : String :=
  "\tCAUSBWdvbmUhGh0KF3R5cGUuZ29vZ2xlYXBpcy5jb20vYS5CEgIBAhoHCgV4L3kvQw "

/-- That text beside a status that is no number. -/
def strippedTrailers : Metadata :=
  .ofTexts [(FieldName.grpcStatus, "x"), (FieldName.grpcStatusRecord, strippedText)]

theorem details_roundTrip_stripped :
    ∃ r, ofText strippedText = .ok r ∧ r.number = 5 ∧ r.message = "gone!" ∧
      r.details.map Detail.typeName = ["a.B", "C"] ∧
      (Completion.parse .empty false strippedTrailers).details = r.details := by
  have spelled : (of .notFound (some "gone!") slashedDetails).Spells strippedText :=
    ⟨['\t'], _, [' '], by decide +kernel, .inr rfl, List.forall_mem_singleton.mpr rfl,
      List.forall_mem_singleton.mpr rfl⟩
  obtain ⟨r, read, number, message, qualified, given⟩ :=
    details_roundTrip .notFound (by decide +kernel) (by decide +kernel) spelled
  refine ⟨r, read, number, message, ?_, ?_⟩
  · have names : List.Forall₂ (· = ·) (slashedDetails.map Detail.typeName)
        (r.details.map Detail.typeName) := by
      rw [List.forall₂_map_left_iff, List.forall₂_map_right_iff]
      exact qualified.imp fun _ _ h => h.typeName.symm
    rw [List.forall₂_eq_eq_eq] at names
    exact names.symm.trans (by decide +kernel)
  · exact given .empty false strippedTrailers "x" (by decide +kernel) (by decide +kernel)

end StatusRecord

end RpcWire
