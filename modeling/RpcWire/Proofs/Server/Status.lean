import RpcWire.Proofs.Frame.Trailers
import RpcWire.Proofs.Status.Record
import RpcWire.Proofs.Text.Percent
import RpcWire.Server.Response
import RpcWire.Status.Completion

/-!
# The status of a call survives its trailers

gRPC and gRPC-Web put the status of a call into three fields of the trailers,
which are read back as the same status (`Completion.failure?_parse`). The
message is read from whatever text its field shows: the written form as it is
(gRPC) or without the blanks at its ends (gRPC-Web).
-/

namespace RpcWire

/-! ## The three fields -/

/-- Nothing but the protocol uses the fields of the status. -/
def Metadata.LeavesStatus (m : Metadata) : Prop :=
  ∀ name ∈ [FieldName.grpcStatus, FieldName.grpcMessage, FieldName.grpcStatusRecord],
    m.values name = []

instance (m : Metadata) : Decidable m.LeavesStatus :=
  inferInstanceAs (Decidable (∀ name ∈ [_, _, _], m.values name = []))

namespace Server.Response

/-- The text of the status. -/
def numberText : Option Failure → String
  | none => "0"
  | some f => toString f.code.number

/-- The text of the message, if there is one. -/
def messageText? (f : Option Failure) : Option String :=
  f.bind fun f => f.message.map Percent.encode

/-- The text of the record, which there is if there are details. -/
def recordText? (f : Option Failure) : Option String :=
  f.bind fun f =>
    if f.details = [] then none else some (StatusRecord.of f.code f.message f.details).toText

theorem addStatus_eq (trailers : Metadata) (f : Option Failure) :
    addStatus trailers f = ((trailers.set FieldName.grpcStatus (numberText f)).setIf
      FieldName.grpcMessage (messageText? f)).setIf FieldName.grpcStatusRecord (recordText? f) := by
  cases f with
  | none => rfl
  | some f =>
    obtain ⟨code, message, details, metadata, cause⟩ := f
    by_cases none : details = []
    · cases message <;>
        simp [addStatus, recordText?, messageText?, numberText, Metadata.setIf, none]
    · cases message <;>
        simp [addStatus, recordText?, messageText?, numberText, Metadata.setIf, none]

theorem isVisible_numberText (f : Option Failure) : IsVisible (numberText f) := by
  cases f with
  | none => decide
  | some f =>
    show IsVisible (toString f.code.number)
    cases f.code <;> decide

theorem printable_toText (r : StatusRecord) {c : Char} (h : c ∈ r.toText.toList) :
    0x21 ≤ c.toNat ∧ c.toNat ≤ 0x7E := by
  rw [StatusRecord.toText, String.toList_ofList] at h
  exact Base64.printable_of_mem_encode _ h

theorem isVisible_messageText {f : Option Failure} : ∀ t ∈ messageText? f, IsVisible t := by
  intro t ht
  obtain ⟨g, -, ht⟩ := Option.bind_eq_some_iff.mp ht
  obtain ⟨message, -, rfl⟩ := Option.map_eq_some_iff.mp ht
  apply isVisible_of_printable
  intro c hc
  exact Percent.printable_encode hc

theorem recordText_eq {f : Option Failure} {t : String} (h : recordText? f = some t) :
    ∃ r : StatusRecord, t = r.toText := by
  obtain ⟨g, -, ht⟩ := Option.bind_eq_some_iff.mp h
  split at ht
  · cases ht
  · cases ht
    exact ⟨_, rfl⟩

theorem isVisible_recordText {f : Option Failure} : ∀ t ∈ recordText? f, IsVisible t := by
  intro t ht
  obtain ⟨r, rfl⟩ := recordText_eq ht
  apply isVisible_of_printable
  intro c hc
  have := printable_toText r hc
  omega

/-- The number of the status replaces whatever a handler has put in its field. -/
theorem values_status_addStatus (trailers : Metadata) (f : Option Failure) :
    (addStatus trailers f).values FieldName.grpcStatus = [Utf8.encode (numberText f)] := by
  rw [addStatus_eq, Metadata.values_setIf_of_ne (by decide),
    Metadata.values_setIf_of_ne (by decide),
    Metadata.values_set (by decide) (all_isFieldByte (isVisible_numberText f)), if_pos rfl]

/-- Status, message and record each stand once, and alone, under their names. -/
theorem values_addStatus {trailers : Metadata} (h : trailers.LeavesStatus) (f : Option Failure) :
    (addStatus trailers f).values FieldName.grpcStatus = [Utf8.encode (numberText f)] ∧
    (addStatus trailers f).values FieldName.grpcMessage =
      (messageText? f).toList.map Utf8.encode ∧
    (addStatus trailers f).values FieldName.grpcStatusRecord =
      (recordText? f).toList.map Utf8.encode := by
  refine ⟨values_status_addStatus trailers f, ?_, ?_⟩
  · rw [addStatus_eq, Metadata.values_setIf_of_ne (by decide),
      Metadata.values_setIf (by decide) isVisible_messageText]
    rw [Metadata.values_set_of_ne (by decide)]
    exact h _ (by decide)
  · rw [addStatus_eq, Metadata.values_setIf (by decide) isVisible_recordText]
    rw [Metadata.values_setIf_of_ne (by decide), Metadata.values_set_of_ne (by decide)]
    exact h _ (by decide)

theorem values_addStatus_of_ne {trailers : Metadata} {f : Option Failure} {key : String}
    (h : ∀ name ∈ [FieldName.grpcStatus, FieldName.grpcMessage, FieldName.grpcStatusRecord],
      Text.lower name ≠ Text.lower key) :
    (addStatus trailers f).values key = trailers.values key := by
  rw [addStatus_eq, Metadata.values_setIf_of_ne (h _ (by decide)),
    Metadata.values_setIf_of_ne (h _ (by decide)), Metadata.values_set_of_ne (h _ (by decide))]

/-- The handler's own trailers stay, after what is added. -/
theorem values_suffix_addStatus {trailers : Metadata} (h : trailers.LeavesStatus)
    (f : Option Failure) (key : String) :
    trailers.values key <:+ (addStatus trailers f).values key := by
  by_cases own : ∀ name ∈ [FieldName.grpcStatus, FieldName.grpcMessage, FieldName.grpcStatusRecord],
      Text.lower name ≠ Text.lower key
  · exact ⟨[], (values_addStatus_of_ne own).symm⟩
  · -- the key is one of the three fields, in which the handler has put nothing
    have none : trailers.values key = [] := by
      simp only [Classical.not_forall, Decidable.not_not] at own
      obtain ⟨name, hmem, same⟩ := own
      rw [← h name hmem, Metadata.values, Metadata.values, same]
    rw [none]
    exact List.nil_suffix

end Server.Response

/-! ## Reading -/

namespace Completion

open Server.Response

/-- The fields of the status show these texts. -/
structure Shows (source : Metadata) (f : Option Failure) (message : Option String) : Prop where
  number : source.text? FieldName.grpcStatus = some (numberText f)
  message : source.text? FieldName.grpcMessage = message
  record : source.text? FieldName.grpcStatusRecord = recordText? f

/-- The number is read back as the code. -/
theorem codeOfText_numberText (f : Option Failure) :
    codeOfText (numberText f) = f.map Failure.code := by
  cases f with
  | none => decide
  | some f =>
    show codeOfText (toString f.code.number) = some f.code
    cases f.code <;> decide

theorem shows_addStatus {trailers : Metadata} (h : trailers.LeavesStatus) (f : Option Failure) :
    Shows (addStatus trailers f) f (messageText? f) := by
  obtain ⟨number, message, record⟩ := values_addStatus h f
  exact ⟨Metadata.text?_of_values (isVisible_numberText f) number,
    Metadata.text?_of_values_toList isVisible_messageText message,
    Metadata.text?_of_values_toList isVisible_recordText record⟩

/-- Headers that leave the status to the trailers show the status of trailers that follow. -/
theorem Shows.merge {headers trailers : Metadata} {f : Option Failure} {message : Option String}
    (shown : Shows trailers f message) (h : headers.LeavesStatus) :
    Shows (headers.merge trailers) f message where
  number := (Metadata.text?_merge_of_none (h _ (by decide))).trans shown.number
  message := (Metadata.text?_merge_of_none (h _ (by decide))).trans shown.message
  record := (Metadata.text?_merge_of_none (h _ (by decide))).trans shown.record

theorem values_parse_encode_toList {m : Metadata} {key : String} {text : Option String}
    (hv : ∀ t ∈ text, IsVisible t) (h : m.values key = text.toList.map Utf8.encode) :
    (TrailerText.parse (TrailerText.encode m)).text? key = text.map TrailerText.trimmed := by
  refine Metadata.text?_of_values_toList ?_ ?_
  · intro t ht
    obtain ⟨written, hwritten, rfl⟩ := Option.map_eq_some_iff.mp ht
    exact TrailerText.isVisible_trimmed (hv written hwritten)
  · rw [TrailerText.values_parse_encode, Metadata.texts, h]
    cases text with
    | none =>
      rw [Option.toList_none, List.map_nil, List.filterMap_nil, Option.map_none, Option.toList_none,
        List.map_nil, List.map_nil]
    | some text =>
      have read := visibleText?_encode (hv text rfl)
      rw [Option.toList_some, List.map_singleton, List.filterMap_cons_some read, List.filterMap_nil,
        List.map_singleton, Option.map_some, Option.toList_some, List.map_singleton]

/-- The number of a status survives the text of the trailers, whatever else they hold. -/
theorem text?_status_parse_encode (trailers : Metadata) (f : Option Failure) :
    (TrailerText.parse (TrailerText.encode (addStatus trailers f))).text? FieldName.grpcStatus =
      some (numberText f) := by
  have solid : (numberText f).toList.all (fun c => !Text.isBlank c) = true := by
    cases f with
    | none => decide
    | some f =>
      show (toString f.code.number).toList.all (fun c => !Text.isBlank c) = true
      cases f.code <;> decide
  have digits : TrailerText.trimmed (numberText f) = numberText f := by
    apply TrailerText.trimmed_of_not_blank
    intro c hc
    simpa using List.all_eq_true.mp solid c hc
  have written : (addStatus trailers f).values FieldName.grpcStatus =
      (some (numberText f)).toList.map Utf8.encode := values_status_addStatus trailers f
  rw [values_parse_encode_toList (fun t ht => by cases ht; exact isVisible_numberText f) written,
    Option.map_some, digits]

/-- The trailers of gRPC-Web show a status, its message without the blanks at its ends. -/
theorem shows_parse_encode {trailers : Metadata} (h : trailers.LeavesStatus) (f : Option Failure) :
    Shows (TrailerText.parse (TrailerText.encode (addStatus trailers f))) f
      ((messageText? f).map TrailerText.trimmed) := by
  obtain ⟨-, message, record⟩ := values_addStatus h f
  -- trimming changes neither the number nor the record, but it may change the message
  refine ⟨text?_status_parse_encode trailers f,
    values_parse_encode_toList isVisible_messageText message, ?_⟩
  rw [values_parse_encode_toList isVisible_recordText record]
  cases hr : recordText? f with
  | none => rfl
  | some text =>
    obtain ⟨r, rfl⟩ := recordText_eq hr
    have solid : TrailerText.trimmed r.toText = r.toText := by
      apply TrailerText.trimmed_of_not_blank
      intro c hc
      exact Text.isBlank_of_printable (printable_toText r hc).1 (printable_toText r hc).2
    rw [Option.map_some, solid]

/-- What is read of the details of a failure. -/
def detailsRead (f : Failure) : List Detail :=
  ((recordText? (some f)).map detailsOfText).getD []

/-- A status that the trailers show, or the headers if there is nothing else, is read as it is. An
empty message counts as none. -/
theorem failure?_parse_of_shows {headers trailers : Metadata} {hasBody : Bool} {f : Option Failure}
    {message : Option String}
    (shown : Shows (if !hasBody && trailers.isEmpty then headers else trailers) f message) :
    (parse headers hasBody trailers).failure? = f.map fun g =>
      ⟨g.code, (message.map Percent.decode).filter (· ≠ ""), detailsRead g,
        headers.merge trailers, none⟩ := by
  have read : parse headers hasBody trailers =
      ⟨true, f.map Failure.code, (message.map Percent.decode).getD "",
        ((recordText? f).map detailsOfText).getD [], headers.merge trailers,
        !hasBody && trailers.isEmpty⟩ := by
    unfold parse
    simp only [shown.number, shown.message, shown.record, codeOfText_numberText]
  rw [read]
  cases f with
  | none => rfl
  | some g =>
    have kept : (if (message.map Percent.decode).getD "" = "" then none
        else some ((message.map Percent.decode).getD "")) =
        (message.map Percent.decode).filter (· ≠ "") := by
      cases message with
      | none => rfl
      | some text => by_cases empty : Percent.decode text = "" <;> simp [empty, Option.filter]
    show some (⟨g.code, _, _, _, _⟩ : Failure) = _
    rw [kept]
    rfl

/-- The length of the record of a failure is a number of 64 bits. -/
def RecordFits (f : Option Failure) : Prop :=
  ∀ g ∈ f, (StatusRecord.of g.code g.message g.details).encode.length < 2 ^ 64

theorem detailsRead_eq {g : Failure} (fits : RecordFits (some g)) :
    detailsRead g = g.details.map Detail.qualified := by
  unfold detailsRead
  by_cases none : g.details = []
  · -- no details make no record
    have unwritten : recordText? (some g) = .none := if_pos none
    rw [unwritten, none]
    rfl
  · have written : recordText? (some g) =
        some (StatusRecord.of g.code g.message g.details).toText := if_neg none
    obtain ⟨low, high⟩ := StatusRecord.number_of_bounds g.code g.message g.details
    rw [written, Option.map_some, Option.getD_some, detailsOfText,
      StatusRecord.ofText_toText low high (fits g rfl)]
    rfl

/-- A status is read with its details if the length of its record can be written. -/
theorem failure?_parse {headers trailers : Metadata} {hasBody : Bool} {f : Option Failure}
    {message : Option String} (fits : RecordFits f)
    (shown : Shows (if !hasBody && trailers.isEmpty then headers else trailers) f message) :
    (parse headers hasBody trailers).failure? = f.map fun g =>
      ⟨g.code, (message.map Percent.decode).filter (· ≠ ""), g.details.map Detail.qualified,
        headers.merge trailers, none⟩ := by
  rw [failure?_parse_of_shows shown]
  cases f with
  | none => rfl
  | some g => rw [Option.map_some, Option.map_some, detailsRead_eq fits]

theorem trailersOnly_parse (headers trailers : Metadata) (hasBody : Bool) :
    (parse headers hasBody trailers).trailersOnly = (!hasBody && trailers.isEmpty) := by
  unfold parse
  simp only
  split <;> rfl

end Completion

end RpcWire
