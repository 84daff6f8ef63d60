import RpcWire.Proofs.Server.Messages

/-!
# Media types with parameters

The media type of a POST is read twice: as it stands, for the protocol, and
without its parameters, for the codec. All else that is read of a request with a
body depends on those two only (`parse_withType`), so a parameter changes nothing
where neither reading sees it.

The codec never sees a parameter. The protocol does in a single case: the media
type of gRPC that names no codec is recognized by being equal to
`application/grpc`, all others by how they begin. With a parameter it is taken
for Connect in the codec `proto` (`parse_parameter`).
-/

namespace RpcWire

/-! ## The two readings -/

theorem toList_parameter (type parameter : String) :
    (type ++ ";" ++ parameter).toList = type.toList ++ ';' :: parameter.toList := by
  rw [String.toList_append, String.toList_append, List.append_assoc]
  rfl

/-- A parameter hides the protocol of one media type. -/
theorem Protocol.detect?_parameter (type parameter : String) :
    detect? "POST" (some (type ++ ";" ++ parameter)) =
      if type = "application/grpc" then some connect else detect? "POST" (some type) := by
  have stems (stem : String) (h : ';' ∉ stem.toList) :
      Text.startsWith stem (type ++ ";" ++ parameter).toList =
        Text.startsWith stem type.toList := by
    rw [toList_parameter, Text.startsWith_append h]
  have longer : type ++ ";" ++ parameter ≠ "application/grpc" := by
    intro same
    have mem : ';' ∈ (type ++ ";" ++ parameter).toList := by
      rw [toList_parameter]
      exact List.mem_append_right _ List.mem_cons_self
    rw [same] at mem
    exact absurd mem (by decide)
  have post : ¬ "POST" = "GET" := by decide
  unfold detect?
  simp only [if_neg post, if_true, Option.bind_some, longer, false_or,
    stems "application/grpc-web" (by decide), stems "application/grpc+" (by decide),
    stems "application/connect+" (by decide), stems "application/" (by decide)]
  by_cases bare : type = "application/grpc"
  · subst bare
    decide
  · simp only [bare, if_false, false_or]

/-- The request under another media type. -/
def Http.WireRequest.withType (r : Http.WireRequest) (type : String) : Http.WireRequest :=
  { r with headers := r.headers.set FieldName.contentType type }

namespace Server.Request

variable {r : Http.WireRequest} {type parameter : String} {call : Request}

theorem protocolOf_eq_ok_iff {verb : String} {type : Option String} {protocol : Protocol} :
    protocolOf verb type = .ok protocol ↔ Protocol.detect? verb type = some protocol := by
  unfold protocolOf
  cases Protocol.detect? verb type with
  | none => exact ⟨fun h => (nomatch h), fun h => (nomatch h)⟩
  | some found => simp

theorem protocolOf_parameter {protocol : Protocol}
    (h : protocolOf "POST" (some type) = .ok protocol) (parameter : String) :
    protocolOf "POST" (some (type ++ ";" ++ parameter)) =
      .ok (if type = "application/grpc" then .connect else protocol) := by
  rw [protocolOf_eq_ok_iff] at h ⊢
  rw [Protocol.detect?_parameter, h]
  split <;> rfl

/-- Parameters are cut off before the codec is read. -/
theorem codecOf_parameter (type parameter : String) :
    codecOf (type ++ ";" ++ parameter) = codecOf type := by
  unfold codecOf
  rw [toList_parameter, Text.takeWhile_append_separator]

/-! ## What depends on them -/

/-- The call under another media type. -/
def withType (call : Request) (type : String) : Request :=
  { call with
    contentType := type
    headers := call.headers.set FieldName.contentType type }

/-- The call of a request with a body whose media type means a protocol and a codec. -/
def posted (r : Http.WireRequest) (compression : Compression) (protocol : Protocol)
    (codec : String) : Except Failure Request := do
  let (service, method) ← procedureOf r.target.path
  let timeout ← timeoutOf protocol r.headers
  let pool ← poolOf (r.headers.text? protocol.encodingField) compression.pools
  let messages ← bodyMessages protocol pool r.body
  .ok
    { protocol, service, method, codec, timeout, messages
      contentType := (r.headers.text? FieldName.contentType).getD ""
      headers := r.headers
      compression := pool.map Pool.name }

/-- The content type decides the protocol and the codec of a posted request and nothing else. -/
theorem parse_eq_posted (post : r.verb = "POST")
    (typed : r.headers.text? FieldName.contentType = some type) (compression : Compression) :
    parse r compression = protocolOf "POST" (some type) >>= fun protocol =>
      posted r compression protocol (codecOf type) := by
  have body : ¬ "POST" = "GET" := by decide
  unfold parse posted
  simp only [post, typed, if_neg body, parseBody_eq, Option.getD_some]

/-- Only the call's own copy of the media type and the headers follow a change. -/
theorem posted_withType (visible : IsVisible type) (r : Http.WireRequest)
    (compression : Compression) (protocol : Protocol) (codec : String) :
    posted (r.withType type) compression protocol codec =
      (posted r compression protocol codec).map (·.withType type) := by
  have typed : (r.withType type).headers.text? FieldName.contentType = some type :=
    Metadata.text?_set (by decide) visible
  have timed : timeoutOf protocol (r.withType type).headers = timeoutOf protocol r.headers :=
    timeoutOf_set_contentType protocol r.headers type
  have coded : (r.withType type).headers.text? protocol.encodingField =
      r.headers.text? protocol.encodingField := coding_set_contentType protocol r.headers type
  unfold posted
  rw [typed, timed, coded]
  show (procedureOf r.target.path >>= _) = Except.map _ (procedureOf r.target.path >>= _)
  cases procedureOf r.target.path with
  | error cause => rfl
  | ok procedure =>
    cases timeoutOf protocol r.headers with
    | error cause => rfl
    | ok timeout =>
      cases poolOf (r.headers.text? protocol.encodingField) compression.pools with
      | error cause => rfl
      | ok pool =>
        show (bodyMessages protocol pool r.body >>= _) =
          Except.map _ (bodyMessages protocol pool r.body >>= _)
        cases bodyMessages protocol pool r.body with
        | error cause => rfl
        | ok messages => rfl

theorem parse_withType (post : r.verb = "POST") (visible : IsVisible type)
    (compression : Compression) :
    parse (r.withType type) compression = protocolOf "POST" (some type) >>= fun protocol =>
      (posted r compression protocol (codecOf type)).map (·.withType type) := by
  have typed : (r.withType type).headers.text? FieldName.contentType = some type :=
    Metadata.text?_set (by decide) visible
  rw [parse_eq_posted (r := r.withType type) post typed]
  simp only [posted_withType visible]

theorem protocol_of_posted {compression : Compression} {protocol : Protocol} {codec : String}
    (h : posted r compression protocol codec = .ok call) : call.protocol = protocol := by
  obtain ⟨⟨service, method⟩, -, h⟩ := bind_eq_ok_iff.mp h
  obtain ⟨timeout, -, h⟩ := bind_eq_ok_iff.mp h
  obtain ⟨pool, -, h⟩ := bind_eq_ok_iff.mp h
  obtain ⟨messages, -, h⟩ := bind_eq_ok_iff.mp h
  cases h
  rfl

/-! ## A parameter more -/

theorem isVisible_parameter (ht : IsVisible type) (hp : IsVisible parameter) :
    IsVisible (type ++ ";" ++ parameter) := by
  rw [isVisible_iff, toList_parameter]
  intro c hc
  rcases List.mem_append.mp hc with hc | hc
  · exact isVisible_iff.mp ht c hc
  · rcases List.mem_cons.mp hc with rfl | hc
    · decide
    · exact isVisible_iff.mp hp c hc

/-- Of two media types, one after the other, the second counts. -/
theorem withType_withType (visible : IsVisible type) (call : Request) (other : String) :
    (call.withType other).withType type = call.withType type := by
  unfold withType
  rw [Metadata.set_set (by decide) (all_isFieldByte visible)]

/-- Where the request is accepted, it is accepted with a parameter too, and makes the same call,
unless its media type is the one of gRPC without a codec. Then it is read as the Connect call that
it would be in the codec `proto`. -/
theorem parse_parameter {compression : Compression} (post : r.verb = "POST")
    (typed : r.headers.text? FieldName.contentType = some type) (visible : IsVisible parameter)
    (accepted : parse r compression = .ok call) :
    (type ≠ "application/grpc" → parse (r.withType (type ++ ";" ++ parameter)) compression =
      .ok (call.withType (type ++ ";" ++ parameter))) ∧
    (type = "application/grpc" → call.protocol = .grpc ∧
      parse (r.withType (type ++ ";" ++ parameter)) compression =
        (parse (r.withType "application/proto") compression).map
          (·.withType (type ++ ";" ++ parameter)) ∧
      ∀ other, parse (r.withType (type ++ ";" ++ parameter)) compression = .ok other →
        other.protocol = .connect) := by
  have long := isVisible_parameter (Metadata.isVisible_of_text? typed) visible
  rw [parse_eq_posted post typed] at accepted
  obtain ⟨protocol, detected, made⟩ := bind_eq_ok_iff.mp accepted
  have read : parse (r.withType (type ++ ";" ++ parameter)) compression =
      (posted r compression (if type = "application/grpc" then .connect else protocol)
        (codecOf type)).map (·.withType (type ++ ";" ++ parameter)) := by
    rw [parse_withType post long, protocolOf_parameter detected, codecOf_parameter]
    rfl
  constructor
  · intro coded
    rw [read, if_neg coded, made]
    rfl
  · rintro rfl
    rw [if_pos rfl] at read
    cases detected
    have proto : parse (r.withType "application/proto") compression =
        (posted r compression .connect "proto").map (·.withType "application/proto") :=
      parse_withType post (by decide) compression
    refine ⟨protocol_of_posted made, ?_, ?_⟩
    · have codec : codecOf "application/grpc" = "proto" := by decide
      rw [read, proto, codec]
      cases posted r compression .connect "proto" with
      | error cause => rfl
      | ok call => exact congrArg Except.ok (withType_withType long call _).symm
    · intro other h
      rw [read, map_eq_ok_iff] at h
      obtain ⟨call, posting, rfl⟩ := h
      show call.protocol = .connect
      exact protocol_of_posted posting

/-! ## One body under several media types -/

/-- A frame of three octets under a media type, with no other header. -/
def framedRequest (type : String) : Http.WireRequest where
  verb := "POST"
  target := ⟨none, "", "/pkg.Svc/Do", none⟩
  headers := Metadata.empty.set FieldName.contentType type
  body := [0, 0, 0, 0, 3, 97, 98, 99]

theorem withType_framedRequest (visible : IsVisible type) (other : String) :
    (framedRequest other).withType type = framedRequest type := by
  unfold framedRequest Http.WireRequest.withType
  rw [Metadata.set_set (by decide) (all_isFieldByte visible)]

/-- The media type alone says how the body is read. -/
theorem parse_framedRequest {protocol : Protocol} {messages : List Bytes} (visible : IsVisible type)
    (detected : protocolOf "POST" (some type) = .ok protocol)
    (read : bodyMessages protocol none (framedRequest type).body = .ok messages) :
    parse (framedRequest type) ⟨.empty, none⟩ =
      .ok ⟨protocol, "pkg.Svc", "Do", codecOf type, type, (framedRequest type).headers, none, none,
        messages⟩ := by
  have typed : (framedRequest type).headers.text? FieldName.contentType = some type :=
    Metadata.text?_set (by decide) visible
  have path : procedureOf (framedRequest type).target.path = .ok ("pkg.Svc", "Do") :=
    procedureOf_do
  have timed : timeoutOf protocol (framedRequest type).headers = .ok none := by
    refine (timeoutOf_set_contentType protocol .empty type).trans ?_
    cases protocol <;> rfl
  have plain : (framedRequest type).headers.text? protocol.encodingField = none :=
    coding_set_contentType protocol .empty type
  rw [parse_eq_posted rfl typed, detected]
  show posted (framedRequest type) ⟨.empty, none⟩ protocol (codecOf type) = _
  unfold posted
  rw [path, timed, plain, typed]
  show (bodyMessages protocol none (framedRequest type).body >>= _) = _
  rw [read]
  rfl

theorem frame_of_framedRequest (type : String) :
    bodyMessages .grpc none (framedRequest type).body = .ok [[97, 98, 99]] :=
  @payloads_none_of_wholes [[0, 0, 0, 0, 3, 97, 98, 99]] (by decide)

/-- A character set does not change a call of gRPC that names its codec. -/
theorem parse_parameter_coded :
    ∃ call, parse (framedRequest "application/grpc+proto") ⟨.empty, none⟩ = .ok call ∧
      call.protocol = .grpc ∧ call.messages = [[97, 98, 99]] ∧
      parse ((framedRequest "application/grpc+proto").withType
          "application/grpc+proto;charset=utf-8") ⟨.empty, none⟩ =
        .ok (call.withType "application/grpc+proto;charset=utf-8") := by
  have typed : (framedRequest "application/grpc+proto").headers.text? FieldName.contentType =
      some "application/grpc+proto" := Metadata.text?_set (by decide) (by decide +kernel)
  have charset : IsVisible "charset=utf-8" := by decide +kernel
  have accepted := parse_framedRequest (by decide +kernel) rfl
    (frame_of_framedRequest "application/grpc+proto")
  have kept := parse_parameter rfl typed charset accepted
  exact ⟨_, accepted, rfl, rfl, kept.1 (by decide)⟩

/-- Without the codec, the same call becomes one of Connect, and the frame becomes its message. -/
theorem bare_parameter_misread :
    ∃ call other, parse (framedRequest "application/grpc") ⟨.empty, none⟩ = .ok call ∧
      parse ((framedRequest "application/grpc").withType "application/grpc;charset=utf-8")
        ⟨.empty, none⟩ = .ok other ∧
      call.protocol = .grpc ∧ call.messages = [[97, 98, 99]] ∧
      other.protocol = .connect ∧ other.messages = [[0, 0, 0, 0, 3, 97, 98, 99]] := by
  have long : IsVisible "application/grpc;charset=utf-8" := by decide +kernel
  have detected : protocolOf "POST" (some "application/grpc;charset=utf-8") = .ok .connect := rfl
  have accepted := parse_framedRequest (by decide +kernel) rfl
    (frame_of_framedRequest "application/grpc")
  have misread := parse_framedRequest long detected rfl
  rw [← withType_framedRequest long "application/grpc"] at misread
  exact ⟨_, _, accepted, misread, rfl, rfl, rfl, rfl⟩

end Server.Request

end RpcWire
