import RpcWire.Proofs.Server.Messages

/-!
# How a server rejects a request

The parts of a request fail each in its own way. Whatever is wrong with the
method, the media type, the path, the version or the query is an invalid
argument, as is a payload outside of envelopes that does not decompress; a name
for a compression that is not registered is unimplemented. Only what is wrong
with the envelopes of a body, a broken end or a payload that does not
decompress, counts as internal (`rejection_codes`).
-/

namespace RpcWire

namespace Server.Request

open Envelope (Corrupt Cuts)

/-! ## Failing steps -/

/-- Every failure of a step is of one kind. -/
def FailsWith {α : Type} (x : Except Failure α) (P : Failure → Prop) : Prop :=
  ∀ cause, x = .error cause → P cause

namespace FailsWith

variable {α β : Type} {x : Except Failure α} {P Q : Failure → Prop}

theorem ok (a : α) : FailsWith (.ok a) P := by
  intro cause failed
  cases failed

theorem error {cause : Failure} (h : P cause) : FailsWith (.error cause : Except Failure α) P := by
  intro other failed
  cases failed
  exact h

theorem mono (h : FailsWith x P) (weaker : ∀ cause, P cause → Q cause) : FailsWith x Q := by
  intro cause failed
  exact weaker cause (h cause failed)

/-- If both steps fail only as said, so does the sequence. -/
theorem bind {f : α → Except Failure β} (first : FailsWith x P)
    (second : ∀ a, x = .ok a → FailsWith (f a) P) : FailsWith (x >>= f) P := by
  intro cause failed
  rcases bind_eq_error_iff.mp failed with failed | ⟨a, taken, failed⟩
  · exact first cause failed
  · exact second a taken cause failed

theorem map {f : α → β} (h : FailsWith x P) : FailsWith (x.map f) P := by
  intro cause failed
  cases x with
  | error own =>
    cases failed
    exact h _ rfl
  | ok a => cases failed

end FailsWith

/-- The request is to blame. -/
def IsInvalid (cause : Failure) : Prop := cause.code = .invalidArgument

/-! ## Parts -/

theorem protocolOf_fails (verb : String) (contentType : Option String) :
    FailsWith (protocolOf verb contentType) IsInvalid := by
  unfold protocolOf
  split
  · exact .ok _
  · exact .error rfl

theorem procedureOf_fails (path : String) : FailsWith (procedureOf path) IsInvalid := by
  unfold procedureOf
  dsimp only
  split
  · split
    · exact .error rfl
    · exact .ok _
  · exact .error rfl

theorem timeoutOf_fails (protocol : Protocol) (headers : Metadata) :
    FailsWith (timeoutOf protocol headers) IsInvalid := by
  unfold timeoutOf
  split
  · exact .ok _
  · exact .ok _
  all_goals
    dsimp only
    split
    · split
      · exact .ok _
      · exact .error rfl
    · exact .ok _

/-- Protocol, path and timeout are blamed on the client. -/
theorem outline_fails (r : Http.WireRequest) : FailsWith (outline r) IsInvalid := by
  unfold outline
  refine (protocolOf_fails _ _).bind fun protocol _ => ?_
  refine (procedureOf_fails _).bind fun procedure _ => ?_
  exact (timeoutOf_fails _ _).bind fun timeout _ => .ok _

theorem absorb_fails (q : Query) (parameter : List Char) :
    FailsWith (q.absorb parameter) IsInvalid := by
  unfold Query.absorb
  dsimp only
  split
  case h_5 =>
    split
    · exact .ok _
    · exact .error rfl
  all_goals exact .ok _

theorem parse_query_fails (query : String) : FailsWith (Query.parse query) IsInvalid := by
  unfold Query.parse
  generalize (⟨none, false, none, none⟩ : Query) = q
  induction (query.toList.splitOn '&').filter (· ≠ []) generalizing q with
  | nil => exact .ok q
  | cons parameter parameters ih =>
    rw [List.foldlM_cons]
    exact (absorb_fails q parameter).bind fun next _ => ih next

theorem payload_fails (q : Query) : FailsWith q.payload IsInvalid := by
  unfold Query.payload
  dsimp only
  split
  · split
    · exact .ok _
    · exact .error rfl
  · exact .ok _

theorem expand_of_error {pool : Pool} {payload : Bytes} {reason : String}
    (h : pool.decompress payload = .error reason) :
    expand (some pool) payload = .error (.ofCause .invalidArgument (.io reason)) := by
  unfold expand
  simp only [h]
  rfl

/-- So is a unary body that cannot be decompressed. -/
theorem expand_fails (pool : Option Pool) (payload : Bytes) :
    FailsWith (expand pool payload) IsInvalid := by
  cases pool with
  | none => exact .ok _
  | some p =>
    unfold expand
    dsimp only
    cases p.decompress payload with
    | error reason => exact .error rfl
    | ok plain => exact .ok plain

/-- A name fails if it stands for a pool that is not there. -/
theorem poolOf_fails (name : Option String) (pools : Registry) :
    FailsWith (poolOf name pools) fun cause => cause.code = .unimplemented ∧
      ∃ n ∈ name, Registry.Names n ∧ pools.find? n = none := by
  by_cases unnamed : ∀ n ∈ name, ¬ Registry.Names n
  · rw [poolOf_unnamed unnamed]
    exact .ok _
  · obtain ⟨n, rfl, named⟩ : ∃ n ∈ name, Registry.Names n := by simpa using unnamed
    rw [poolOf_named named]
    cases known : pools.find? n with
    | some p => exact .ok _
    | none => exact .error ⟨rfl, n, rfl, named, known⟩

/-- A fault of framing is what the frames of a body fail with. -/
theorem payloads_fails (pool : Option Pool) (body : Bytes) :
    FailsWith (payloads pool body) fun cause => ∃ fault, cause = .ofFrame fault := by
  fun_induction payloads pool body with
  | case1 => exact .ok _
  | case2 body nonempty rest fault unpacked => exact .error ⟨fault, rfl⟩
  | case3 body nonempty rest e unpacked ih => exact ih.map

/-! ## Whole requests -/

variable {r : Http.WireRequest} {compression : Compression}

/-- A request names a compression: in a header of its protocol or, for a GET, in the query. -/
inductive AsksFor (r : Http.WireRequest) (name : String) : Prop
  | header {outlined : Request} (h : outline r = .ok outlined) (body : r.verb ≠ "GET")
      (named : r.headers.text? outlined.protocol.encodingField = some name)
  | query {q : Query} (get : r.verb = "GET") (h : Query.parse (r.target.query.getD "") = .ok q)
      (named : q.compression = some name)

/-- A name for a pool that is asked for and not registered. -/
def IsUnregistered (r : Http.WireRequest) (pools : Registry) : Prop :=
  ∃ name, AsksFor r name ∧ Registry.Names name ∧ pools.find? name = none

/-- A body in envelopes, for a pool that is known, that does not end where a frame ends or has a
payload that does not decompress. -/
def IsBroken (r : Http.WireRequest) (pools : Registry) : Prop :=
  ∃ outlined pool frames rest, outline r = .ok outlined ∧ r.verb ≠ "GET" ∧
    outlined.protocol.isEnveloped = true ∧
    poolOf (r.headers.text? outlined.protocol.encodingField) pools = .ok pool ∧
    Cuts r.body frames rest ∧ (rest ≠ [] ∨ ∃ f ∈ frames, Corrupt pool f)

/-- A message that is not in an envelope and does not decompress. -/
inductive IsGarbled (r : Http.WireRequest) (pools : Registry) : Prop
  | body {outlined : Request} {pool : Pool} {reason : String} (h : outline r = .ok outlined)
      (body : r.verb ≠ "GET") (whole : outlined.protocol.isEnveloped = false)
      (known : poolOf (r.headers.text? outlined.protocol.encodingField) pools = .ok (some pool))
      (failed : pool.decompress r.body = .error reason)
  | query {outlined : Request} {q : Query} {codec : String} {raw : Bytes} {pool : Pool}
      {reason : String} (h : outline r = .ok outlined) (get : r.verb = "GET")
      (query : Query.parse (r.target.query.getD "") = .ok q) (encoding : q.encoding = some codec)
      (written : q.payload = .ok raw) (known : poolOf q.compression pools = .ok (some pool))
      (failed : pool.decompress raw = .error reason)

/-- What a request can be rejected for, and with which code. -/
def Blames (r : Http.WireRequest) (pools : Registry) (cause : Failure) : Prop :=
  cause.code = .invalidArgument ∨ cause.code = .unimplemented ∧ IsUnregistered r pools ∨
    cause.code = .internal ∧ IsBroken r pools

theorem parseQuery_fails (get : r.verb = "GET") (call : Request) (pools : Registry) :
    FailsWith (parseQuery call (r.target.query.getD "") pools) fun cause =>
      cause.code = .invalidArgument ∨ cause.code = .unimplemented ∧ IsUnregistered r pools := by
  unfold parseQuery
  refine ((parse_query_fails _).mono fun cause => .inl).bind fun q read => ?_
  split
  · exact .error (.inl rfl)
  · next codec encoding =>
    refine ((payload_fails q).mono fun cause => .inl).bind fun raw written => ?_
    have unknown : FailsWith (poolOf q.compression pools) fun cause =>
        cause.code = .invalidArgument ∨
          cause.code = .unimplemented ∧ IsUnregistered r pools := by
      refine (poolOf_fails q.compression pools).mono ?_
      rintro cause ⟨code, n, named, names, absent⟩
      exact .inr ⟨code, n, .query get read named, names, absent⟩
    refine unknown.bind fun pool known => ?_
    exact ((expand_fails pool raw).mono fun cause => .inl).bind fun message _ => .ok _

theorem parse_fails (r : Http.WireRequest) (compression : Compression) :
    FailsWith (parse r compression) (Blames r compression.pools) := by
  rw [parse_eq]
  refine ((outline_fails r).mono fun cause => .inl).bind fun outlined h => ?_
  by_cases get : r.verb = "GET"
  · rw [if_pos get]
    refine (parseQuery_fails get outlined compression.pools).mono ?_
    rintro cause (invalid | unimplemented)
    · exact .inl invalid
    · exact .inr (.inl unimplemented)
  · rw [if_neg get, parseBody_eq, (outline_spec h).2]
    have unknown : FailsWith
        (poolOf (r.headers.text? outlined.protocol.encodingField) compression.pools)
        (Blames r compression.pools) := by
      refine (poolOf_fails _ _).mono ?_
      rintro cause ⟨code, n, named, names, absent⟩
      exact .inr (.inl ⟨code, n, .header h get named, names, absent⟩)
    refine unknown.bind fun pool known => ?_
    refine FailsWith.bind ?_ fun messages _ => .ok _
    unfold bodyMessages
    split
    · next enveloped =>
      intro cause failed
      obtain ⟨fault, rfl⟩ := payloads_fails pool r.body cause failed
      have cut := Envelope.cuts_splitWhole r.body
      have wrong := (payloads_eq_error_iff cut).mp ⟨_, failed⟩
      exact .inr (.inr ⟨rfl, outlined, pool, _, _, h, get, enveloped, known, cut, wrong⟩)
    · exact ((expand_fails pool r.body).mono fun cause => .inl).map

/-- A broken envelope is reported as the fault of its frame. -/
theorem parse_of_isBroken (h : IsBroken r compression.pools) :
    ∃ fault, parse r compression = .error (.ofFrame fault) := by
  obtain ⟨outlined, pool, frames, rest, h, body, enveloped, known, cut, wrong⟩ := h
  obtain ⟨cause, failed⟩ := (payloads_eq_error_iff cut).mpr wrong
  obtain ⟨fault, rfl⟩ := payloads_fails pool r.body cause failed
  have framed : bodyMessages outlined.protocol pool r.body = payloads pool r.body :=
    if_pos enveloped
  exact ⟨fault, by rw [parse_of_body h body known, framed, failed]; rfl⟩

theorem parse_of_isGarbled (h : IsGarbled r compression.pools) :
    ∃ reason, parse r compression = .error (.ofCause .invalidArgument (.io reason)) := by
  cases h with
  | @body outlined pool reason h body whole known failed =>
    have unframed : bodyMessages outlined.protocol (some pool) r.body =
        (expand (some pool) r.body).map fun message => [message] := by
      unfold bodyMessages
      rw [whole]
      rfl
    rw [parse_of_body h body known, unframed, expand_of_error failed]
    exact ⟨reason, rfl⟩
  | @query outlined q codec raw pool reason h get query encoding written known failed =>
    refine ⟨reason, ?_⟩
    rw [parse_eq, h]
    show ite _ _ _ = _
    rw [if_pos get]
    unfold parseQuery
    simp only [query, encoding, written, known, expand_of_error failed, bind, Except.bind]

/-- A request is rejected as an invalid argument, or because it names a compression that is not
registered, or as an internal failure. It is an internal failure exactly if its body in envelopes
is broken off or holds a payload that does not decompress. Outside of envelopes such a payload is
an invalid argument. -/
theorem rejection_codes (r : Http.WireRequest) (compression : Compression) :
    (∀ cause, parse r compression = .error cause →
      cause.code = .invalidArgument ∨
        cause.code = .unimplemented ∧ IsUnregistered r compression.pools ∨
        cause.code = .internal ∧ IsBroken r compression.pools) ∧
    ((∃ cause, parse r compression = .error cause ∧ cause.code = .internal) ↔
      IsBroken r compression.pools) ∧
    (IsGarbled r compression.pools →
      ∃ cause, parse r compression = .error cause ∧ cause.code = .invalidArgument) := by
  refine ⟨parse_fails r compression, ⟨?_, ?_⟩, ?_⟩
  · rintro ⟨cause, rejected, code⟩
    rcases parse_fails r compression cause rejected with other | ⟨other, -⟩ | ⟨-, broken⟩
    · rw [code] at other
      cases other
    · rw [code] at other
      cases other
    · exact broken
  · intro broken
    obtain ⟨fault, rejected⟩ := parse_of_isBroken broken
    exact ⟨_, rejected, rfl⟩
  · intro garbled
    obtain ⟨reason, rejected⟩ := parse_of_isGarbled garbled
    exact ⟨_, rejected, rfl⟩

/-! ## The same octets as a message and as envelopes -/

/-- Three octets under the name of a pool, as the message of a protocol or as its envelopes. -/
def shortRequest (p : Protocol) : Http.WireRequest where
  verb := "POST"
  target := ⟨none, "", "/pkg.Svc/Do", none⟩
  headers := .ofTexts
    [(FieldName.contentType, p.contentType "proto"), (p.encodingField, "broken")]
  body := [0, 0, 0]

/-- A server whose only pool fails in both directions. -/
def failingPools : Registry := ⟨[.failing "broken"]⟩

theorem outline_shortRequest (p : Protocol) :
    outline (shortRequest p) =
      .ok ⟨p, "pkg.Svc", "Do", "", p.contentType "proto", (shortRequest p).headers, none, none,
        []⟩ := by
  have type : (shortRequest p).headers.text? FieldName.contentType =
      some (p.contentType Encoding.proto.name) := by
    cases p <;> decide +kernel
  have path : procedureOf (shortRequest p).target.path = .ok ("pkg.Svc", "Do") :=
    procedureOf_do
  have timed : timeoutOf p (shortRequest p).headers = .ok none := by
    cases p <;> decide +kernel
  exact outline_post (e := .proto) rfl type path timed

theorem poolOf_shortRequest (p : Protocol) :
    poolOf ((shortRequest p).headers.text? p.encodingField) failingPools =
      .ok (some (.failing "broken")) := by
  have named : (shortRequest p).headers.text? p.encodingField = some "broken" := by
    cases p <;> decide +kernel
  rw [named]
  rfl

/-- As a message that does not decompress, the octets are an invalid argument. -/
theorem rejection_codes_message :
    ∃ cause, parse (shortRequest .connect) ⟨failingPools, none⟩ = .error cause ∧
      cause.code = .invalidArgument := by
  obtain ⟨-, -, garbled⟩ := rejection_codes (shortRequest .connect) ⟨failingPools, none⟩
  exact garbled
    (.body (outline_shortRequest .connect) (by decide) rfl (poolOf_shortRequest .connect) rfl)

/-- As envelopes, broken off in a header, they are an internal failure. -/
theorem rejection_internal :
    ∃ cause, parse (shortRequest .grpc) ⟨failingPools, none⟩ = .error cause ∧
      cause.code = .internal := by
  have cut : Cuts (shortRequest .grpc).body [] [0, 0, 0] := ⟨by simp, rfl, rfl⟩
  obtain ⟨fault, rejected⟩ : ∃ fault, parse (shortRequest .grpc) ⟨failingPools, none⟩ =
      .error (.ofFrame fault) :=
    parse_of_isBroken ⟨_, _, _, _, outline_shortRequest .grpc, by decide, rfl,
      poolOf_shortRequest .grpc, cut, .inl (by decide)⟩
  exact ⟨_, rejected, rfl⟩

end Server.Request

end RpcWire
