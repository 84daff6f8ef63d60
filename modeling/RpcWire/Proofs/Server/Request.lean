import RpcWire.Client.Connect
import RpcWire.Proofs.Call.Timeout
import RpcWire.Proofs.Coding.Negotiate
import RpcWire.Proofs.Except
import RpcWire.Proofs.Frame.Packed
import RpcWire.Proofs.Text.Base64
import RpcWire.Server.Request

/-!
# Requests that a server accepts

Every part of a request is read back as it was written: the protocol and the
codec from the media type, the procedure from the path, the timeout, the
messages from frames or from a query. A whole request is read in two steps, the
second of which depends on the method (`parse_eq`): one with a body
(`parse_post`), and a GET (`parse_get`). A Connect request without envelopes
makes the same call whether its message is the body or is in the query
(`unaryCall`).
-/

namespace RpcWire.Server.Request

open Envelope (FitsPacked Sealed Undoes frame)

/-! ## Parts -/

theorem protocolOf_post (p : Protocol) (e : Encoding) :
    protocolOf "POST" (some (p.contentType e.name)) = .ok p := by
  cases p <;> cases e <;> rfl

theorem protocolOf_get (contentType : Option String) :
    protocolOf "GET" contentType = .ok .connect :=
  rfl

theorem codecOf_contentType (p : Protocol) (e : Encoding) :
    codecOf (p.contentType e.name) = e.name := by
  cases p <;> cases e <;> decide +kernel

/-- The last slash of a path parts the service from the method. -/
theorem procedureOf_path {service method : String} (hservice : service ≠ "")
    (unslashed : service.toList.head? ≠ some '/') (hmethod : method ≠ "")
    (hlast : '/' ∉ method.toList) :
    procedureOf (String.ofList ('/' :: (service.toList ++ '/' :: method.toList))) =
      .ok (service, method) := by
  have full : service.toList ≠ [] := by
    intro e
    exact hservice (String.toList_eq_nil_iff.mp e)
  have full' : method.toList ≠ [] := by
    intro e
    exact hmethod (String.toList_eq_nil_iff.mp e)
  -- only the slash in front of the path is skipped
  have front : ('/' :: (service.toList ++ '/' :: method.toList)).dropWhile (· == '/') =
      service.toList ++ '/' :: method.toList := by
    rw [@List.dropWhile_cons_of_pos _ (· == '/') _ _ (beq_self_eq_true _)]
    cases hcs : service.toList with
    | nil => exact absurd hcs full
    | cons c cs =>
      rw [hcs] at unslashed
      have other : c ≠ '/' := by
        intro e
        exact unslashed (by rw [e]; rfl)
      rw [List.cons_append, List.dropWhile_cons_of_neg (by simpa using other)]
  unfold procedureOf
  simp only [String.toList_ofList, front, Text.cutLast?_append _ hlast, full, full', or_self,
    if_false, String.ofList_toList]

theorem procedureOf_do : procedureOf "/pkg.Svc/Do" = .ok ("pkg.Svc", "Do") :=
  @procedureOf_path "pkg.Svc" "Do" (by decide) (by decide +kernel) (by decide) (by decide +kernel)

/-- The timeout counts as it can be read unless the headers name another version. -/
theorem timeoutOf_of_version {headers : Metadata}
    (version : ∀ v ∈ headers.text? FieldName.connectVersion, v = "1") :
    timeoutOf .connect headers =
      .ok ((headers.text? FieldName.connectTimeout).bind Timeout.parseMilliseconds?) := by
  unfold timeoutOf
  cases hv : headers.text? FieldName.connectVersion with
  | none => rfl
  | some v => simp only [version v hv, if_true]

/-- The server reads the timeout that a Connect client names, rounded to what the header can say. -/
theorem timeoutOf_connect {p : Protocol} (hp : p = .connect ∨ p = .connectStream)
    {headers : Metadata} {timeout : Option Nanoseconds}
    (named : headers.text? FieldName.connectTimeout = timeout.map Timeout.encodeMilliseconds)
    (version : ∀ v ∈ headers.text? FieldName.connectVersion, v = "1") :
    timeoutOf p headers = .ok (timeout.map Timeout.toMilliseconds) := by
  have read : (headers.text? FieldName.connectTimeout).bind Timeout.parseMilliseconds? =
      timeout.map Timeout.toMilliseconds := by
    rw [named]
    cases timeout with
    | none => rfl
    | some t =>
      rw [Option.map_some, Option.bind_some, Timeout.parseMilliseconds?_encodeMilliseconds,
        Option.map_some]
  have checked := timeoutOf_of_version version
  rw [read] at checked
  rcases hp with rfl | rfl
  · exact checked
  · exact checked

theorem timeoutOf_grpc {p : Protocol} (hp : p = .grpc ∨ p = .grpcWeb) {headers : Metadata}
    {timeout : Option Nanoseconds}
    (named : headers.text? FieldName.grpcTimeout = timeout.map Timeout.encodeScaled) :
    timeoutOf p headers = .ok (timeout.map Timeout.toEightDigits) := by
  have read : (headers.text? FieldName.grpcTimeout).bind Timeout.parseScaled? =
      timeout.map Timeout.toEightDigits := by
    rw [named]
    cases timeout with
    | none => rfl
    | some t =>
      rw [Option.map_some, Option.bind_some, Timeout.parseScaled?_encodeScaled, Option.map_some]
  rcases hp with rfl | rfl
  · exact congrArg Except.ok read
  · exact congrArg Except.ok read

/-- Only three fields say anything of a timeout. -/
theorem timeoutOf_congr {p : Protocol} {m other : Metadata}
    (same : ∀ name ∈ [FieldName.grpcTimeout, FieldName.connectTimeout, FieldName.connectVersion],
      m.values name = other.values name) :
    timeoutOf p m = timeoutOf p other := by
  have scaled := Metadata.text?_eq_of_values (same FieldName.grpcTimeout (by simp))
  have whole := Metadata.text?_eq_of_values (same FieldName.connectTimeout (by simp))
  have version := Metadata.text?_eq_of_values (same FieldName.connectVersion (by simp))
  unfold timeoutOf
  rw [scaled, whole, version]

theorem timeoutOf_set_contentType (protocol : Protocol) (headers : Metadata) (type : String) :
    timeoutOf protocol (headers.set FieldName.contentType type) = timeoutOf protocol headers := by
  refine timeoutOf_congr ?_
  intro name hname
  simp only [List.mem_cons, List.not_mem_nil, or_false] at hname
  rcases hname with rfl | rfl | rfl <;> exact Metadata.values_set_of_ne (by decide) _

theorem coding_set_contentType (protocol : Protocol) (headers : Metadata) (type : String) :
    (headers.set FieldName.contentType type).text? protocol.encodingField =
      headers.text? protocol.encodingField := by
  have other : Text.lower FieldName.contentType ≠ Text.lower protocol.encodingField := by
    cases protocol <;> decide
  exact Metadata.text?_set_of_ne other type

/-! ## The pool of a request -/

section Pools

variable {name : Option String} {pools : Registry}

theorem poolOf_unnamed (h : ∀ n ∈ name, ¬ Registry.Names n) : poolOf name pools = .ok none := by
  cases name with
  | none => rfl
  | some n =>
    have blank : n = "" ∨ n = Registry.identity := by
      have unnamed := h n rfl
      unfold Registry.Names at unnamed
      tauto
    exact if_pos blank

theorem poolOf_named {n : String} (h : Registry.Names n) :
    poolOf (some n) pools = match pools.find? n with
      | some p => .ok (some p)
      | none => .error (.new .unimplemented ("unsupported compression: " ++ n)) := by
  have named : ¬ (n = "" ∨ n = Registry.identity) := fun e => e.elim h.1 h.2
  unfold poolOf
  exact if_neg named

theorem poolOf_some {n : String} (h : Registry.Names n) {p : Pool}
    (found : pools.find? n = some p) : poolOf (some n) pools = .ok (some p) := by
  rw [poolOf_named h, found]

/-- There is no pool exactly without a name for one. -/
theorem poolOf_eq_none_iff : poolOf name pools = .ok none ↔ ∀ n ∈ name, ¬ Registry.Names n := by
  refine ⟨?_, poolOf_unnamed⟩
  rintro found n rfl named
  rw [poolOf_named named] at found
  cases known : pools.find? n <;> rw [known] at found <;> cases found

/-- A pool is used exactly if the header names it and it is registered. -/
theorem poolOf_eq_some_iff {p : Pool} :
    poolOf name pools = .ok (some p) ↔
      ∃ n ∈ name, Registry.Names n ∧ pools.find? n = some p := by
  constructor
  · intro found
    by_cases unnamed : ∀ n ∈ name, ¬ Registry.Names n
    · rw [poolOf_unnamed unnamed] at found
      cases found
    · obtain ⟨n, rfl, named⟩ : ∃ n ∈ name, Registry.Names n := by simpa using unnamed
      refine ⟨n, rfl, named, ?_⟩
      rw [poolOf_named named] at found
      cases known : pools.find? n <;> rw [known] at found <;> cases found
      rfl
  · rintro ⟨n, rfl, named, found⟩
    exact poolOf_some named found

end Pools

/-! ## Messages -/

theorem payloads_nil (pool : Option Pool) : payloads pool [] = .ok [] := by
  unfold payloads
  exact dif_pos rfl

theorem payloads_of_unpack {pool : Option Pool} {data rest : Bytes} {e : Envelope}
    (nonempty : data ≠ []) (h : Envelope.unpack data pool = (rest, .ok e)) :
    payloads pool data = (payloads pool rest).map (e.payload :: ·) := by
  conv => lhs; unfold payloads
  rw [dif_neg nonempty]
  split
  · next other =>
    rw [h] at other
    cases other
  · next same =>
    rw [h] at same
    cases same
    rfl

/-- Sealed messages are unpacked to themselves, in order. -/
theorem payloads_frames {pool : Option Pool} {t : Option Threshold} (undoes : Undoes pool t)
    {messages : List Bytes} {fs : List (UInt8 × Bytes)}
    (h : List.Forall₂ (Sealed t) messages fs) (fits : ∀ m ∈ messages, FitsPacked t m) :
    payloads pool (fs.map fun f => frame f.1 f.2).flatten = .ok messages := by
  induction h with
  | nil => exact payloads_nil pool
  | @cons message f messages fs hsealed _ ih =>
    have later := ih fun m hm => fits m (List.mem_cons_of_mem _ hm)
    obtain ⟨opened, -⟩ := Envelope.unpack_of_sealed undoes hsealed (fits message List.mem_cons_self)
      (fs.map fun f => frame f.1 f.2).flatten
    rw [List.map_cons, List.flatten_cons,
      payloads_of_unpack (by simp [Envelope.frame_ne_nil]) opened, later]
    rfl

/-! ## Queries -/

theorem cut_parameter {key : String} (hkey : '=' ∉ key.toList) (value : String) :
    Text.cutFirst? '=' (key ++ "=" ++ value).toList = some (key.toList, value.toList) := by
  have apart : (key ++ "=" ++ value).toList = key.toList ++ '=' :: value.toList := by
    rw [String.toList_append, String.toList_append, List.append_assoc]
    rfl
  rw [apart, Text.cutFirst?_append hkey]

/-- The parameters of the query of a GET. -/
def parameters (body : Bytes) (pool : Option String) (e : Encoding) : List (String × String) :=
  ("base64", "1") :: (pool.map (Prod.mk "compression")).toList ++
    [("connect", "v1"), ("encoding", e.name),
      ("message", String.ofList (Base64.encode .urlSafe .bare body))]

theorem query_eq (body : Bytes) (pool : Option String) (e : Encoding) :
    Connect.query body pool e = String.intercalate "&"
      ((parameters body pool e).map fun p => p.1 ++ "=" ++ p.2) := by
  cases pool <;> rfl

/-- Reading the parameters of a query one after another fills in all that a call needs. -/
theorem foldlM_parameters (body : Bytes) (pool : Option String) (e : Encoding) :
    (parameters body pool e).foldlM (fun q p => Query.absorb q (p.1 ++ "=" ++ p.2).toList)
        ⟨none, false, none, none⟩ =
      .ok ⟨some (String.ofList (Base64.encode .urlSafe .bare body)), true, some e.name, pool⟩ := by
  cases pool with
  | none =>
    simp (disch := decide) only [parameters, Option.map_none, Option.toList_none, List.cons_append,
      List.nil_append, List.foldlM_cons, List.foldlM_nil, Query.absorb, cut_parameter,
      Option.getD_some, String.ofList_toList, if_true]
    rfl
  | some name =>
    simp (disch := decide) only [parameters, Option.map_some, Option.toList_some, List.cons_append,
      List.nil_append, List.foldlM_cons, List.foldlM_nil, Query.absorb, cut_parameter,
      Option.getD_some, String.ofList_toList, if_true]
    rfl

/-- Nothing in a parameter ends it or the query. -/
theorem not_mem_parameters {sep : Char} (hsep : sep = '&' ∨ sep = '#') (body : Bytes)
    {pool : Option String} (apart : ∀ name ∈ pool, sep ∉ name.toList) (e : Encoding) :
    ∀ p ∈ parameters body pool e, sep ∉ (p.1 ++ "=" ++ p.2).toList := by
  have values : ∀ p ∈ parameters body pool e, sep ∉ p.1.toList ∧ sep ∉ p.2.toList := by
    intro p hp
    simp only [parameters, List.cons_append, List.mem_cons, List.mem_append, Option.mem_toList,
      List.not_mem_nil, or_false] at hp
    rcases hp with rfl | hp | rfl | rfl | rfl
    · rcases hsep with rfl | rfl <;> decide
    · obtain ⟨name, hname, rfl⟩ := Option.map_eq_some_iff.mp hp
      refine ⟨?_, apart name hname⟩
      show sep ∉ "compression".toList
      rcases hsep with rfl | rfl <;> decide
    · rcases hsep with rfl | rfl <;> decide
    · rcases hsep with rfl | rfl <;> cases e <;> decide
    · have digits := Base64.not_mem_encode .urlSafe .bare body
      refine ⟨?_, ?_⟩
      · show sep ∉ "message".toList
        rcases hsep with rfl | rfl <;> decide
      · rw [String.toList_ofList]
        rcases hsep with rfl | rfl
        · exact digits.1
        · exact digits.2
  intro p hp
  obtain ⟨hkey, hvalue⟩ := values p hp
  rw [String.toList_append, String.toList_append, List.mem_append, List.mem_append, not_or, not_or]
  refine ⟨⟨hkey, ?_⟩, hvalue⟩
  rcases hsep with rfl | rfl <;> decide

/-- What a query holds that has been written by a client is read back. -/
theorem parse_query (body : Bytes) {pool : Option String}
    (apart : ∀ name ∈ pool, '&' ∉ name.toList) (e : Encoding) :
    Query.parse (Connect.query body pool e) =
      .ok ⟨some (String.ofList (Base64.encode .urlSafe .bare body)), true, some e.name, pool⟩ := by
  -- no parameter holds the separator, so cutting gives the parameters back
  have cut : (Connect.query body pool e).toList.splitOn '&' =
      (parameters body pool e).map fun p => (p.1 ++ "=" ++ p.2).toList := by
    rw [query_eq, String.toList_intercalate, List.map_map]
    refine List.splitOn_intercalate '&' ?_ (by simp [parameters])
    intro cs hcs
    obtain ⟨p, hp, rfl⟩ := List.mem_map.mp hcs
    show '&' ∉ (p.1 ++ "=" ++ p.2).toList
    exact not_mem_parameters (.inl rfl) body apart e p hp
  have full : ∀ cs ∈ (parameters body pool e).map (fun p => (p.1 ++ "=" ++ p.2).toList),
      cs ≠ [] := by
    intro cs hcs
    obtain ⟨p, -, rfl⟩ := List.mem_map.mp hcs
    rw [String.toList_append, String.toList_append]
    intro empty
    have := (List.append_eq_nil_iff.mp (List.append_eq_nil_iff.mp empty).1).2
    exact absurd this (by decide)
  unfold Query.parse
  rw [cut, List.filter_eq_self.mpr fun cs hcs => by simpa using full cs hcs, List.foldlM_map]
  exact foldlM_parameters body pool e

theorem payload_query (body : Bytes) (encoding compression : Option String) :
    Query.payload ⟨some (String.ofList (Base64.encode .urlSafe .bare body)), true, encoding,
      compression⟩ = .ok body := by
  unfold Query.payload
  simp only [if_true, Option.getD_some, String.toList_ofList, Base64.decodeEither?_encode]

theorem not_mem_query (body : Bytes) {pool : Option String}
    (apart : ∀ name ∈ pool, '#' ∉ name.toList) (e : Encoding) :
    '#' ∉ (Connect.query body pool e).toList := by
  rw [query_eq, String.toList_intercalate, List.map_map]
  intro h
  rcases Text.mem_of_mem_intercalate h with h | ⟨cs, hcs, h⟩
  · exact absurd h (by decide)
  · obtain ⟨p, hp, rfl⟩ := List.mem_map.mp hcs
    have clear := not_mem_parameters (.inr rfl) body apart e p hp
    exact clear h

/-! ## Whole requests -/

section Whole

/-- The call that a request makes, apart from its messages and how they are written. -/
def outline (r : Http.WireRequest) : Except Failure Request := do
  let protocol ← protocolOf r.verb (r.headers.text? FieldName.contentType)
  let (service, method) ← procedureOf r.target.path
  let timeout ← timeoutOf protocol r.headers
  .ok
    { protocol, service, method, timeout
      codec := ""
      contentType := (r.headers.text? FieldName.contentType).getD ""
      headers := r.headers
      compression := none
      messages := [] }

variable {r : Http.WireRequest} {compression : Compression} {call : Request} {pool : Option Pool}

theorem outline_post {p : Protocol} {e : Encoding} {service method : String}
    {timeout : Option Nanoseconds} (post : r.verb = "POST")
    (type : r.headers.text? FieldName.contentType = some (p.contentType e.name))
    (procedure : procedureOf r.target.path = .ok (service, method))
    (timed : timeoutOf p r.headers = .ok timeout) :
    outline r =
      .ok ⟨p, service, method, "", p.contentType e.name, r.headers, timeout, none, []⟩ := by
  unfold outline
  simp only [post, type, protocolOf_post, procedure, timed, bind, Except.bind, Option.getD_some]

/-- A request is outlined from its head first, then its messages are read. -/
theorem parse_eq (r : Http.WireRequest) (compression : Compression) :
    parse r compression = outline r >>= fun call =>
      if r.verb = "GET" then parseQuery call (r.target.query.getD "") compression.pools
      else parseBody call r.body compression.pools := by
  unfold parse outline
  simp only [bind, Except.bind]
  cases protocolOf r.verb (r.headers.text? FieldName.contentType) with
  | error cause => rfl
  | ok protocol =>
    cases procedureOf r.target.path with
    | error cause => rfl
    | ok procedure =>
      dsimp only
      cases timeoutOf protocol r.headers with
      | error cause => rfl
      | ok timeout => rfl

/-- The outline has the protocol that was detected and the headers as they came. -/
theorem outline_spec (h : outline r = .ok call) :
    protocolOf r.verb (r.headers.text? FieldName.contentType) = .ok call.protocol ∧
      call.headers = r.headers := by
  obtain ⟨protocol, detected, h⟩ := bind_eq_ok_iff.mp h
  obtain ⟨⟨service, method⟩, -, h⟩ := bind_eq_ok_iff.mp h
  obtain ⟨timeout, -, h⟩ := bind_eq_ok_iff.mp h
  cases h
  exact ⟨detected, rfl⟩

/-- The messages of a body, whether it is framed or not. -/
def bodyMessages (protocol : Protocol) (pool : Option Pool) (body : Bytes) :
    Except Failure (List Bytes) :=
  if protocol.isEnveloped then payloads pool body
  else (expand pool body).map fun message => [message]

theorem parseBody_eq (call : Request) (body : Bytes) (pools : Registry) :
    parseBody call body pools =
      poolOf (call.headers.text? call.protocol.encodingField) pools >>= fun pool =>
        bodyMessages call.protocol pool body >>= fun messages =>
          .ok { call with
            codec := codecOf call.contentType
            compression := pool.map Pool.name
            messages } := by
  unfold parseBody bodyMessages
  cases poolOf (call.headers.text? call.protocol.encodingField) pools with
  | error cause => rfl
  | ok pool => cases call.protocol.isEnveloped <;> rfl

/-- What is made of a request with a body, once its pool is known. -/
theorem parse_of_body {outlined : Request} (h : outline r = .ok outlined) (body : r.verb ≠ "GET")
    (known : poolOf (r.headers.text? outlined.protocol.encodingField) compression.pools =
      .ok pool) :
    parse r compression = bodyMessages outlined.protocol pool r.body >>= fun messages =>
      .ok { outlined with
        codec := codecOf outlined.contentType
        compression := pool.map Pool.name
        messages } := by
  rw [parse_eq, h]
  show ite _ _ _ = _
  rw [if_neg body, parseBody_eq, (outline_spec h).2, known]
  rfl

theorem parse_post {p : Protocol} {e : Encoding} {service method : String}
    {timeout : Option Nanoseconds} {messages : List Bytes} (post : r.verb = "POST")
    (type : r.headers.text? FieldName.contentType = some (p.contentType e.name))
    (procedure : procedureOf r.target.path = .ok (service, method))
    (timed : timeoutOf p r.headers = .ok timeout)
    (known : poolOf (r.headers.text? p.encodingField) compression.pools = .ok pool)
    (read : bodyMessages p pool r.body = .ok messages) :
    parse r compression = .ok ⟨p, service, method, e.name, p.contentType e.name, r.headers, timeout,
      pool.map Pool.name, messages⟩ := by
  have outlined := outline_post post type procedure timed
  have body : r.verb ≠ "GET" := by
    rw [post]
    decide
  rw [parse_of_body outlined body known, read]
  simp only [bind, Except.bind, codecOf_contentType]

end Whole

/-! ## Connect without envelopes -/

/-- The call that a Connect request without envelopes makes, wherever its message and the name of
the pool stand. -/
def unaryCall (r : Http.WireRequest) (e : Encoding) (name : Option String) (packed : Bytes)
    (pools : Registry) : Except Failure Request := do
  let (service, method) ← procedureOf r.target.path
  let timeout ← timeoutOf .connect r.headers
  let pool ← poolOf name pools
  let message ← expand pool packed
  .ok ⟨.connect, service, method, e.name, "application/" ++ e.name, r.headers, timeout,
    pool.map Pool.name, [message]⟩

theorem parse_eq_unaryCall_of_body {r : Http.WireRequest} {e : Encoding} (post : r.verb = "POST")
    (type : r.headers.text? FieldName.contentType = some (Protocol.connect.contentType e.name))
    (compression : Compression) :
    parse r compression = unaryCall r e (r.headers.text? FieldName.contentEncoding) r.body
      compression.pools := by
  have other : ¬ "POST" = "GET" := by decide
  have whole : ¬ Protocol.connect.isEnveloped = true := by decide
  have field : Protocol.connect.encodingField = FieldName.contentEncoding := rfl
  unfold parse unaryCall
  simp only [post, type, protocolOf_post, if_neg other, bind, Except.bind]
  cases procedureOf r.target.path with
  | error cause => rfl
  | ok procedure =>
    cases timeoutOf .connect r.headers with
    | error cause => rfl
    | ok timeout =>
      unfold parseBody
      simp only [if_neg whole, field, bind, Except.bind, Option.getD_some, codecOf_contentType]
      cases poolOf (r.headers.text? FieldName.contentEncoding) compression.pools with
      | error cause => rfl
      | ok pool =>
        dsimp only
        cases expand pool r.body with
        | error cause => rfl
        | ok message => rfl

theorem parse_eq_unaryCall_of_query {r : Http.WireRequest} {e : Encoding} {packed : Bytes}
    {name : Option String} (get : r.verb = "GET")
    (query : r.target.query = some (Connect.query packed name e))
    (apart : ∀ n ∈ name, '&' ∉ n.toList) (compression : Compression) :
    parse r compression = unaryCall r e name packed compression.pools := by
  unfold parse unaryCall
  simp only [get, protocolOf_get, bind, Except.bind, if_true, query, Option.getD_some]
  cases procedureOf r.target.path with
  | error cause => rfl
  | ok procedure =>
    cases timeoutOf .connect r.headers with
    | error cause => rfl
    | ok timeout =>
      unfold parseQuery
      simp only [parse_query packed apart, bind, Except.bind, payload_query]

/-- A GET whose query a client has written. -/
theorem parse_get {r : Http.WireRequest} {compression : Compression} {e : Encoding}
    {service method : String} {timeout : Option Nanoseconds} {packed message : Bytes}
    {name : Option String} {pool : Option Pool} (get : r.verb = "GET")
    (procedure : procedureOf r.target.path = .ok (service, method))
    (timed : timeoutOf .connect r.headers = .ok timeout)
    (query : r.target.query = some (Connect.query packed name e))
    (apart : ∀ n ∈ name, '&' ∉ n.toList) (known : poolOf name compression.pools = .ok pool)
    (opened : expand pool packed = .ok message) :
    parse r compression = .ok ⟨.connect, service, method, e.name, "application/" ++ e.name,
      r.headers, timeout, pool.map Pool.name, [message]⟩ := by
  rw [parse_eq_unaryCall_of_query get query apart, unaryCall]
  simp only [procedure, timed, known, opened, bind, Except.bind]

/-- A call but for its headers. -/
def withoutHeaders (call : Request) : Request := { call with headers := .empty }

/-- But for its headers, a call depends on the path and on what the headers say of a timeout. -/
theorem unaryCall_congr {a b : Http.WireRequest} (path : a.target.path = b.target.path)
    (timed : timeoutOf .connect a.headers = timeoutOf .connect b.headers) (e : Encoding)
    (name : Option String) (packed : Bytes) (pools : Registry) :
    (unaryCall a e name packed pools).map withoutHeaders =
      (unaryCall b e name packed pools).map withoutHeaders := by
  unfold unaryCall
  rw [path, timed]
  simp only [bind, Except.bind]
  cases procedureOf b.target.path with
  | error cause => rfl
  | ok procedure =>
    cases timeoutOf .connect b.headers with
    | error cause => rfl
    | ok timeout =>
      cases poolOf name pools with
      | error cause => rfl
      | ok pool =>
        dsimp only
        cases expand pool packed with
        | error cause => rfl
        | ok message => rfl

end RpcWire.Server.Request
