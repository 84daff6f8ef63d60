import RpcWire.Proofs.RoundTrip.Request

/-!
# GET and POST make the same call

A Connect client may send a message in the query of a GET or as the body of a
POST. The server reads the two in different ways: one looks at the query, the
other at headers. All the same the two requests mean the same call, or fail in
the same way (`get_means_post`), provided that the URL has no query of its own
and that the interceptors of the client keep to what a GET can say
(`Http.Request.Getable`).
-/

namespace RpcWire

variable {σ : Type}

open Http.Target (IsBare)
open Server.Request (withoutHeaders)

/-! ## Names of codings -/

/-- Letters, digits, dashes and underscores, as names of codings are made of. -/
def isCodingChar (c : Char) : Bool := c.isAlphanum || c = '-' || c = '_'

/-- A text of such characters. -/
def IsCodingName (name : String) : Prop := name.toList.all isCodingChar = true

instance (name : String) : Decidable (IsCodingName name) :=
  inferInstanceAs (Decidable (_ = true))

theorem isTokenChar_of_isCodingChar {c : Char} (h : isCodingChar c = true) :
    isTokenChar c = true := by
  simp only [isCodingChar, Bool.or_eq_true, decide_eq_true_eq] at h
  rcases h with (letter | rfl) | rfl
  · rw [isTokenChar, letter]
    rfl
  · decide
  · decide

theorem plain_of_isCodingChar {c : Char} (h : isCodingChar c = true) :
    isVisibleChar c = true ∧ c ≠ '&' ∧ c ≠ '#' := by
  have ascii := toNat_lt_of_isTokenChar (isTokenChar_of_isCodingChar h)
  exact Text.forall_ascii (p := fun c => isCodingChar c = true →
    isVisibleChar c = true ∧ c ≠ '&' ∧ c ≠ '#') (by decide) ascii h

namespace IsCodingName

variable {name : String}

theorem isVisible (h : IsCodingName name) : IsVisible name :=
  isVisible_iff.mpr fun c hc => (plain_of_isCodingChar (List.all_eq_true.mp h c hc)).1

/-- Nothing in such a name ends a parameter or a query. -/
theorem apart (h : IsCodingName name) : '&' ∉ name.toList ∧ '#' ∉ name.toList :=
  ⟨fun mem => (plain_of_isCodingChar (List.all_eq_true.mp h _ mem)).2.1 rfl,
    fun mem => (plain_of_isCodingChar (List.all_eq_true.mp h _ mem)).2.2 rfl⟩

end IsCodingName

/-! ## What interceptors keep -/

/-- A step that hands on only what has a property, if it is given what has it. -/
def Preserves {α : Type} (p : α → Prop) (f : σ → α → Except Failure α × σ) : Prop :=
  ∀ s a b after, f s a = (.ok b, after) → p a → p b

/-- Steps that each keep a property keep it one after another. -/
theorem preserves_passOut {α : Type} {p : α → Prop} {fs : List (σ → α → Except Failure α × σ)}
    (h : ∀ f ∈ fs, Preserves p f) : Preserves p (passOut fs) := by
  induction fs with
  | nil =>
    intro s a b after passed ha
    cases passed
    exact ha
  | cons f fs ih =>
    intro s a b after passed ha
    rw [passOut] at passed
    split at passed
    · cases passed
    · next c s' hc =>
      have kept := h f List.mem_cons_self s a c s' hc ha
      exact ih (fun g hg => h g (List.mem_cons_of_mem _ hg)) s' c b after passed kept

/-- A request that can be sent as a GET without any loss: it is made by a POST to a URL without a
query or a fragment, it names no coding of its own, and the method has no side effects. -/
structure Http.Request.Getable (r : Http.Request) : Prop where
  verb : r.verb = "POST"
  plain : IsBare r.url.toList
  uncoded : r.headers.text? FieldName.contentEncoding = none
  safe : r.callee.isSafe = true

/-- Setting a timeout leaves a call fit for GET. -/
theorem preserves_settingTimeout (timeout : Option Nanoseconds) :
    Preserves Http.Request.Getable
      (Interceptor.settingTimeout timeout : Interceptor σ).unary.request := by
  intro s r r' after handed getable
  cases handed
  exact ⟨getable.verb, getable.plain, getable.uncoded, getable.safe⟩

/-- So does adding a header other than the coding of the body. -/
theorem preserves_namingPath {header : String}
    (other : Text.lower header ≠ Text.lower FieldName.contentEncoding) :
    Preserves Http.Request.Getable
      (Interceptor.namingPath header : Interceptor σ).unary.request := by
  intro s r r' after handed getable
  cases handed
  refine ⟨getable.verb, getable.plain, ?_, getable.safe⟩
  rw [Metadata.text?_set_of_ne other]
  exact getable.uncoded

theorem subset_of_withoutTrailingSlashes (host : String) :
    (Http.withoutTrailingSlashes host).toList ⊆ host.toList := by
  intro ch h
  rw [Http.withoutTrailingSlashes, String.toList_ofList, Text.dropTrailing, List.mem_reverse] at h
  exact List.mem_reverse.mp ((List.dropWhile_sublist _).subset h)

/-- A call of a method without side effects starts from such a request. -/
theorem getable_baseRequest {c : ClientConfig σ} {callee : Method} (safe : callee.isSafe = true)
    (host : IsBare c.host.toList) (path : IsBare callee.path.toList) (o : CallOptions)
    (body : Bytes) : Http.Request.Getable { c.baseRequest callee o with body } where
  verb := rfl
  safe := safe
  uncoded := Metadata.text?_of_values_nil (o.values_ownHeaders (by decide))
  plain := by
    show IsBare (Http.withoutTrailingSlashes c.host ++ "/" ++ callee.path).toList
    rw [String.toList_append, String.toList_append]
    exact ((host.subset (subset_of_withoutTrailingSlashes c.host)).append (by decide)).append path

/-! ## One request, sent in two ways -/

/-- Two requests that a server reads as the same call but for the headers, or refuses with the same
failure, if the target of the first is legal at all. -/
def Http.Request.MeansSame (a b : Http.Request) (compression : Server.Compression) : Prop :=
  ∀ target, a.target = .ok target → ∃ first second,
    a.toWire a.body = .ok first ∧ b.toWire b.body = .ok second ∧
      (Server.Request.parse first compression).map withoutHeaders =
        (Server.Request.parse second compression).map withoutHeaders

namespace Connect

variable {c : ClientConfig σ} {r : Http.Request}

theorem target_of_toGet (getable : r.Getable) {packed : Bytes} {name : Option String}
    (apart : ∀ n ∈ name, '#' ∉ n.toList) {target : Http.Target}
    (h : (toGet r packed name c.encoding).target = .ok target) :
    target.query = some (query packed name c.encoding) ∧
      (toPost r packed name).target = .ok { target with query := none } := by
  show _ ∧ r.target = _
  unfold Http.Request.target at h ⊢
  split at h
  · next read =>
    cases h
    obtain ⟨asked, bare⟩ := Http.Target.parse?_of_asked getable.plain
      (Server.Request.not_mem_query packed apart c.encoding) read
    exact ⟨asked, by rw [bare]⟩
  · cases h

theorem text?_version_readied (c : ClientConfig σ) (r : Http.Request) :
    (readied c r).headers.text? FieldName.connectVersion = some "1" := by
  rw [readied, Metadata.text?_eq_of_values (Metadata.values_setIf_of_ne (by decide) _)]
  exact text?_version_prepareHeaders _ _

theorem getable_readied (getable : r.Getable) : (readied c r).Getable where
  verb := getable.verb
  plain := getable.plain
  safe := getable.safe
  uncoded := by
    rw [readied, Metadata.text?_eq_of_values (Metadata.values_setIf_of_ne (by decide) _),
      Metadata.text?_eq_of_values
        (values_prepareHeaders_of_ne (by decide) (by decide) (by decide) _ _)]
    exact getable.uncoded

theorem text?_encoding_toPost (getable : r.Getable) {name : Option String}
    (visible : ∀ n ∈ name, IsVisible n) (packed : Bytes) :
    (toPost r packed name).headers.text? FieldName.contentEncoding = name := by
  cases name with
  | some name => exact Metadata.text?_set (by decide) (visible name rfl)
  | none => exact getable.uncoded

/-- Either request says the same of the timeout, one with the version of the protocol and the other
without. -/
theorem timeoutOf_toGet (c : ClientConfig σ) (r : Http.Request) (packed : Bytes)
    (name : Option String) (type : String) :
    Server.Request.timeoutOf .connect (toGet (readied c r) packed name c.encoding).headers =
      Server.Request.timeoutOf .connect
        ((toPost (readied c r) packed name).headers.set FieldName.contentType type) := by
  have unversioned : (toGet (readied c r) packed name c.encoding).headers.values
      FieldName.connectVersion = [] := by
    unfold toGet
    rw [Metadata.values_erase, if_neg (by decide), Metadata.values_erase, if_pos rfl]
  have versioned : ((toPost (readied c r) packed name).headers.set FieldName.contentType
      type).text? FieldName.connectVersion = some "1" := by
    unfold toPost
    rw [Metadata.text?_set_of_ne (by decide),
      Metadata.text?_eq_of_values (Metadata.values_setIf_of_ne (by decide) _)]
    exact text?_version_readied c r
  have timeout : (toGet (readied c r) packed name c.encoding).headers.values
        FieldName.connectTimeout =
      ((toPost (readied c r) packed name).headers.set FieldName.contentType type).values
        FieldName.connectTimeout := by
    unfold toGet toPost
    rw [Metadata.values_erase, if_neg (by decide), Metadata.values_erase, if_neg (by decide),
      Metadata.values_set_of_ne (by decide), Metadata.values_setIf_of_ne (by decide)]
  rw [Server.Request.timeoutOf_of_version, Server.Request.timeoutOf_of_version,
    Metadata.text?_eq_of_values timeout]
  · rw [versioned]
    intro v hv
    exact (Option.some.inj hv).symm
  · rw [Metadata.text?_of_values_nil unversioned]
    intro v hv
    nomatch hv

/-- A server reads the GET through its query. -/
theorem parse_toGet {packed : Bytes} {name : Option String} (named : ∀ n ∈ name, IsCodingName n)
    {target : Http.Target} (ht : (toGet (readied c r) packed name c.encoding).target = .ok target)
    (asked : target.query = some (query packed name c.encoding))
    (compression : Server.Compression) :
    ∃ wire, (toGet (readied c r) packed name c.encoding).toWire [] = .ok wire ∧
      wire.target = target ∧
      wire.headers = (toGet (readied c r) packed name c.encoding).headers ∧
      Server.Request.parse wire compression =
        Server.Request.unaryCall wire c.encoding name packed compression.pools :=
  ⟨_, toWire_ok ht rfl [], rfl, rfl, Server.Request.parse_eq_unaryCall_of_query rfl asked
    (fun n hn => (named n hn).apart.1) compression⟩

/-- A server reads the POST through its headers and its body. -/
theorem parse_toPost (getable : r.Getable) {packed : Bytes} {name : Option String}
    (named : ∀ n ∈ name, IsCodingName n) {target : Http.Target}
    (ht : (toPost (readied c r) packed name).target = .ok target)
    (compression : Server.Compression) :
    ∃ wire, (toPost (readied c r) packed name).toWire packed = .ok wire ∧ wire.target = target ∧
      wire.headers = (toPost (readied c r) packed name).headers.set FieldName.contentType
        (Protocol.connect.contentType c.encoding.name) ∧
      Server.Request.parse wire compression =
        Server.Request.unaryCall wire c.encoding name packed compression.pools := by
  have headers : (toPost (readied c r) packed name).wireHeaders = .ok _ :=
    wireHeaders_of_post (p := .connect) (e := c.encoding) getable.verb rfl
  refine ⟨_, toWire_ok ht headers packed, rfl, rfl, ?_⟩
  have type : ((toPost (readied c r) packed name).headers.set FieldName.contentType
      (Protocol.connect.contentType c.encoding.name)).text? FieldName.contentType = some _ :=
    Metadata.text?_set (by decide) (Protocol.isVisible_contentType .connect c.encoding)
  have coding : ((toPost (readied c r) packed name).headers.set FieldName.contentType
      (Protocol.connect.contentType c.encoding.name)).text? FieldName.contentEncoding = name := by
    rw [Metadata.text?_set_of_ne (by decide)]
    exact text?_encoding_toPost (getable_readied getable) (fun n hn => (named n hn).isVisible)
      packed
  have read := Server.Request.parse_eq_unaryCall_of_body
    (r := ⟨_, target, (toPost (readied c r) packed name).headers.set FieldName.contentType
      (Protocol.connect.contentType c.encoding.name), packed⟩) getable.verb type compression
  rw [coding] at read
  exact read

/-- A request says the same to a server whether its message is in the query of a GET or in the body
of a POST. -/
theorem toGet_meansSame (getable : r.Getable) {name : Option String}
    (named : ∀ n ∈ name, IsCodingName n) (packed : Bytes) (compression : Server.Compression) :
    (toGet (readied c r) packed name c.encoding).MeansSame (toPost (readied c r) packed name)
      compression := by
  intro target ht
  obtain ⟨asked, bare⟩ :=
    target_of_toGet (getable_readied getable) (fun n hn => (named n hn).apart.2) ht
  obtain ⟨first, sent, goes, headers, read⟩ := parse_toGet named ht asked compression
  obtain ⟨second, sent', goes', headers', read'⟩ := parse_toPost getable named bare compression
  refine ⟨first, second, sent, sent', ?_⟩
  rw [read, read']
  refine Server.Request.unaryCall_congr ?_ ?_ c.encoding name packed compression.pools
  · rw [goes, goes']
  · rw [headers, headers']
    exact timeoutOf_toGet c r packed name _

/-- The coding of a compressed body is the one that the client is set to. -/
theorem isCodingName_of_compress {t : Option Threshold} {body packed : Bytes} {name : Option String}
    (named : ∀ th ∈ t, IsCodingName th.pool.name) (packing : compress body t = .ok (packed, name)) :
    ∀ n ∈ name, IsCodingName n := by
  intro n hn
  rcases compressed_of_compress packing with ⟨rfl, -⟩ | ⟨th, hth, rfl, -⟩
  · cases hn
  · cases hn
    exact named th hth

/-- What a client makes of a request that may be sent as a GET: a failure, or one of two requests,
between which its policy decides by the length of the body. -/
theorem unaryRequest_getable (getable : r.Getable)
    (named : ∀ t ∈ c.compression, IsCodingName t.pool.name) :
    (∃ cause, ∀ policy, unaryRequest { c with get := policy } r = .error cause) ∨
    ∃ packed name, (∀ n ∈ name, IsCodingName n) ∧
      ∀ policy, unaryRequest { c with get := policy } r =
        .ok (if policy.allows packed.length = true then
            toGet (readied c r) packed name c.encoding
          else toPost (readied c r) packed name) := by
  cases packing : compress r.body c.compression with
  | error cause =>
    refine .inl ⟨cause, fun policy => ?_⟩
    rw [unaryRequest_eq, packing]
    rfl
  | ok sent =>
    obtain ⟨packed, name⟩ := sent
    refine .inr ⟨packed, name, isCodingName_of_compress named packing, fun policy => ?_⟩
    rw [unaryRequest_eq, packing]
    -- only the length matters, since the method may be sent as a GET
    have uses : usesGet policy r.callee packed = policy.allows packed.length := by
      rw [usesGet, getable.safe, Bool.true_and]
    show Except.ok (if usesGet policy r.callee packed = true then _ else _) = _
    rw [uses]
    rfl

end Connect

/-! ## Every call -/

/-- What a client makes of a unary call if its policy for GET is another. -/
def ClientConfig.requestUnder (c : ClientConfig σ) (policy : GetPolicy) (memory : σ)
    (callee : Method) (o : CallOptions) (body : Bytes) : Except Failure Http.Request × σ :=
  { c with get := policy }.unaryHook.request memory { c.baseRequest callee o with body }

theorem requestUnder_connect {c : ClientConfig σ} (connect : c.family = .connect)
    (policy : GetPolicy) (memory : σ) (callee : Method) (o : CallOptions) (body : Bytes) :
    c.requestUnder policy memory callee o body =
      match passOut (c.interceptors.map fun i => i.unary.request) memory
        { c.baseRequest callee o with body } with
      | (.error cause, after) => (.error cause, after)
      | (.ok r, after) => (Connect.unaryRequest { c with get := policy } r, after) := by
  have last : (protocolUnary { c with get := policy } : UnaryHook σ).request =
      fun s r => (Connect.unaryRequest { c with get := policy } r, s) := by
    unfold protocolUnary
    rw [show ({ c with get := policy } : ClientConfig σ).family = .connect from connect]
    rfl
  show passOut ((c.interceptors.map Interceptor.unary ++
    [protocolUnary { c with get := policy }]).map UnaryHook.request) memory _ = _
  rw [List.map_append, List.map_map, Function.comp_def, passOut_append, List.map_singleton, last]
  split
  · next h => rw [h]
  · next h => rw [h, passOut_singleton]

/-- A GET carries the call that a POST would. Under any policy a client fails to prepare a call as
it would if it never sent a GET, or that client would send a POST, and the policy decides by the
length of its body, compressed or not. If it refuses, the POST is sent as it is. Otherwise a GET is
sent, and if its URL is a legal target, a server reads the same call from both requests or refuses
both with the same failure. -/
theorem get_means_post {c : ClientConfig σ} (connect : c.family = .connect) {callee : Method}
    (safe : callee.isSafe = true) (host : IsBare c.host.toList) (path : IsBare callee.path.toList)
    (named : ∀ t ∈ c.compression, IsCodingName t.pool.name)
    (kept : ∀ i ∈ c.interceptors, Preserves Http.Request.Getable i.unary.request)
    (policy : GetPolicy) (memory : σ) (o : CallOptions) (body : Bytes)
    (compression : Server.Compression) :
    (∃ cause after, c.requestUnder .never memory callee o body = (.error cause, after) ∧
      c.requestUnder policy memory callee o body = (.error cause, after)) ∨
    ∃ post sent after, c.requestUnder .never memory callee o body = (.ok post, after) ∧
      c.requestUnder policy memory callee o body = (.ok sent, after) ∧ post.verb = "POST" ∧
      (policy.allows post.body.length = false → sent = post) ∧
      (policy.allows post.body.length = true →
        sent.verb = "GET" ∧ sent.MeansSame post compression) := by
  rw [requestUnder_connect connect, requestUnder_connect connect]
  have preserves : Preserves Http.Request.Getable
      (passOut (c.interceptors.map fun i => i.unary.request)) := by
    refine preserves_passOut ?_
    intro f hf
    obtain ⟨i, hi, rfl⟩ := List.mem_map.mp hf
    exact kept i hi
  cases hp : passOut (c.interceptors.map fun i => i.unary.request) memory
      { c.baseRequest callee o with body } with
  | mk result after =>
  cases result with
  | error cause => exact .inl ⟨cause, after, rfl, rfl⟩
  | ok r =>
    have getable : r.Getable :=
      preserves _ _ _ _ hp (getable_baseRequest safe host path o body)
    dsimp only
    rcases Connect.unaryRequest_getable getable named with
      ⟨cause, failed⟩ | ⟨packed, name, named, made⟩
    · exact .inl ⟨cause, after, by rw [failed], by rw [failed]⟩
    · refine .inr ⟨Connect.toPost (Connect.readied c r) packed name, _, after, ?_, by rw [made],
        getable.verb, ?_, ?_⟩
      · rw [made]
        rfl
      · intro refused
        have refused : policy.allows packed.length = false := refused
        exact if_neg (by rw [refused]; decide)
      · intro allowed
        have allowed : policy.allows packed.length = true := allowed
        rw [if_pos allowed]
        exact ⟨rfl, Connect.toGet_meansSame getable named packed compression⟩

/-! ## A compressed message under several policies -/

/-- The messages that a server reads from what a client makes of a call. -/
def ClientConfig.messagesUnder (c : ClientConfig σ) (policy : GetPolicy) (memory : σ)
    (callee : Method) (body : Bytes) (compression : Server.Compression) : Option (List Bytes) := do
  let r ← (c.requestUnder policy memory callee .empty body).1.toOption
  let wire ← (r.toWire r.body).toOption
  let call ← (Server.Request.parse wire compression).toOption
  some call.messages

/-- A client whose interceptors change the timeout and add a header. -/
def timedClient : ClientConfig Unit :=
  { gettingClient with interceptors := [.settingTimeout (some 5000000), .namingPath "x-path"] }

theorem preserves_timedClient :
    ∀ i ∈ timedClient.interceptors, Preserves Http.Request.Getable i.unary.request := by
  intro i hi
  rcases List.mem_cons.mp hi with rfl | hi
  · exact preserves_settingTimeout _
  · rw [List.mem_singleton.mp hi]
    exact preserves_namingPath (by decide)

/-- A body of three octets goes into a query of at most so many octets, and into none of fewer. -/
theorem get_means_post_flipped :
    ∃ post sent first second,
      timedClient.requestUnder .never () safeCallee .empty [1, 2, 3] = (.ok post, ()) ∧
      timedClient.requestUnder (.upTo 3) () safeCallee .empty [1, 2, 3] = (.ok sent, ()) ∧
      timedClient.requestUnder (.upTo 2) () safeCallee .empty [1, 2, 3] = (.ok post, ()) ∧
      sent.verb = "GET" ∧ sent.toWire sent.body = .ok first ∧ post.toWire post.body = .ok second ∧
      (Server.Request.parse first flippingServer).map withoutHeaders =
        (Server.Request.parse second flippingServer).map withoutHeaders ∧
      timedClient.messagesUnder .never () safeCallee [1, 2, 3] flippingServer =
        some [[1, 2, 3]] := by
  have safe : safeCallee.isSafe = true := by decide +kernel
  have named : ∀ t ∈ timedClient.compression, IsCodingName t.pool.name := by
    rintro t ⟨⟩
    decide +kernel
  have under := fun policy =>
    get_means_post (c := timedClient) rfl safe (by decide +kernel) (by decide +kernel) named
      preserves_timedClient policy () .empty [1, 2, 3] flippingServer
  have body : (timedClient.requestUnder .never () safeCallee .empty [1, 2, 3]).1.toOption.map
      Http.Request.body = some [3, 2, 1] := by decide +kernel
  have legal : (timedClient.requestUnder (.upTo 3) () safeCallee .empty [1, 2, 3]).1.toOption.map
      (fun r => r.target.toOption.map Http.Target.path) = some (some "/s/m") := by decide +kernel
  rcases under (.upTo 3) with
    ⟨cause, after, failed, -⟩ | ⟨post, sent, ⟨⟩, hpost, hsent, -, -, fits⟩
  · rw [failed] at body
    cases body
  rcases under (.upTo 2) with
    ⟨cause, after, failed, -⟩ | ⟨post', long, ⟨⟩, hpost', hlong, -, same, -⟩
  · rw [failed] at body
    cases body
  rw [hpost] at body
  rw [hsent] at legal
  have body : post.body = [3, 2, 1] := Option.some.inj body
  obtain ⟨target, ht, -⟩ := ok_of_toOption (Option.some.inj legal)
  cases hpost.symm.trans hpost'
  obtain ⟨get, means⟩ := fits (by rw [body]; rfl)
  obtain ⟨first, second, sentFirst, sentSecond, read⟩ := means target ht
  refine ⟨post, sent, first, second, hpost, hsent, ?_, get, sentFirst, sentSecond, read, ?_⟩
  · rw [hlong, same (by rw [body]; rfl)]
  · decide +kernel

/-! ## URLs with a query, and codings that interceptors name -/

/-- A client whose URL has a query of its own. -/
def queriedClient : ClientConfig Unit := { gettingClient with host := "http://h/a/b?x" }

/-- A client that does not compress, with an interceptor that says it does. -/
def codingClient : ClientConfig Unit :=
  { gettingClient with
    compression := none
    interceptors := [.ofRequest fun r =>
      .ok { r with headers := r.headers.set FieldName.contentEncoding "flip" }] }

/-- Such clients send another message in a GET than in a POST, and both are read without a
failure. -/
theorem get_differs_from_post :
    safeCallee.isSafe = true ∧ IsBare safeCallee.path.toList ∧
    (∀ t ∈ queriedClient.compression, IsCodingName t.pool.name) ∧
    queriedClient.messagesUnder .never () safeCallee [1] flippingServer = some [[1]] ∧
    queriedClient.messagesUnder .always () safeCallee [1] flippingServer =
      some [Utf8.encode "AQ"] ∧
    codingClient.messagesUnder .never () safeCallee [1, 2] flippingServer = some [[2, 1]] ∧
    codingClient.messagesUnder .always () safeCallee [1, 2] flippingServer = some [[1, 2]] := by
  refine ⟨by decide +kernel, by decide +kernel, ?_, by decide +kernel, by decide +kernel,
    by decide +kernel, by decide +kernel⟩
  rintro t ⟨⟩
  decide +kernel

end RpcWire
