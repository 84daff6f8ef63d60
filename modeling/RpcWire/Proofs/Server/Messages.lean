import Mathlib.Data.List.Forall2
import RpcWire.Proofs.Frame.Content
import RpcWire.Proofs.Server.Request

/-!
# The messages of a framed request

A server takes the frames off a body one after another. It reads exactly the
bodies that are made of whole frames (`payloads_eq_ok_iff`), and finds fault with
the others and with payloads that the pool can make nothing of
(`payloads_eq_error_iff`). With a pool every message is what its frame holds.
Without one a payload that is marked as compressed is handed out as it is
(`messages_of_accepted`).
-/

namespace RpcWire

namespace Server.Request

open Envelope (Corrupt Cuts Holds IsMarked IsWhole Yields flagsOf headerSize)

variable {pool : Option Pool}

/-! ## Frame by frame -/

/-- Frames in front of a body give what they yield, one after another. -/
theorem payloads_append {frames messages : List Bytes} (whole : ∀ f ∈ frames, IsWhole f)
    (yield : List.Forall₂ (Yields pool) frames messages) (more : Bytes) :
    payloads pool (frames.flatten ++ more) = (payloads pool more).map (messages ++ ·) := by
  induction yield with
  | nil =>
    rw [List.flatten_nil, List.nil_append]
    cases payloads pool more <;> rfl
  | @cons f message frames messages yields _ ih =>
    have first := whole f List.mem_cons_self
    have later := ih fun g hg => whole g (List.mem_cons_of_mem _ hg)
    have nonempty : f ++ (frames.flatten ++ more) ≠ [] := by simp [first.ne_nil]
    have opened : Envelope.opened pool (flagsOf f) (f.drop headerSize) =
        .ok ⟨flagsOf f, message⟩ := Envelope.opened_eq_ok_iff.mpr ⟨rfl, yields⟩
    have read := first.unpack_append (frames.flatten ++ more) pool
    rw [opened] at read
    rw [List.flatten_cons, List.append_assoc, payloads_of_unpack nonempty read, later]
    cases payloads pool more <;> rfl

/-- A server reads exactly the bodies that are made of frames, all of which yield something. -/
theorem payloads_eq_ok_iff {body : Bytes} {messages : List Bytes} :
    payloads pool body = .ok messages ↔
      ∃ frames, Cuts body frames [] ∧ List.Forall₂ (Yields pool) frames messages := by
  constructor
  · intro read
    fun_induction payloads pool body generalizing messages with
    | case1 =>
      cases read
      exact ⟨[], ⟨by simp, rfl, rfl⟩, .nil⟩
    | case2 => cases read
    | case3 body nonempty rest e unpacked ih =>
      obtain ⟨later, others, rfl⟩ : ∃ later, payloads pool rest = .ok later ∧
          messages = e.payload :: later := by
        cases later : payloads pool rest with
        | error cause =>
          rw [later] at read
          cases read
        | ok messages =>
          rw [later] at read
          cases read
          exact ⟨messages, rfl, rfl⟩
      obtain ⟨f, whole, joined, -, yields⟩ := Envelope.yields_of_unpack nonempty unpacked
      obtain ⟨frames, cut, yield⟩ := ih others
      refine ⟨f :: frames, ⟨?_, ?_, cut.unfinished⟩, .cons yields yield⟩
      · exact List.forall_mem_cons.mpr ⟨whole, cut.whole⟩
      · rw [List.flatten_cons, List.append_assoc, cut.joined, joined]
  · rintro ⟨frames, cut, yield⟩
    have read := payloads_append cut.whole yield []
    rw [cut.joined, payloads_nil] at read
    rw [read]
    exact congrArg Except.ok (List.append_nil messages)

/-- A body is unpacked exactly if nothing is left over and every frame yields a message. -/
theorem payloads_eq_ok_iff_of_cuts {body rest : Bytes} {frames messages : List Bytes}
    (cut : Cuts body frames rest) :
    payloads pool body = .ok messages ↔
      rest = [] ∧ List.Forall₂ (Yields pool) frames messages := by
  rw [payloads_eq_ok_iff]
  constructor
  · rintro ⟨others, same, yield⟩
    obtain ⟨rfl, rfl⟩ := Prod.mk.inj (same.unique.symm.trans cut.unique)
    exact ⟨rfl, yield⟩
  · rintro ⟨rfl, yield⟩
    exact ⟨frames, cut, yield⟩

/-- Either something can be made of a frame or its payload is beyond repair. -/
theorem exists_yields_iff {f : Bytes} : (∃ message, Yields pool f message) ↔ ¬ Corrupt pool f := by
  rw [← Envelope.opened_eq_error_iff]
  cases read : Envelope.opened pool (flagsOf f) (f.drop headerSize) with
  | error fault =>
    refine ⟨?_, fun sound => absurd ⟨fault, rfl⟩ sound⟩
    rintro ⟨message, yields⟩
    have other := Envelope.opened_eq_ok_iff (e := ⟨flagsOf f, message⟩).mpr ⟨rfl, yields⟩
    rw [read] at other
    cases other
  | ok e =>
    refine ⟨fun _ failed => (nomatch failed), fun _ => ?_⟩
    exact ⟨e.payload, (Envelope.opened_eq_ok_iff.mp read).2⟩

theorem forall₂_yields_iff {frames : List Bytes} :
    (∃ messages, List.Forall₂ (Yields pool) frames messages) ↔ ∀ f ∈ frames, ¬ Corrupt pool f := by
  induction frames with
  | nil => exact ⟨fun _ f hf => (nomatch hf), fun _ => ⟨[], .nil⟩⟩
  | cons f frames ih =>
    rw [List.forall_mem_cons, ← exists_yields_iff, ← ih]
    constructor
    · rintro ⟨_, _ | ⟨first, later⟩⟩
      exact ⟨⟨_, first⟩, _, later⟩
    · rintro ⟨⟨message, first⟩, messages, later⟩
      exact ⟨message :: messages, .cons first later⟩

/-- A server finds fault with a body exactly if it does not end where a frame ends or the pool can
make nothing of a frame. -/
theorem payloads_eq_error_iff {body rest : Bytes} {frames : List Bytes}
    (cut : Cuts body frames rest) :
    (∃ cause, payloads pool body = .error cause) ↔ rest ≠ [] ∨ ∃ f ∈ frames, Corrupt pool f := by
  have opposite : (∃ cause, payloads pool body = .error cause) ↔
      ¬ ∃ messages, payloads pool body = .ok messages := by
    cases payloads pool body <;> simp
  simp only [opposite, payloads_eq_ok_iff_of_cuts cut, exists_and_left, forall₂_yields_iff]
  rw [Classical.not_and_iff_not_or_not]
  simp

/-! ## Without a pool -/

/-- Without a pool every frame yields its payload, marked or not. -/
theorem forall₂_yields_none_iff {frames messages : List Bytes} :
    List.Forall₂ (Yields none) frames messages ↔ messages = frames.map (·.drop headerSize) := by
  have raw : Yields none = fun f message => f.drop headerSize = message := by
    funext f message
    exact propext (Envelope.yields_none_iff.trans eq_comm)
  rw [raw, ← List.forall₂_map_left_iff, List.forall₂_eq_eq_eq, eq_comm]

/-- These payloads are the messages exactly if no frame is marked. -/
theorem forall₂_holds_none_iff {frames : List Bytes} :
    List.Forall₂ (Holds none) frames (frames.map (·.drop headerSize)) ↔
      ∀ f ∈ frames, ¬ IsMarked f := by
  simp only [List.forall₂_map_right_iff, List.forall₂_same, Envelope.holds_none_iff, and_true]

theorem payloads_none_of_wholes {frames : List Bytes} (whole : ∀ f ∈ frames, IsWhole f) :
    payloads none frames.flatten = .ok (frames.map (·.drop headerSize)) :=
  payloads_eq_ok_iff.mpr
    ⟨frames, ⟨whole, List.append_nil _, rfl⟩, forall₂_yields_none_iff.mpr rfl⟩

/-! ## Whole requests -/

variable {r : Http.WireRequest} {compression : Compression} {call : Request}

theorem protocol_of_parseQuery {query : String} {pools : Registry} {result : Request}
    (h : parseQuery call query pools = .ok result) : result.protocol = call.protocol := by
  unfold parseQuery at h
  obtain ⟨q, -, h⟩ := bind_eq_ok_iff.mp h
  cases encoding : q.encoding with
  | none =>
    rw [encoding] at h
    cases h
  | some codec =>
    rw [encoding] at h
    obtain ⟨raw, -, h⟩ := bind_eq_ok_iff.mp h
    obtain ⟨pool, -, h⟩ := bind_eq_ok_iff.mp h
    obtain ⟨message, -, h⟩ := bind_eq_ok_iff.mp h
    cases h
    rfl

/-- What is made of a request in envelopes depends on its body only through the frames. -/
theorem parse_of_isEnveloped (accepted : parse r compression = .ok call)
    (enveloped : call.protocol.isEnveloped = true) :
    ∃ pool, poolOf (r.headers.text? call.protocol.encodingField) compression.pools = .ok pool ∧
      payloads pool r.body = .ok call.messages ∧
      ∀ body messages, payloads pool body = .ok messages →
        parse { r with body } compression = .ok { call with messages } := by
  rw [parse_eq] at accepted
  obtain ⟨outlined, h, accepted⟩ := bind_eq_ok_iff.mp accepted
  obtain ⟨detected, headers⟩ := outline_spec h
  by_cases get : r.verb = "GET"
  · -- a GET is a call without envelopes
    have connect : outlined.protocol = .connect := by
      rw [get] at detected
      exact (Except.ok.inj detected).symm
    rw [if_pos get] at accepted
    rw [protocol_of_parseQuery accepted, connect] at enveloped
    cases enveloped
  · rw [if_neg get, parseBody_eq] at accepted
    obtain ⟨pool, found, accepted⟩ := bind_eq_ok_iff.mp accepted
    obtain ⟨messages, read, made⟩ := bind_eq_ok_iff.mp accepted
    cases made
    have framed : ∀ body, bodyMessages outlined.protocol pool body = payloads pool body :=
      fun body => if_pos enveloped
    rw [framed] at read
    rw [headers] at found
    refine ⟨pool, found, read, ?_⟩
    intro body messages others
    have same : outline { r with body } = .ok outlined := h
    rw [parse_of_body same get found, framed, others]
    rfl

/-- A body that a server accepts is made of whole frames, with one message for each. If the headers
name a pool then the messages are what the frames hold. If they do not, the messages are the
payloads as they came, which is what the frames hold exactly if none is marked as compressed; and
nothing depends on the marks, for the same request is accepted with any whole frames. -/
theorem messages_of_accepted (accepted : parse r compression = .ok call)
    (enveloped : call.protocol.isEnveloped = true) :
    ∃ frames : List Bytes, (∀ f ∈ frames, IsWhole f) ∧ frames.flatten = r.body ∧
      ((∃ n ∈ r.headers.text? call.protocol.encodingField, Registry.Names n ∧
          ∃ p, compression.pools.find? n = some p ∧
            List.Forall₂ (Holds (some p)) frames call.messages) ∨
        (∀ n ∈ r.headers.text? call.protocol.encodingField, ¬ Registry.Names n) ∧
          call.messages = frames.map (·.drop headerSize) ∧
          (List.Forall₂ (Holds none) frames call.messages ↔ ∀ f ∈ frames, ¬ IsMarked f) ∧
          ∀ others : List Bytes, (∀ f ∈ others, IsWhole f) →
            parse { r with body := others.flatten } compression =
              .ok { call with messages := others.map (·.drop headerSize) }) := by
  obtain ⟨pool, found, read, reads⟩ := parse_of_isEnveloped accepted enveloped
  obtain ⟨frames, cut, yield⟩ := payloads_eq_ok_iff.mp read
  have joined := cut.joined
  rw [List.append_nil] at joined
  refine ⟨frames, cut.whole, joined, ?_⟩
  cases pool with
  | some p =>
    obtain ⟨n, named, names, known⟩ := poolOf_eq_some_iff.mp found
    refine .inl ⟨n, named, names, p, known, ?_⟩
    exact yield.imp fun _ _ => Envelope.yields_some_iff.mp
  | none =>
    have raw := forall₂_yields_none_iff.mp yield
    refine .inr ⟨poolOf_eq_none_iff.mp found, raw, ?_, ?_⟩
    · rw [raw]
      exact forall₂_holds_none_iff
    · intro others whole
      exact reads _ _ (payloads_none_of_wholes whole)

/-! ## A compressed message next to one that is not -/

/-- A frame that is marked as compressed and holds a payload written backwards, and a plain one. -/
def mixedFrames : List Bytes := [[1, 0, 0, 0, 3, 99, 98, 97], [0, 0, 0, 0, 1, 7]]

/-- The two frames as a request of gRPC, with a name for the compression. -/
def mixedRequest (name : String) : Http.WireRequest where
  verb := "POST"
  target := ⟨none, "", "/pkg.Svc/Do", none⟩
  headers := .ofTexts
    [(FieldName.contentType, "application/grpc+proto"), (FieldName.grpcEncoding, name)]
  body := mixedFrames.flatten

theorem mixedFrames_whole : ∀ f ∈ mixedFrames, IsWhole f := by decide

theorem parse_mixedRequest (name : String) (pools : Registry) {messages : List Bytes}
    (type : (mixedRequest name).headers.text? FieldName.contentType = some "application/grpc+proto")
    (timed : timeoutOf .grpc (mixedRequest name).headers = .ok none)
    (known : poolOf ((mixedRequest name).headers.text? FieldName.grpcEncoding) pools = .ok pool)
    (yield : List.Forall₂ (Yields pool) mixedFrames messages) :
    parse (mixedRequest name) ⟨pools, none⟩ =
      .ok ⟨.grpc, "pkg.Svc", "Do", "proto", "application/grpc+proto", (mixedRequest name).headers,
        none, pool.map Pool.name, messages⟩ := by
  have cut : Cuts (mixedRequest name).body mixedFrames [] :=
    ⟨mixedFrames_whole, List.append_nil _, rfl⟩
  have path : procedureOf (mixedRequest name).target.path = .ok ("pkg.Svc", "Do") :=
    procedureOf_do
  exact parse_post (p := .grpc) (e := .proto) rfl type path timed known
    (payloads_eq_ok_iff.mpr ⟨mixedFrames, cut, yield⟩)

/-- Under the name of a pool that writes payloads backwards, both frames are read right. -/
theorem messages_of_accepted_mixed :
    ∃ call, parse (mixedRequest "flip") ⟨⟨[.reversing "flip"]⟩, none⟩ = .ok call ∧
      call.messages = [[97, 98, 99], [7]] ∧
      List.Forall₂ (Holds (some (.reversing "flip"))) mixedFrames call.messages := by
  have named : (mixedRequest "flip").headers.text? FieldName.grpcEncoding = some "flip" := by
    decide +kernel
  have yield : List.Forall₂ (Yields (some (Pool.reversing "flip"))) mixedFrames
      [[97, 98, 99], [7]] := by
    refine .cons (.inl ?_) (.cons (.inl ?_) .nil)
    · exact (Envelope.holds_iff_of_marked (by decide)).mpr ⟨_, rfl, rfl⟩
    · exact (Envelope.holds_iff_of_unmarked (by decide)).mpr rfl
  have accepted := parse_mixedRequest "flip" ⟨[.reversing "flip"]⟩ (by decide +kernel)
    (by decide +kernel) (by rw [named]; rfl) yield
  refine ⟨_, accepted, rfl, ?_⟩
  obtain ⟨frames, whole, joined, ⟨n, hn, -, p, found, holds⟩ | ⟨unnamed, -⟩⟩ :=
    messages_of_accepted accepted rfl
  · obtain rfl : frames = mixedFrames :=
      Envelope.wholes_injective whole mixedFrames_whole joined
    obtain rfl : "flip" = n := Option.some.inj (named.symm.trans hn)
    obtain rfl : Pool.reversing "flip" = p := Option.some.inj found
    exact holds
  · exact absurd ⟨by decide, by decide⟩ (unnamed "flip" named)

/-- Under a name that stands for no pool the request is accepted all the same, and the payload that
is marked as compressed is handed out as it came. -/
theorem messages_still_compressed :
    ∃ call, parse (mixedRequest "identity") ⟨.empty, none⟩ = .ok call ∧
      call.protocol.isEnveloped = true ∧
      Envelope.splitWhole (mixedRequest "identity").body = (mixedFrames, []) ∧
      (∃ f ∈ mixedFrames, IsMarked f) ∧
      poolOf ((mixedRequest "identity").headers.text? call.protocol.encodingField) .empty =
        .ok none ∧
      call.messages = mixedFrames.map (·.drop headerSize) ∧
      ¬ List.Forall₂ (Holds none) mixedFrames call.messages := by
  have named : poolOf ((mixedRequest "identity").headers.text? FieldName.grpcEncoding) .empty =
      .ok none := by
    have name : (mixedRequest "identity").headers.text? FieldName.grpcEncoding =
        some "identity" := by decide +kernel
    rw [name]
    rfl
  have cut : Cuts (mixedRequest "identity").body mixedFrames [] :=
    ⟨mixedFrames_whole, List.append_nil _, rfl⟩
  have accepted :=
    parse_mixedRequest "identity" .empty (by decide +kernel) (by decide +kernel) named
    (forall₂_yields_none_iff.mpr rfl)
  refine ⟨_, accepted, rfl, cut.unique, by decide, named, rfl, ?_⟩
  rw [forall₂_holds_none_iff]
  decide

end Server.Request

end RpcWire
