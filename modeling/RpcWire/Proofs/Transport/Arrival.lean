import RpcWire.Proofs.Server.Messages
import RpcWire.Transport.Exchange

/-!
# A body in chunks is the body as a whole

A client cuts a body into frames while it arrives; a server takes the frames off
a body that is all there. Both see the same frames, and find fault with the same
bodies (`frames_of_chunks`): those that do not end where a frame ends. A stream
over a network shows these frames, between its headers and one completion.
-/

namespace RpcWire

open Envelope (IsWhole Splitter headerSize)

/-! ## Taking frames off a whole body -/

namespace Server.Request

/-- Without a pool, a body can be read exactly if nothing is left of it after the frames, and gives
the octets behind their headers. -/
theorem payloads_cuts {data rest : Bytes} {frames : List Bytes}
    (cut : Envelope.Cuts data frames rest) :
    ((∃ messages, payloads none data = .ok messages) ↔ rest = []) ∧
      ∀ messages, payloads none data = .ok messages →
        messages = frames.map (·.drop headerSize) := by
  simp only [payloads_eq_ok_iff_of_cuts cut, forall₂_yields_none_iff]
  refine ⟨?_, fun messages read => read.2⟩
  exact ⟨fun ⟨_, empty, _⟩ => empty, fun empty => ⟨_, empty, rfl⟩⟩

end Server.Request

/-! ## A body in chunks -/

/-- A stream of chunks ends well exactly if no part of a frame is left over. -/
theorem Envelope.Splitter.finish_eq_ok_iff {s : Splitter} : s.finish = .ok () ↔ s.buffer = [] := by
  unfold finish
  split
  · next empty => exact ⟨fun _ => empty, fun _ => rfl⟩
  · next left => exact ⟨fun h => (nomatch h), fun h => absurd h left⟩

/-- A stream ends without a cause exactly if nothing was broken off and nothing is left over. -/
theorem Transport.Arrival.ending_eq (s : Splitter) (trailers : Option Metadata) :
    ∃ cause last, ending s trailers = .complete cause last ∧
      (cause = none ↔ trailers = some last ∧ s.finish = .ok ()) := by
  cases trailers with
  | none => exact ⟨_, _, rfl, fun h => (nomatch h), fun h => (nomatch h.1)⟩
  | some trailers =>
    unfold ending
    cases hs : s.finish with
    | ok _ => exact ⟨none, trailers, rfl, fun _ => ⟨rfl, rfl⟩, fun _ => rfl⟩
    | error cause => exact ⟨_, _, rfl, fun h => (nomatch h), fun h => (nomatch h.2)⟩

/-- However a body is cut into chunks, the frames handed out are the whole frames at its front, no
one missing, and what is left in the buffer follows them. Nothing is left exactly if the body is
made of whole frames; exactly then a server reads the body, and the payloads are those of the same
frames. A stream over a network shows its headers, one message for each of these frames, and one
completion, which has no cause exactly if the body was not broken off and nothing is left of it. -/
theorem frames_of_chunks (chunks : List Bytes) :
    let (frames, last) := Splitter.fresh.pushAll chunks
    (∀ f ∈ frames, Envelope.wholeLength? f = some f.length) ∧
    frames.flatten ++ last.buffer = chunks.flatten ∧
    (∀ (others : List Bytes) (more : Bytes),
      (∀ f ∈ others, Envelope.wholeLength? f = some f.length) →
        others.flatten ++ more = chunks.flatten → others <+: frames) ∧
    (last.finish = .ok () ↔ ∃ others : List Bytes,
      (∀ f ∈ others, Envelope.wholeLength? f = some f.length) ∧ others.flatten = chunks.flatten) ∧
    ((∃ messages, Server.Request.payloads none chunks.flatten = .ok messages) ↔
      last.finish = .ok ()) ∧
    (∀ messages, Server.Request.payloads none chunks.flatten = .ok messages →
      messages = frames.map (·.drop headerSize)) ∧
    ∀ (headers : Metadata) (trailers : Option Metadata), ∃ cause end?,
      (Transport.Arrival.response 200 headers chunks trailers).events =
        .headers headers :: (frames.map .message ++ [.complete cause end?]) ∧
      (cause = none ↔ trailers = some end? ∧ last.finish = .ok ()) := by
  have cut := Envelope.cuts_splitWhole chunks.flatten
  have pushed := Splitter.pushAll_fresh chunks
  obtain ⟨readable, payloads⟩ := Server.Request.payloads_cuts cut
  rw [pushed]
  simp only [Splitter.finish_eq_ok_iff]
  refine ⟨cut.whole, cut.joined, ?_, cut.rest_eq_nil_iff, readable, payloads, ?_⟩
  · intro others more whole joined
    exact cut.maximal whole joined
  · intro headers trailers
    obtain ⟨cause, end?, ends, clean⟩ :=
      Transport.Arrival.ending_eq ⟨(Envelope.splitWhole chunks.flatten).2⟩ trailers
    refine ⟨cause, end?, ?_, ?_⟩
    · unfold Transport.Arrival.events
      simp only [pushed, ends]
      rfl
    · rw [clean, Splitter.finish_eq_ok_iff]

/-- Two frames, the second without a payload, whose headers are cut inside their lengths. -/
theorem frames_of_chunks_octets :
    let chunks : List Bytes := [[0, 0, 0], [], [0, 1, 65, 2, 0], [0, 0, 0]]
    Splitter.fresh.pushAll chunks = ([[0, 0, 0, 0, 1, 65], [2, 0, 0, 0, 0]], ⟨[]⟩) ∧
      Server.Request.payloads none chunks.flatten = .ok [[65], []] := by
  intro chunks
  have pushed : Splitter.fresh.pushAll chunks =
      ([[0, 0, 0, 0, 1, 65], [2, 0, 0, 0, 0]], ⟨[]⟩) := by
    have whole : ∀ f ∈ [[0, 0, 0, 0, 1, 65], [2, 0, 0, 0, 0]], IsWhole f := by decide
    have cut := Envelope.splitWhole_wholes whole []
    rw [Envelope.splitWhole_nil] at cut
    have joined : chunks.flatten = [[0, 0, 0, 0, 1, 65], [2, 0, 0, 0, 0]].flatten ++ [] := rfl
    rw [Splitter.pushAll_fresh, joined, cut]
    rfl
  have all := frames_of_chunks chunks
  rw [pushed] at all
  obtain ⟨-, -, -, -, readable, payloads, -⟩ := all
  obtain ⟨messages, read⟩ := readable.mpr rfl
  refine ⟨pushed, ?_⟩
  rw [read, payloads messages read]
  rfl

end RpcWire
