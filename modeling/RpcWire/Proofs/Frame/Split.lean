import Mathlib.Algebra.Order.Ring.Int
import RpcWire.Frame.Splitter

/-!
# Frames written, cut and read

A frame in front of other octets is cut off whole and read back, as long as its
length fits the four octets that hold it. How a body is cut into chunks does
not matter to the frames that a splitter hands out (`pushAll_flatten`).
-/

namespace RpcWire.Envelope

/-! ## One frame -/

/-- Whether the length of a payload fits the four octets that hold it. -/
def Fits (payload : Bytes) : Prop := payload.length < 2 ^ 32

/-- The length that the four octets say: of one that does not fit, the low 32 bits. -/
def declared (payload : Bytes) : Nat := payload.length % 2 ^ 32

theorem declared_le (payload : Bytes) : declared payload ≤ payload.length := Nat.mod_le _ _

theorem declared_eq_length_iff {payload : Bytes} :
    declared payload = payload.length ↔ Fits payload :=
  Nat.mod_eq_iff_lt (by decide)

/-- The header of a frame tells its length modulo two to the thirty-two, also if it is larger. -/
theorem header?_frame_mod (flags : UInt8) (payload rest : Bytes) :
    header? (frame flags payload ++ rest) = .ok (flags, declared payload) := by
  show Except.ok (flags, Bytes.ofWord32 _ _ _ _) = _
  rw [Bytes.ofWord32_word32]
  rfl

theorem header?_frame {payload : Bytes} (h : Fits payload) (flags : UInt8) (rest : Bytes) :
    header? (frame flags payload ++ rest) = .ok (flags, payload.length) := by
  rw [header?_frame_mod, declared_eq_length_iff.mpr h]

theorem length_frame (flags : UInt8) (payload : Bytes) :
    (frame flags payload).length = headerSize + payload.length := by
  simp only [frame, List.length_cons, List.length_append, Bytes.length_word32, headerSize]
  omega

theorem frame_ne_nil (flags : UInt8) (payload : Bytes) : frame flags payload ≠ [] := by
  simp [frame]

theorem wholeLength?_frame_mod (flags : UInt8) (payload rest : Bytes) :
    wholeLength? (frame flags payload ++ rest) = some (headerSize + declared payload) := by
  have some := declared_le payload
  unfold wholeLength?
  rw [header?_frame_mod]
  simp only [List.length_append, length_frame]
  rw [if_pos (by omega)]

theorem wholeLength?_frame {payload : Bytes} (h : Fits payload) (flags : UInt8) (rest : Bytes) :
    wholeLength? (frame flags payload ++ rest) = some (frame flags payload).length := by
  rw [wholeLength?_frame_mod, declared_eq_length_iff.mpr h, length_frame]

theorem drop_frame (flags : UInt8) (payload rest : Bytes) :
    (frame flags payload ++ rest).drop headerSize = payload ++ rest := rfl

theorem unpack_frame {payload : Bytes} (h : Fits payload) {flags : UInt8} {pool : Option Pool}
    (plain : flags &&& compressedFlag = 0 ∨ pool = none) (rest : Bytes) :
    unpack (frame flags payload ++ rest) pool = (rest, .ok ⟨flags, payload⟩) := by
  have nonempty : frame flags payload ++ rest ≠ [] := by simp [frame]
  unfold unpack
  rw [if_neg nonempty, header?_frame h]
  have enough : ¬ (frame flags payload ++ rest).length - headerSize < payload.length := by
    rw [List.length_append, length_frame]
    omega
  simp only [if_neg enough, drop_frame, List.take_left, List.drop_left]
  cases pool with
  | none => rfl
  | some pool =>
    rcases plain with plain | none
    · simp only [plain, ne_eq, not_true_eq_false, if_false]
    · cases none

theorem unpack_compressed {packed payload : Bytes} (h : Fits packed) {pool : Pool}
    (back : pool.decompress packed = .ok payload) (rest : Bytes) :
    unpack (frame compressedFlag packed ++ rest) (some pool) =
      (rest, .ok ⟨compressedFlag, payload⟩) := by
  have nonempty : frame compressedFlag packed ++ rest ≠ [] := by simp [frame]
  unfold unpack
  rw [if_neg nonempty, header?_frame h]
  have enough : ¬ (frame compressedFlag packed ++ rest).length - headerSize < packed.length := by
    rw [List.length_append, length_frame]
    omega
  simp only [if_neg enough, drop_frame, List.take_left, List.drop_left]
  -- the flag sends the payload through the pool
  rw [if_pos (by decide), back]

/-! ## Cutting -/

/-- A header is there as soon as there are enough octets for it. -/
theorem header?_of_le {data : Bytes} (h : headerSize ≤ data.length) :
    ∃ header, header? data = .ok header := by
  rcases data with _ | ⟨x, _ | ⟨a, _ | ⟨b, _ | ⟨c, _ | ⟨d, data⟩⟩⟩⟩⟩
  all_goals first
    | exact ⟨_, rfl⟩
    | simp [headerSize] at h

/-- The header does not see what is added behind it. -/
theorem header?_append {data : Bytes} {header : UInt8 × Nat} (h : header? data = .ok header)
    (more : Bytes) : header? (data ++ more) = .ok header := by
  have long := length_of_header?_ok h
  rw [← h]
  rcases data with _ | ⟨x, _ | ⟨a, _ | ⟨b, _ | ⟨c, _ | ⟨d, data⟩⟩⟩⟩⟩
  all_goals first
    | rfl
    | simp [headerSize] at long

/-- The length of the first frame is known once all of it is there. -/
theorem wholeLength?_append {data : Bytes} {length : Nat} (h : wholeLength? data = some length)
    (more : Bytes) : wholeLength? (data ++ more) = some length ∧ length ≤ data.length := by
  unfold wholeLength? at h ⊢
  cases hh : header? data with
  | error fault =>
    rw [hh] at h
    cases h
  | ok header =>
    obtain ⟨flags, size⟩ := header
    rw [hh] at h
    simp only at h
    split at h
    · next enough =>
      cases h
      rw [header?_append hh more]
      simp only [List.length_append]
      exact ⟨if_pos (by omega), enough⟩
    · cases h

theorem splitWhole_of_none {data : Bytes} (h : wholeLength? data = none) :
    splitWhole data = ([], data) := by
  rw [splitWhole]
  split
  · rfl
  · next found =>
    rw [h] at found
    cases found

theorem splitWhole_of_some {data : Bytes} {length : Nat} (h : wholeLength? data = some length) :
    splitWhole data = (data.take length :: (splitWhole (data.drop length)).1,
      (splitWhole (data.drop length)).2) := by
  conv => lhs; rw [splitWhole]
  split
  · next none =>
    rw [h] at none
    cases none
  · next found =>
    rw [h] at found
    cases found
    rfl

theorem splitWhole_frame {payload : Bytes} (h : Fits payload) (flags : UInt8) (rest : Bytes) :
    splitWhole (frame flags payload ++ rest) =
      (frame flags payload :: (splitWhole rest).1, (splitWhole rest).2) := by
  rw [splitWhole_of_some (wholeLength?_frame h flags rest), List.take_left, List.drop_left]

theorem splitWhole_nil : splitWhole [] = ([], []) := splitWhole_of_none rfl

/-- Frames put one behind another are found again, with nothing left over. -/
theorem splitWhole_frames {frames : List (UInt8 × Bytes)} (h : ∀ f ∈ frames, Fits f.2) :
    splitWhole (frames.map fun f => frame f.1 f.2).flatten =
      (frames.map fun f => frame f.1 f.2, []) := by
  induction frames with
  | nil => exact splitWhole_nil
  | cons f frames ih =>
    rw [List.map_cons, List.flatten_cons, splitWhole_frame (h f List.mem_cons_self),
      ih fun g hg => h g (List.mem_cons_of_mem _ hg)]

/-- Cutting some octets and then more is cutting them together. -/
theorem splitWhole_append (data more : Bytes) :
    splitWhole (data ++ more) =
      ((splitWhole data).1 ++ (splitWhole ((splitWhole data).2 ++ more)).1,
        (splitWhole ((splitWhole data).2 ++ more)).2) := by
  -- induction along the first cut: what is added stands behind the frame that was found
  fun_induction splitWhole data with
  | case1 data none => rw [List.nil_append]
  | case2 data length found frames rest hrest ih =>
    obtain ⟨whole, enough⟩ := wholeLength?_append found more
    rw [splitWhole_of_some whole, List.take_append_of_le_length enough,
      List.drop_append_of_le_length enough, ih, hrest]
    rfl

/-- What is left after cutting has no whole frame. -/
theorem splitWhole_rest (data : Bytes) :
    splitWhole (splitWhole data).2 = ([], (splitWhole data).2) := by
  fun_induction splitWhole data with
  | case1 data none => exact splitWhole_of_none none
  | case2 data length found frames rest hrest ih =>
    rw [hrest] at ih
    exact ih

/-! ## Chunks -/

namespace Splitter

/-- Whatever the chunks, the frames handed out are those of all octets together. -/
theorem pushAll_flatten (chunks : List Bytes) {s : Splitter}
    (h : splitWhole s.buffer = ([], s.buffer)) :
    s.pushAll chunks = ((splitWhole (s.buffer ++ chunks.flatten)).1,
      ⟨(splitWhole (s.buffer ++ chunks.flatten)).2⟩) := by
  induction chunks generalizing s with
  | nil =>
    rw [List.flatten_nil, List.append_nil, h]
    rfl
  | cons chunk chunks ih =>
    -- what one chunk leaves in the buffer has no whole frame, as the induction asks
    have next := ih (s := ⟨(splitWhole (s.buffer ++ chunk)).2⟩) (splitWhole_rest _)
    rw [List.flatten_cons, ← List.append_assoc, splitWhole_append (s.buffer ++ chunk)]
    simp only [pushAll, push]
    rw [next]

/-- Fed chunk by chunk, a splitter finds the frames of the whole: the cuts do not matter. -/
theorem pushAll_fresh (chunks : List Bytes) :
    fresh.pushAll chunks = ((splitWhole chunks.flatten).1, ⟨(splitWhole chunks.flatten).2⟩) :=
  pushAll_flatten chunks splitWhole_nil

theorem pushAll_frames {chunks : List Bytes} {fs : List (UInt8 × Bytes)}
    (body : chunks.flatten = (fs.map fun f => frame f.1 f.2).flatten) (fits : ∀ f ∈ fs, Fits f.2) :
    fresh.pushAll chunks = (fs.map fun f => frame f.1 f.2, ⟨[]⟩) := by
  rw [pushAll_fresh, body, splitWhole_frames fits]

end Splitter

end RpcWire.Envelope
