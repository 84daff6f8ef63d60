import RpcWire.Proofs.Frame.Split

/-!
# Whole frames

Octets that are one frame and nothing else (`IsWhole`) can be told from any
others without a look at what follows them. So the frames at the front of a body
are determined by the body:

* `splitWhole_wholes`: whole frames in front of other octets are all cut off;
* `cuts_splitWhole`, `Cuts.unique`: a body is cut in exactly one way into whole
  frames and a rest that does not begin with one;
* `unpack_whole`: unpacking takes off what cutting would take off, and reads the
  payload behind the header;
* `whole_of_unpack`: nothing else can be unpacked from a body that is not empty.
-/

namespace RpcWire.Envelope

/-! ## One frame -/

/-- Octets that are one frame and nothing else. -/
def IsWhole (f : Bytes) : Prop := wholeLength? f = some f.length

instance (f : Bytes) : Decidable (IsWhole f) := inferInstanceAs (Decidable (_ = _))

/-- A frame is whole once as many bytes are there as its header declares. -/
theorem wholeLength?_eq_some_iff {data : Bytes} {n : Nat} :
    wholeLength? data = some n ↔
      ∃ flags length, header? data = .ok (flags, length) ∧ headerSize + length = n ∧
        n ≤ data.length := by
  unfold wholeLength?
  constructor
  · intro h
    split at h
    · next flags length header =>
      split at h
      · next enough =>
        cases h
        exact ⟨flags, length, header, rfl, enough⟩
      · cases h
    · cases h
  · rintro ⟨flags, length, header, rfl, enough⟩
    rw [header]
    exact if_pos enough

namespace IsWhole

variable {f : Bytes}

/-- The header of a whole frame gives the length of what follows it. -/
theorem header (h : IsWhole f) : ∃ flags, header? f = .ok (flags, (f.drop headerSize).length) := by
  obtain ⟨flags, length, header, sum, -⟩ := wholeLength?_eq_some_iff.mp h
  refine ⟨flags, ?_⟩
  rw [header, List.length_drop, ← sum, Nat.add_sub_cancel_left]

theorem ne_nil (h : IsWhole f) : f ≠ [] := by
  rintro rfl
  cases h

/-- What follows a whole frame does not change where it ends. -/
theorem wholeLength?_append (h : IsWhole f) (more : Bytes) :
    wholeLength? (f ++ more) = some f.length :=
  (Envelope.wholeLength?_append h more).1

end IsWhole

theorem isWhole_take {data : Bytes} {n : Nat} (h : wholeLength? data = some n) :
    IsWhole (data.take n) := by
  obtain ⟨flags, length, header, sum, enough⟩ := wholeLength?_eq_some_iff.mp h
  have taken : (data.take n).length = n := List.length_take_of_le enough
  -- the frame holds its own header, which is that of the data
  have long : headerSize ≤ (data.take n).length := by omega
  have own : header? (data.take n) = .ok (flags, length) := by
    obtain ⟨own, found⟩ := header?_of_le long
    have behind := header?_append found (data.drop n)
    rw [List.take_append_drop, header] at behind
    rw [found, behind]
  exact wholeLength?_eq_some_iff.mpr ⟨flags, length, own, by omega, Nat.le_refl _⟩

theorem isWhole_frame {payload : Bytes} (h : Fits payload) (flags : UInt8) :
    IsWhole (frame flags payload) := by
  have whole := wholeLength?_frame h flags []
  rwa [List.append_nil] at whole

/-! ## Cutting -/

theorem splitWhole_wholes {frames : List Bytes} (whole : ∀ f ∈ frames, IsWhole f) (more : Bytes) :
    splitWhole (frames.flatten ++ more) = (frames ++ (splitWhole more).1, (splitWhole more).2) := by
  induction frames with
  | nil => rfl
  | cons f frames ih =>
    have first := whole f List.mem_cons_self
    have later := ih fun g hg => whole g (List.mem_cons_of_mem _ hg)
    rw [List.flatten_cons, List.append_assoc, splitWhole_of_some (first.wholeLength?_append _),
      List.take_left, List.drop_left, later]
    rfl

/-- Whole frames are determined by the octets that they make. -/
theorem wholes_injective {frames others : List Bytes} (whole : ∀ f ∈ frames, IsWhole f)
    (others_whole : ∀ f ∈ others, IsWhole f) (h : frames.flatten = others.flatten) :
    frames = others := by
  have cut := splitWhole_wholes whole []
  rw [h, splitWhole_wholes others_whole, splitWhole_nil, List.append_nil, List.append_nil] at cut
  exact (congrArg Prod.fst cut).symm

/-- A body as the whole frames at its front and a rest that does not begin with one. -/
structure Cuts (data : Bytes) (frames : List Bytes) (rest : Bytes) : Prop where
  whole : ∀ f ∈ frames, IsWhole f
  joined : frames.flatten ++ rest = data
  unfinished : wholeLength? rest = none

/-- Splitting cuts off whole frames until no whole frame is left. -/
theorem cuts_splitWhole (data : Bytes) : Cuts data (splitWhole data).1 (splitWhole data).2 := by
  fun_induction splitWhole data with
  | case1 data none =>
    refine ⟨?_, rfl, none⟩
    intro f hf
    cases hf
  | case2 data length found frames rest hrest ih =>
    rw [hrest] at ih
    obtain ⟨whole, joined, unfinished⟩ := ih
    refine ⟨?_, ?_, unfinished⟩
    · intro f hf
      rcases List.mem_cons.mp hf with rfl | hf
      · exact isWhole_take found
      · exact whole f hf
    · rw [List.flatten_cons, List.append_assoc, joined, List.take_append_drop]

namespace Cuts

variable {data rest : Bytes} {frames : List Bytes}

/-- There is only one such way to cut. -/
theorem unique (h : Cuts data frames rest) : splitWhole data = (frames, rest) := by
  rw [← h.joined, splitWhole_wholes h.whole, splitWhole_of_none h.unfinished, List.append_nil]

/-- No whole frame is missed: any whole frames at the front are the first ones of the cut. -/
theorem maximal (h : Cuts data frames rest) {others : List Bytes}
    (whole : ∀ f ∈ others, IsWhole f) {more : Bytes} (joined : others.flatten ++ more = data) :
    others <+: frames := by
  have cut := h.unique
  rw [← joined, splitWhole_wholes whole] at cut
  exact ⟨(splitWhole more).1, congrArg Prod.fst cut⟩

/-- Nothing is left exactly if the body is made of whole frames. -/
theorem rest_eq_nil_iff (h : Cuts data frames rest) :
    rest = [] ↔ ∃ others : List Bytes, (∀ f ∈ others, IsWhole f) ∧ others.flatten = data := by
  constructor
  · rintro rfl
    exact ⟨frames, h.whole, by rw [← h.joined, List.append_nil]⟩
  · rintro ⟨others, whole, joined⟩
    have cut := h.unique
    rw [← joined, ← List.append_nil others.flatten, splitWhole_wholes whole, splitWhole_nil] at cut
    exact (congrArg Prod.snd cut).symm

end Cuts

/-! ## Unpacking -/

/-- What a frame with some flags and a payload reads as. -/
def opened (pool : Option Pool) (flags : UInt8) (payload : Bytes) : Except FrameFault Envelope :=
  match pool with
  | none => .ok ⟨flags, payload⟩
  | some pool =>
    if flags &&& compressedFlag ≠ 0 then
      match pool.decompress payload with
      | .ok plain => .ok ⟨flags, plain⟩
      | .error reason => .error (.decompression reason)
    else .ok ⟨flags, payload⟩

theorem flags_of_opened {pool : Option Pool} {flags : UInt8} {payload : Bytes} {e : Envelope}
    (h : opened pool flags payload = .ok e) : e.flags = flags := by
  cases pool with
  | none =>
    cases h
    rfl
  | some pool =>
    unfold opened at h
    simp only at h
    split at h
    · split at h
      · cases h
        rfl
      · cases h
    · cases h
      rfl

theorem unpack_eq {data : Bytes} (nonempty : data ≠ []) {flags : UInt8} {length : Nat}
    (header : header? data = .ok (flags, length)) (pool : Option Pool) :
    unpack data pool =
      if data.length - headerSize < length then
        (data, .error (.shortBody length (data.length - headerSize)))
      else ((data.drop headerSize).drop length,
        opened pool flags ((data.drop headerSize).take length)) := by
  unfold unpack opened
  rw [if_neg nonempty, header]
  simp only
  split
  · rfl
  · cases pool with
    | none => rfl
    | some pool =>
      simp only
      split
      · cases pool.decompress ((data.drop headerSize).take length) <;> rfl
      · rfl

/-- Unpacking removes the frame and opens its payload; what follows it plays no part. -/
theorem unpack_whole {f : Bytes} (h : IsWhole f) {flags : UInt8} {length : Nat}
    (header : header? f = .ok (flags, length)) (more : Bytes) (pool : Option Pool) :
    unpack (f ++ more) pool = (more, opened pool flags (f.drop headerSize)) := by
  obtain ⟨own, same⟩ := h.header
  obtain ⟨rfl, rfl⟩ : flags = own ∧ length = (f.drop headerSize).length := by
    rw [header] at same
    cases same
    exact ⟨rfl, rfl⟩
  have nonempty : f ++ more ≠ [] := by simp [h.ne_nil]
  have long := length_of_header?_ok header
  have behind : (f ++ more).drop headerSize = f.drop headerSize ++ more :=
    List.drop_append_of_le_length long
  have enough : ¬ (f ++ more).length - headerSize < (f.drop headerSize).length := by
    simp only [List.length_append, List.length_drop]
    omega
  rw [unpack_eq nonempty (header?_append header more), if_neg enough, behind, List.take_left,
    List.drop_left]

/-- What is unpacked from a body that is not empty is a whole frame at its front. -/
theorem whole_of_unpack {data rest : Bytes} {pool : Option Pool} {e : Envelope}
    (nonempty : data ≠ []) (h : unpack data pool = (rest, .ok e)) :
    ∃ f, IsWhole f ∧ f ++ rest = data ∧ unpack f pool = ([], .ok e) := by
  cases header : header? data with
  | error fault =>
    unfold unpack at h
    rw [if_neg nonempty, header] at h
    cases h
  | ok found =>
    obtain ⟨flags, length⟩ := found
    rw [unpack_eq nonempty header] at h
    split at h
    · cases h
    · next enough =>
      have long := length_of_header?_ok header
      have found : wholeLength? data = some (headerSize + length) :=
        wholeLength?_eq_some_iff.mpr ⟨flags, length, header, rfl, by omega⟩
      have whole := isWhole_take found
      obtain ⟨own, same⟩ := whole.header
      have joined : data.take (headerSize + length) ++ data.drop (headerSize + length) = data :=
        List.take_append_drop _ _
      -- taking the frame alone or out of the data gives the same envelope
      have out := unpack_whole whole same (data.drop (headerSize + length)) pool
      have alone := unpack_whole whole same [] pool
      rw [joined, unpack_eq nonempty header, if_neg enough, h] at out
      obtain ⟨behind, read⟩ := Prod.mk.inj out
      rw [List.append_nil, ← read] at alone
      exact ⟨_, whole, by rw [behind, joined], alone⟩

end RpcWire.Envelope
