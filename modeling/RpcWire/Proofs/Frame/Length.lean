import RpcWire.Proofs.Frame.Parcel

/-!
# The length that a frame declares

Writing a frame does not look at how long the payload is. A length that does not
fit the four octets loses its high bits, and the reader takes what is left of it
for the length:

* `unpack_frame_mod`, `wholeLength?_frame_mod`: what is read off a frame, whether
  its payload fits or not;
* `taken_iff_fits`: a frame declares what follows its header, and is taken whole,
  exactly if the payload fits;
* `length_wraps`: the shortest payload that does not fit is taken for an empty
  one, and its octets for the frames that follow.
-/

namespace RpcWire.Envelope

/-! ## Reading -/

/-- Only the part of a payload that is declared is taken; the rest stays in the buffer, in front of
what follows the frame. -/
theorem unpack_frame_mod (flags : UInt8) (payload rest : Bytes) (pool : Option Pool) :
    unpack (frame flags payload ++ rest) pool =
      (payload.drop (declared payload) ++ rest,
        opened pool flags (payload.take (declared payload))) := by
  have nonempty : frame flags payload ++ rest ≠ [] := by simp [frame]
  have some := declared_le payload
  have enough : ¬ (frame flags payload ++ rest).length - headerSize < declared payload := by
    rw [List.length_append, length_frame]
    omega
  rw [unpack_eq nonempty (header?_frame_mod flags payload rest), if_neg enough, drop_frame,
    List.drop_append_of_le_length some, List.take_append_of_le_length some]

/-! ## Frames taken whole -/

section

variable {flags : UInt8} {payload : Bytes}

/-- The header tells the true length exactly if it fits into four bytes. -/
theorem declares_iff_fits :
    header? (frame flags payload) = .ok (flags, payload.length) ↔ Fits payload := by
  have header := header?_frame_mod flags payload []
  rw [List.append_nil] at header
  rw [header, Except.ok.injEq, Prod.mk.injEq, and_iff_right rfl]
  exact declared_eq_length_iff

theorem isWhole_frame_iff : IsWhole (frame flags payload) ↔ Fits payload := by
  have whole := wholeLength?_frame_mod flags payload []
  rw [List.append_nil] at whole
  rw [IsWhole, whole, length_frame, Option.some.injEq, Nat.add_left_cancel_iff,
    declared_eq_length_iff]

theorem unpack_frame_iff (pool : Option Pool) :
    unpack (frame flags payload) pool = ([], opened pool flags payload) ↔ Fits payload := by
  have taken := unpack_frame_mod flags payload [] pool
  rw [List.append_nil, List.append_nil] at taken
  rw [taken]
  constructor
  · intro whole
    -- nothing is left, so that the part that was declared is all of the payload
    have left := congrArg (fun r => r.1.length) whole
    simp only [List.length_drop, List.length_nil] at left
    have some := declared_le payload
    apply declared_eq_length_iff.mp
    omega
  · intro fits
    rw [declared_eq_length_iff.mpr fits, List.drop_length, List.take_length]

end

/-! ## Parcels -/

/-- What is written of a parcel: its flags, and its payload as it is or compressed. -/
def Parcel.Puts : Parcel → UInt8 → Bytes → Prop
  | packed payload threshold, flags, body => Sealed threshold payload (flags, body)
  | marked own payload, flags, body => flags = own ∧ body = payload

theorem Parcel.frame_of_write {p : Parcel} {f : Bytes} (written : p.write = .ok f) :
    ∃ flags body, p.Puts flags body ∧ f = frame flags body := by
  cases p with
  | packed payload threshold =>
    obtain ⟨⟨flags, body⟩, made, sealed⟩ := sealed_of_pack written
    exact ⟨flags, body, sealed, made⟩
  | marked flags payload =>
    cases written
    exact ⟨flags, payload, ⟨rfl, rfl⟩, rfl⟩

/-- Every frame that is written, packed or under flags of its own, has its payload behind the
header. It declares the length of the payload, is cut off whole and is unpacked whole exactly if the
payload fits; if not, what is cut off and unpacked, whatever follows, is as much as the low 32 bits
of the length say, and the rest is left as if it were the next frame. -/
theorem taken_iff_fits {p : Parcel} {f : Bytes} (written : p.write = .ok f) :
    ∃ flags body, p.Puts flags body ∧ f.drop headerSize = body ∧
      (header? f = .ok (flags, body.length) ↔ Fits body) ∧
      (wholeLength? f = some f.length ↔ Fits body) ∧
      (∀ pool, unpack f pool = ([], opened pool flags body) ↔ Fits body) ∧
      ∀ rest,
        header? (f ++ rest) = .ok (flags, body.length % 2 ^ 32) ∧
        wholeLength? (f ++ rest) = some (headerSize + body.length % 2 ^ 32) ∧
        ∀ pool, unpack (f ++ rest) pool =
          (body.drop (body.length % 2 ^ 32) ++ rest,
            opened pool flags (body.take (body.length % 2 ^ 32))) := by
  obtain ⟨flags, body, puts, rfl⟩ := Parcel.frame_of_write written
  refine ⟨flags, body, puts, rfl, declares_iff_fits, isWhole_frame_iff, unpack_frame_iff, ?_⟩
  intro rest
  exact ⟨header?_frame_mod flags body rest, wholeLength?_frame_mod flags body rest,
    unpack_frame_mod flags body rest⟩

theorem taken_iff_fits_packed :
    (Parcel.packed [1, 2, 3] (some ⟨2, .reversing "flip"⟩)).write = .ok [1, 0, 0, 0, 3, 3, 2, 1] ∧
    ∃ flags body, [1, 0, 0, 0, 3, 3, 2, 1].drop headerSize = body ∧
      header? [1, 0, 0, 0, 3, 3, 2, 1] = .ok (flags, body.length) ∧
      ∀ pool, unpack [1, 0, 0, 0, 3, 3, 2, 1] pool = ([], opened pool flags body) := by
  refine ⟨rfl, ?_⟩
  obtain ⟨flags, body, -, payload, declares, -, taken, -⟩ :=
    taken_iff_fits (p := .packed [1, 2, 3] (some ⟨2, .reversing "flip"⟩)) rfl
  have fits : Fits body := by
    rw [← payload, Fits]
    decide
  exact ⟨flags, body, payload, declares.mpr fits, fun pool => (taken pool).mpr fits⟩

/-- A payload of `2 ^ 32` octets is framed all the same, under the length zero: an empty frame is
read, and the payload is left in the buffer. -/
theorem length_wraps :
    pack (List.replicate (2 ^ 32) 0) none = .ok (frame 0 (List.replicate (2 ^ 32) 0)) ∧
    header? (frame 0 (List.replicate (2 ^ 32) 0)) = .ok (0, 0) ∧
    wholeLength? (frame 0 (List.replicate (2 ^ 32) 0)) = some headerSize ∧
    unpack (frame 0 (List.replicate (2 ^ 32) 0)) none =
      (List.replicate (2 ^ 32) 0, .ok ⟨0, []⟩) := by
  have length : (List.replicate (2 ^ 32) (0 : UInt8)).length = 2 ^ 32 := List.length_replicate
  generalize List.replicate (2 ^ 32) (0 : UInt8) = payload at length
  have none : declared payload = 0 := by rw [declared, length, Nat.mod_self]
  have header := header?_frame_mod 0 payload []
  have whole := wholeLength?_frame_mod 0 payload []
  have taken := unpack_frame_mod 0 payload [] .none
  rw [List.append_nil, none] at header whole taken
  rw [List.append_nil] at taken
  exact ⟨rfl, header, whole, taken⟩

end RpcWire.Envelope
