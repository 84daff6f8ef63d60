import RpcWire.Client.MediaType
import RpcWire.Proofs.Frame.Whole

/-!
# What a frame holds

A whole frame holds its payload or, if it is marked as compressed, what a pool
makes of the payload (`Holds`). A client takes this out of a frame and nothing
else (`takeFrame_of_carries`, `takeFrame_of_unreadable`). Unpacking alone lets
one more thing pass: without a pool, a payload that is marked comes out as it
is (`opened_eq_ok_iff`).
-/

namespace RpcWire

namespace Envelope

/-! ## Marks -/

/-- The flags at the front of a frame. -/
def flagsOf (f : Bytes) : UInt8 := f.headD 0

/-- A frame is marked as compressed. -/
def IsMarked (f : Bytes) : Prop := flagsOf f &&& compressedFlag ≠ 0

instance (f : Bytes) : Decidable (IsMarked f) := inferInstanceAs (Decidable (_ ≠ _))

theorem flagsOf_of_header? {data : Bytes} {flags : UInt8} {length : Nat}
    (h : header? data = .ok (flags, length)) : flagsOf data = flags := by
  unfold header? at h
  split at h
  · cases h
    rfl
  · cases h

theorem IsWhole.unpack_append {f : Bytes} (h : IsWhole f) (more : Bytes) (pool : Option Pool) :
    unpack (f ++ more) pool = (more, opened pool (flagsOf f) (f.drop headerSize)) := by
  obtain ⟨flags, header⟩ := h.header
  rw [flagsOf_of_header? header]
  exact unpack_whole h header more pool

/-- One bit is either all of it or nothing. -/
theorem isCompressed_iff {e : Envelope} :
    e.isCompressed = true ↔ e.flags &&& compressedFlag ≠ 0 := by
  have bit : (e.flags &&& compressedFlag).toNat = e.flags.toNat % 2 := by
    rw [UInt8.toNat_and]
    exact Nat.and_one_is_mod _
  rw [isCompressed, has, beq_iff_eq, ne_eq, ← UInt8.toNat_inj, ← UInt8.toNat_inj, bit]
  show e.flags.toNat % 2 = 1 ↔ ¬ e.flags.toNat % 2 = 0
  omega

/-! ## Contents -/

/-- A frame holds its payload or, if it is marked as compressed, what a pool makes of the payload.
-/
def Holds (pool : Option Pool) (f message : Bytes) : Prop :=
  if IsMarked f then ∃ p ∈ pool, p.decompress (f.drop headerSize) = .ok message
  else message = f.drop headerSize

/-- Octets that are one frame, and the message it holds. -/
structure Carries (pool : Option Pool) (f message : Bytes) : Prop where
  whole : IsWhole f
  holds : Holds pool f message

/-- A frame without the mark holds the bytes after its header. -/
theorem holds_iff_of_unmarked {pool : Option Pool} {f message : Bytes} (h : ¬ IsMarked f) :
    Holds pool f message ↔ message = f.drop headerSize := by
  rw [Holds, if_neg h]

/-- A marked frame holds what the pool makes of them, and nothing without a pool. -/
theorem holds_iff_of_marked {pool : Option Pool} {f message : Bytes} (h : IsMarked f) :
    Holds pool f message ↔ ∃ p ∈ pool, p.decompress (f.drop headerSize) = .ok message := by
  rw [Holds, if_pos h]

theorem holds_none_iff {f message : Bytes} :
    Holds none f message ↔ ¬ IsMarked f ∧ message = f.drop headerSize := by
  by_cases marked : IsMarked f
  · rw [holds_iff_of_marked marked]
    simp [marked]
  · rw [holds_iff_of_unmarked marked]
    simp [marked]

/-- A payload that is written as it is, under flags that do not mark it as compressed. -/
theorem carries_frame {payload : Bytes} (fits : Fits payload) {flags : UInt8}
    (plain : flags &&& compressedFlag = 0) (pool : Option Pool) :
    Carries pool (frame flags payload) payload where
  whole := isWhole_frame fits flags
  holds := by
    have unmarked : ¬ IsMarked (frame flags payload) := not_not_intro plain
    exact (holds_iff_of_unmarked unmarked).mpr rfl

/-- No frame that holds a message stands in front of a body. -/
def Unreadable (pool : Option Pool) (body : Bytes) : Prop :=
  ∀ f more message, f ++ more = body → ¬ Carries pool f message

/-- A body either begins with a frame that carries a message or cannot be read at all. -/
theorem unreadable_or_carries (pool : Option Pool) (body : Bytes) :
    Unreadable pool body ∨ ∃ f message more, Carries pool f message ∧ f ++ more = body := by
  refine Classical.or_iff_not_imp_left.mpr ?_
  intro readable
  simp only [Unreadable, Classical.not_forall, Classical.not_not] at readable
  obtain ⟨f, more, message, joined, carries⟩ := readable
  exact ⟨f, message, more, carries, joined⟩

/-! ## Unpacking -/

/-- A frame yields what it holds or, without a pool, its payload as it is. -/
def Yields (pool : Option Pool) (f message : Bytes) : Prop :=
  Holds pool f message ∨ pool = none ∧ message = f.drop headerSize

/-- A frame is marked as compressed and the pool can make nothing of its payload. -/
def Corrupt (pool : Option Pool) (f : Bytes) : Prop :=
  IsMarked f ∧ ∃ p ∈ pool, ∃ reason, p.decompress (f.drop headerSize) = .error reason

theorem yields_none_iff {f message : Bytes} :
    Yields none f message ↔ message = f.drop headerSize := by
  unfold Yields
  rw [holds_none_iff]
  constructor
  · rintro (⟨-, raw⟩ | ⟨-, raw⟩) <;> exact raw
  · intro raw
    exact .inr ⟨rfl, raw⟩

theorem yields_some_iff {p : Pool} {f message : Bytes} :
    Yields (some p) f message ↔ Holds (some p) f message := by
  simp [Yields]

theorem opened_eq_ok_iff {pool : Option Pool} {f : Bytes} {e : Envelope} :
    opened pool (flagsOf f) (f.drop headerSize) = .ok e ↔
      e.flags = flagsOf f ∧ Yields pool f e.payload := by
  obtain ⟨flags, payload⟩ := e
  cases pool with
  | none =>
    rw [yields_none_iff]
    simp [opened, eq_comm]
  | some p =>
    rw [yields_some_iff]
    simp only [opened]
    by_cases marked : IsMarked f
    · have flagged : flagsOf f &&& compressedFlag ≠ 0 := marked
      rw [holds_iff_of_marked marked, if_pos flagged]
      simp only [Option.mem_def, Option.some.injEq, exists_eq_left']
      cases p.decompress (f.drop headerSize) with
      | error reason => simp
      | ok plain => simp [eq_comm]
    · have unmarked : ¬ flagsOf f &&& compressedFlag ≠ 0 := marked
      rw [holds_iff_of_unmarked marked, if_neg unmarked]
      simp [eq_comm]

/-- Opening a frame fails exactly if its payload is corrupt for the pool. -/
theorem opened_eq_error_iff {pool : Option Pool} {f : Bytes} :
    (∃ fault, opened pool (flagsOf f) (f.drop headerSize) = .error fault) ↔ Corrupt pool f := by
  cases pool with
  | none => simp [opened, Corrupt]
  | some p =>
    by_cases marked : IsMarked f
    · have flagged : flagsOf f &&& compressedFlag ≠ 0 := marked
      simp only [opened, Corrupt, if_pos flagged, marked, true_and, Option.mem_def,
        Option.some.injEq, exists_eq_left']
      cases p.decompress (f.drop headerSize) <;> simp
    · have unmarked : ¬ flagsOf f &&& compressedFlag ≠ 0 := marked
      simp [opened, Corrupt, unmarked, marked]

/-- What is unpacked from a body is a frame in front of it, with what it yields. -/
theorem yields_of_unpack {pool : Option Pool} {body rest : Bytes} {e : Envelope}
    (nonempty : body ≠ []) (h : unpack body pool = (rest, .ok e)) :
    ∃ f, IsWhole f ∧ f ++ rest = body ∧ e.flags = flagsOf f ∧ Yields pool f e.payload := by
  obtain ⟨f, whole, joined, alone⟩ := whole_of_unpack nonempty h
  have read := whole.unpack_append [] pool
  rw [List.append_nil, alone] at read
  obtain ⟨flags, yields⟩ := opened_eq_ok_iff.mp (Prod.mk.inj read).2.symm
  exact ⟨f, whole, joined, flags, yields⟩

end Envelope

/-! ## What a client takes -/

open Envelope (Carries IsMarked Unreadable flagsOf headerSize)

namespace Protocol

variable {pool : Option Pool} {f message : Bytes}

theorem checkFrame_eq_ok_iff {p : Protocol} {e : Envelope} :
    p.checkFrame e pool = .ok () ↔ (e.isCompressed = true → pool ≠ none) := by
  unfold checkFrame
  by_cases refused : e.isCompressed = true ∧ pool.isNone = true
  · rw [if_pos refused]
    have none : pool = none := Option.isNone_iff_eq_none.mp refused.2
    simp [refused.1, none]
  · rw [if_neg refused]
    simpa using refused

theorem takeFrame_of_carries (p : Protocol) (h : Carries pool f message) (more : Bytes) :
    p.takeFrame (f ++ more) pool = .ok (more, ⟨flagsOf f, message⟩) := by
  have read : Envelope.opened pool (flagsOf f) (f.drop headerSize) =
      .ok ⟨flagsOf f, message⟩ := Envelope.opened_eq_ok_iff.mpr ⟨rfl, .inl h.holds⟩
  have checked : p.checkFrame ⟨flagsOf f, message⟩ pool = .ok () := by
    rw [checkFrame_eq_ok_iff, Envelope.isCompressed_iff]
    intro marked
    obtain ⟨q, found, -⟩ := (Envelope.holds_iff_of_marked marked).mp h.holds
    rw [found]
    exact Option.some_ne_none q
  unfold takeFrame
  rw [h.whole.unpack_append, read]
  simp only [checked]
  rfl

theorem takeFrame_of_unreadable (p : Protocol) {body : Bytes} (nonempty : body ≠ [])
    (h : Unreadable pool body) :
    ∃ cause, p.takeFrame body pool = .error cause ∧ cause.code = .internal := by
  unfold takeFrame
  cases unpacked : Envelope.unpack body pool with
  | mk rest read =>
    cases read with
    | error fault => exact ⟨_, rfl, rfl⟩
    | ok e =>
      obtain ⟨f, whole, joined, flags, held | ⟨none, raw⟩⟩ :=
        Envelope.yields_of_unpack nonempty unpacked
      · exact absurd ⟨whole, held⟩ (h f rest e.payload joined)
      · -- a payload that came out as it is and is not held was marked
        have marked : IsMarked f := by
          refine Decidable.byContradiction ?_
          intro plain
          exact h f rest _ joined ⟨whole, (Envelope.holds_iff_of_unmarked plain).mpr raw⟩
        have refused : e.isCompressed = true ∧ pool.isNone = true := by
          rw [Envelope.isCompressed_iff, flags, none]
          exact ⟨marked, rfl⟩
        simp only [checkFrame, if_pos refused]
        exact ⟨_, rfl, rfl⟩

/-- What a client takes off a body is a frame in front of it, with the message it holds. -/
theorem takeFrame_eq_ok_iff_carries {p : Protocol} {body rest : Bytes} {e : Envelope}
    (nonempty : body ≠ []) :
    p.takeFrame body pool = .ok (rest, e) ↔
      ∃ f, Carries pool f e.payload ∧ e.flags = flagsOf f ∧ f ++ rest = body := by
  constructor
  · intro taken
    rcases Envelope.unreadable_or_carries pool body with
      unreadable | ⟨f, message, more, carries, rfl⟩
    · obtain ⟨cause, refused, -⟩ := p.takeFrame_of_unreadable nonempty unreadable
      rw [refused] at taken
      cases taken
    · rw [p.takeFrame_of_carries carries] at taken
      cases taken
      exact ⟨f, carries, rfl, rfl⟩
  · rintro ⟨f, carries, flags, rfl⟩
    rw [p.takeFrame_of_carries carries, ← flags]

end Protocol

end RpcWire
