import Mathlib.Data.List.Forall2
import RpcWire.Client.MediaType
import RpcWire.Proofs.Frame.Split

/-!
# Packed messages are opened

A message is packed into a frame that holds it as it is or compressed
(`Sealed`). Whoever has a pool that undoes the compression takes the message
out of the frame again (`takeFrame_of_sealed`).
-/

namespace RpcWire

namespace Envelope

/-! ## Packing -/

/-- The flags and the payload of a frame into which a message is packed. -/
def Sealed (t : Option Threshold) (m : Bytes) (f : UInt8 × Bytes) : Prop :=
  f = (0, m) ∨ f.1 = compressedFlag ∧ ∃ th ∈ t, th.pool.compress m = .ok f.2

/-- Whether the lengths of a message and of its compressed form fit a frame. -/
def FitsPacked (t : Option Threshold) (m : Bytes) : Prop :=
  Fits m ∧ ∀ th ∈ t, ∀ packed, th.pool.compress m = .ok packed → Fits packed

theorem Sealed.fits {t : Option Threshold} {m : Bytes} {f : UInt8 × Bytes} (h : Sealed t m f)
    (fits : FitsPacked t m) : Fits f.2 := by
  rcases h with rfl | ⟨-, th, hth, hpacked⟩
  · exact fits.1
  · exact fits.2 th hth _ hpacked

/-- Every frame has a message packed into it. -/
theorem exists_of_sealed {t : Option Threshold} {messages : List Bytes} {fs : List (UInt8 × Bytes)}
    (h : List.Forall₂ (Sealed t) messages fs) : ∀ f ∈ fs, ∃ m ∈ messages, Sealed t m f := by
  induction h with
  | nil => exact fun f hf => nomatch hf
  | cons hsealed _ ih =>
    intro f hf
    rcases List.mem_cons.mp hf with rfl | hf
    · exact ⟨_, List.mem_cons_self, hsealed⟩
    · obtain ⟨m, hm, hsealed⟩ := ih f hf
      exact ⟨m, List.mem_cons_of_mem _ hm, hsealed⟩

theorem fits_of_sealed {t : Option Threshold} {messages : List Bytes} {fs : List (UInt8 × Bytes)}
    (h : List.Forall₂ (Sealed t) messages fs) (fits : ∀ m ∈ messages, FitsPacked t m) :
    ∀ f ∈ fs, Fits f.2 := by
  intro f hf
  obtain ⟨m, hm, hsealed⟩ := exists_of_sealed h f hf
  exact hsealed.fits (fits m hm)

theorem Sealed.flags {t : Option Threshold} {m : Bytes} {f : UInt8 × Bytes} (h : Sealed t m f) :
    f.1 = 0 ∨ f.1 = compressedFlag := by
  rcases h with rfl | ⟨hflags, -⟩
  · exact .inl rfl
  · exact .inr hflags

/-- A pool is selected if the threshold has it and the message has the size. -/
theorem select?_eq_some_iff {t : Option Threshold} {m : Bytes} {pool : Pool} :
    (t.bind fun t => t.select? m) = some pool ↔
      ∃ th ∈ t, th.minBytes ≤ m.length ∧ th.pool = pool := by
  rw [Option.bind_eq_some_iff]
  refine exists_congr fun th => and_congr_right fun _ => ?_
  rw [Threshold.select?, Threshold.admits, Option.ite_none_right_eq_some, decide_eq_true_eq,
    Option.some.injEq]

/-- A message is packed as it is unless a pool is selected for it. -/
theorem framed_of_pack {t : Option Threshold} {m bytes : Bytes} (h : pack m t = .ok bytes) :
    ∃ f : UInt8 × Bytes, bytes = frame f.1 f.2 ∧
      (f = (0, m) ∧ (t.bind fun t => t.select? m) = none ∨
        f.1 = compressedFlag ∧ ∃ pool,
          (t.bind fun t => t.select? m) = some pool ∧ pool.compress m = .ok f.2) := by
  unfold pack at h
  split at h
  · next pool hpool =>
    split at h
    · next packed hpacked =>
      cases h
      exact ⟨(compressedFlag, packed), rfl, .inr ⟨rfl, pool, hpool, hpacked⟩⟩
    · cases h
  · next none =>
    cases h
    exact ⟨(0, m), rfl, .inl ⟨rfl, none⟩⟩

/-- Packing makes one frame around the message, compressed or not. -/
theorem sealed_of_pack {t : Option Threshold} {m bytes : Bytes} (h : pack m t = .ok bytes) :
    ∃ f : UInt8 × Bytes, bytes = frame f.1 f.2 ∧ Sealed t m f := by
  obtain ⟨f, made, ⟨plain, -⟩ | ⟨flags, pool, hpool, hpacked⟩⟩ := framed_of_pack h
  · exact ⟨f, made, .inl plain⟩
  · obtain ⟨th, hth, -, rfl⟩ := select?_eq_some_iff.mp hpool
    exact ⟨f, made, .inr ⟨flags, th, hth, hpacked⟩⟩

theorem pack_ok {t : Option Threshold} {m : Bytes}
    (total : ∀ th ∈ t, ∃ packed, th.pool.compress m = .ok packed) :
    ∃ f : UInt8 × Bytes, pack m t = .ok (frame f.1 f.2) ∧ Sealed t m f := by
  cases hs : t.bind fun t => t.select? m with
  | none => exact ⟨(0, m), by rw [pack, hs], .inl rfl⟩
  | some pool =>
    obtain ⟨th, hth, -, rfl⟩ := select?_eq_some_iff.mp hs
    obtain ⟨packed, hpacked⟩ := total th hth
    refine ⟨(compressedFlag, packed), ?_, .inr ⟨rfl, th, hth, hpacked⟩⟩
    rw [pack, hs]
    simp only [hpacked]

/-! ## Opening -/

/-- The pool at the one end gives back what the threshold at the other end has compressed. -/
def Undoes (pool : Option Pool) (t : Option Threshold) : Prop :=
  ∀ th ∈ t, ∃ q, pool = some q ∧
    ∀ payload packed, th.pool.compress payload = .ok packed → q.decompress packed = .ok payload

/-- Unpacking undoes packing if the pool at the other end undoes the compression. -/
theorem unpack_of_sealed {pool : Option Pool} {t : Option Threshold} (undoes : Undoes pool t)
    {m : Bytes} {f : UInt8 × Bytes} (h : Sealed t m f) (fits : FitsPacked t m) (rest : Bytes) :
    unpack (frame f.1 f.2 ++ rest) pool = (rest, .ok ⟨f.1, m⟩) ∧
      (f.1 = compressedFlag → pool.isNone = false) := by
  have hfits := h.fits fits
  rcases h with rfl | ⟨hflags, th, hth, hpacked⟩
  · have plain : (0 : UInt8) &&& compressedFlag = 0 := by decide
    have unflagged : ¬ (0 : UInt8) = compressedFlag := by decide
    refine ⟨unpack_frame hfits (.inl plain) rest, ?_⟩
    intro flagged
    exact absurd flagged unflagged
  · obtain ⟨q, rfl, back⟩ := undoes th hth
    rw [hflags]
    exact ⟨unpack_compressed hfits (back m f.2 hpacked) rest, fun _ => rfl⟩

end Envelope

open Envelope

/-- A message is taken out of the frame it was packed into. -/
theorem Protocol.takeFrame_of_sealed (p : Protocol) {pool : Option Pool} {t : Option Threshold}
    (undoes : Undoes pool t) {m : Bytes} {f : UInt8 × Bytes} (h : Sealed t m f)
    (fits : FitsPacked t m) (rest : Bytes) :
    p.takeFrame (frame f.1 f.2 ++ rest) pool = .ok (rest, ⟨f.1, m⟩) := by
  obtain ⟨read, known⟩ := unpack_of_sealed undoes h fits rest
  unfold takeFrame
  rw [read]
  have allowed : ¬ ((⟨f.1, m⟩ : Envelope).isCompressed = true ∧ pool.isNone = true) := by
    rintro ⟨compressed, absent⟩
    -- marked as compressed, it was: and then there is a pool that undoes it
    rcases h.flags with flags | flags
    · rw [flags] at compressed
      exact absurd compressed (by simp [isCompressed, has, compressedFlag])
    · rw [known flags] at absent
      cases absent
  simp only [checkFrame, if_neg allowed]
  rfl

/-- A frame that is marked by a flag other than the lowest one is taken as it is. -/
theorem Protocol.takeFrame_frame (p : Protocol) {payload : Bytes} (fits : Fits payload)
    {flags : UInt8} (plain : flags &&& compressedFlag = 0) (pool : Option Pool) :
    p.takeFrame (frame flags payload) pool = .ok ([], ⟨flags, payload⟩) := by
  have read : unpack (frame flags payload ++ []) pool = ([], .ok ⟨flags, payload⟩) :=
    unpack_frame fits (.inl plain) []
  rw [List.append_nil] at read
  unfold takeFrame
  rw [read]
  have allowed : ¬ ((⟨flags, payload⟩ : Envelope).isCompressed = true ∧ pool.isNone = true) := by
    rintro ⟨compressed, -⟩
    rw [isCompressed, has, plain] at compressed
    exact absurd compressed (by decide)
  simp only [checkFrame, if_neg allowed]
  rfl

end RpcWire
