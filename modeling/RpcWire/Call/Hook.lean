import RpcWire.Http.Request
import RpcWire.Http.Response

/-!
# Hooks

A hook looks at what goes out on a call and at what comes back, and may change
it. What it remembers during the call is its state `σ`. A request may be
rejected; what comes back may only be changed.

Hooks that share a state form a chain: what goes out passes them in order, up
to the first that rejects it, and what comes back passes them in reverse.

Main statements: steps that are appended are passed one after the other, on the
way out (`passOut_append`) and on the way back (`passBack_append`).
-/

namespace RpcWire

/-- What is done to a call with a single request and a single response. -/
structure UnaryHook (σ : Type) where
  request : σ → Http.Request → Except Failure Http.Request × σ
  response : σ → Http.Response → Http.Response × σ

/-- What is done to a stream: the request that opens it, each message out, each event back. -/
structure StreamHook (σ : Type) where
  request : σ → Http.Request → Except Failure Http.Request × σ
  message : σ → Bytes → Except Failure Bytes × σ
  event : σ → Event Bytes → Event Bytes × σ

/-! ## Passing several steps -/

/-- Passes the steps in order, up to the first that fails. -/
def passOut {σ α : Type} : List (σ → α → Except Failure α × σ) → σ → α → Except Failure α × σ
  | [], s, a => (.ok a, s)
  | f :: fs, s, a =>
    match f s a with
    | (.error e, s) => (.error e, s)
    | (.ok a, s) => passOut fs s a

/-- Passes the steps in reverse. -/
def passBack {σ α : Type} : List (σ → α → α × σ) → σ → α → α × σ
  | [], s, a => (a, s)
  | f :: fs, s, a =>
    let (a, s) := passBack fs s a
    f s a

theorem passOut_append {σ α : Type} (fs gs : List (σ → α → Except Failure α × σ)) (s : σ) (a : α) :
    passOut (fs ++ gs) s a =
      match passOut fs s a with
      | (.error e, s) => (.error e, s)
      | (.ok a, s) => passOut gs s a := by
  induction fs generalizing s a with
  | nil => rfl
  | cons f fs ih =>
    simp only [List.cons_append, passOut]
    split
    · rfl
    · exact ih _ _

theorem passOut_singleton {σ α : Type} (f : σ → α → Except Failure α × σ) (s : σ) (a : α) :
    passOut [f] s a = f s a := by
  unfold passOut
  split
  · next h => rw [h]
  · next h => rw [h]; rfl

theorem passBack_append {σ α : Type} (fs gs : List (σ → α → α × σ)) (s : σ) (a : α) :
    passBack (fs ++ gs) s a = passBack fs (passBack gs s a).2 (passBack gs s a).1 := by
  induction fs generalizing s a with
  | nil => rfl
  | cons f fs ih => simp only [List.cons_append, passBack, ih]

/-! ## Chains -/

namespace UnaryHook

variable {σ : Type}

def idle : UnaryHook σ := ⟨fun s r => (.ok r, s), fun s r => (r, s)⟩

def chain (hs : List (UnaryHook σ)) : UnaryHook σ :=
  ⟨passOut (hs.map request), passBack (hs.map response)⟩

/-- A hook with a state of its own beside another state. -/
def onFirst {τ : Type} (h : UnaryHook σ) : UnaryHook (σ × τ) where
  request s r := let (r, own) := h.request s.1 r; (r, own, s.2)
  response s r := let (r, own) := h.response s.1 r; (r, own, s.2)

@[inherit_doc onFirst]
def onSecond {τ : Type} (h : UnaryHook σ) : UnaryHook (τ × σ) where
  request s r := let (r, own) := h.request s.2 r; (r, s.1, own)
  response s r := let (r, own) := h.response s.2 r; (r, s.1, own)

end UnaryHook

namespace StreamHook

variable {σ : Type}

def idle : StreamHook σ := ⟨fun s r => (.ok r, s), fun s b => (.ok b, s), fun s e => (e, s)⟩

def chain (hs : List (StreamHook σ)) : StreamHook σ :=
  ⟨passOut (hs.map request), passOut (hs.map message), passBack (hs.map event)⟩

/-- A hook with a state of its own beside another state. -/
def onFirst {τ : Type} (h : StreamHook σ) : StreamHook (σ × τ) where
  request s r := let (r, own) := h.request s.1 r; (r, own, s.2)
  message s b := let (b, own) := h.message s.1 b; (b, own, s.2)
  event s e := let (e, own) := h.event s.1 e; (e, own, s.2)

@[inherit_doc onFirst]
def onSecond {τ : Type} (h : StreamHook σ) : StreamHook (τ × σ) where
  request s r := let (r, own) := h.request s.2 r; (r, s.1, own)
  message s b := let (b, own) := h.message s.2 b; (b, s.1, own)
  event s e := let (e, own) := h.event s.2 e; (e, s.1, own)

end StreamHook

end RpcWire
