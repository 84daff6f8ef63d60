import Mathlib.Logic.Function.Basic
import RpcWire.Client.Hooks

/-!
# Chains of chains

How interceptors are nested into chains makes no difference: a `Nesting`, built
out of chains of two, chains of many and idle interceptors anywhere, is the flat
chain of its leaves (`Nesting.build_eq`). So it answers every sequence of calls as
the flat chain does.

What the flat chain does is said call by call, for interceptors of which each
remembers something of its own beside what all of them share. On the way out a
value passes them in order, up to the first that rejects it, and those behind it
are left as they were (`InOrder`); on the way back it passes them in reverse
(`InReverse`).
-/

namespace RpcWire

/-! ## Steps of steps -/

section

variable {σ α : Type}

/-- Grouping the functions that a request goes through changes nothing. -/
theorem passOut_flatten (fss : List (List (σ → α → Except Failure α × σ))) :
    passOut (fss.map passOut) = passOut fss.flatten := by
  funext s a
  induction fss generalizing s a with
  | nil => rfl
  | cons fs fss ih =>
    simp only [List.map_cons, List.flatten_cons, passOut_append, passOut, ih]

/-- The same holds on the way back, where the last one comes first. -/
theorem passBack_flatten (fss : List (List (σ → α → α × σ))) :
    passBack (fss.map passBack) = passBack fss.flatten := by
  funext s a
  induction fss generalizing s a with
  | nil => rfl
  | cons fs fss ih =>
    simp only [List.map_cons, List.flatten_cons, passBack_append, passBack, ih]

/-- A list of calls, each answered in the state that the one before has left. -/
def answerAll {κ β : Type} (answer : σ → κ → β × σ) : σ → List κ → List β × σ
  | s, [] => ([], s)
  | s, call :: calls =>
    let (first, s) := answer s call
    let (later, s) := answerAll answer s calls
    (first :: later, s)

end

/-! ## Hooks -/

namespace UnaryHook

variable {σ : Type}

theorem chain_singleton (h : UnaryHook σ) : chain [h] = h := by
  cases h with
  | mk request response =>
    show UnaryHook.mk (passOut [request]) (passBack [response]) = _
    congr 1
    funext s r
    exact passOut_singleton request s r

theorem chain_flatten (hss : List (List (UnaryHook σ))) :
    chain (hss.map chain) = chain hss.flatten := by
  simp only [chain, List.map_map, List.map_flatten, ← passOut_flatten, ← passBack_flatten,
    Function.comp_def]

/-- What a hook is asked in the course of a call. -/
inductive Call where
  | request (r : Http.Request)
  | response (r : Http.Response)

/-- What a hook answers. -/
inductive Answer where
  | request (r : Except Failure Http.Request)
  | response (r : Http.Response)

/-- One answer, and what is remembered after it. -/
def answer (h : UnaryHook σ) (s : σ) : Call → Answer × σ
  | .request r => let (r, s) := h.request s r; (.request r, s)
  | .response r => let (r, s) := h.response s r; (.response r, s)

/-- The answers to a sequence of calls. -/
def run (h : UnaryHook σ) : σ → List Call → List Answer × σ := answerAll h.answer

end UnaryHook

namespace StreamHook

variable {σ : Type}

theorem chain_singleton (h : StreamHook σ) : chain [h] = h := by
  cases h with
  | mk request message event =>
    show StreamHook.mk (passOut [request]) (passOut [message]) (passBack [event]) = _
    congr 1
    · funext s r
      exact passOut_singleton request s r
    · funext s body
      exact passOut_singleton message s body

theorem chain_flatten (hss : List (List (StreamHook σ))) :
    chain (hss.map chain) = chain hss.flatten := by
  simp only [chain, List.map_map, List.map_flatten, ← passOut_flatten, ← passBack_flatten,
    Function.comp_def]

@[inherit_doc UnaryHook.Call]
inductive Call where
  | request (r : Http.Request)
  | message (body : Bytes)
  | event (e : Event Bytes)

@[inherit_doc UnaryHook.Answer]
inductive Answer where
  | request (r : Except Failure Http.Request)
  | message (body : Except Failure Bytes)
  | event (e : Event Bytes)

@[inherit_doc UnaryHook.answer]
def answer (h : StreamHook σ) (s : σ) : Call → Answer × σ
  | .request r => let (r, s) := h.request s r; (.request r, s)
  | .message body => let (body, s) := h.message s body; (.message body, s)
  | .event e => let (e, s) := h.event s e; (.event e, s)

@[inherit_doc UnaryHook.run]
def run (h : StreamHook σ) : σ → List Call → List Answer × σ := answerAll h.answer

end StreamHook

/-! ## Nestings -/

namespace Interceptor

variable {σ : Type}

/-- Interceptors one after another. -/
def all (is : List (Interceptor σ)) : Interceptor σ :=
  ⟨.chain (is.map unary), .chain (is.map stream)⟩

theorem all_singleton (i : Interceptor σ) : all [i] = i := by
  cases i with
  | mk unary stream =>
    show Interceptor.mk (.chain [unary]) (.chain [stream]) = _
    rw [UnaryHook.chain_singleton, StreamHook.chain_singleton]

theorem all_flatten (iss : List (List (Interceptor σ))) : all (iss.map all) = all iss.flatten := by
  simp only [all, List.map_map, List.map_flatten, ← UnaryHook.chain_flatten,
    ← StreamHook.chain_flatten, Function.comp_def]

/-- Chaining two lists of interceptors is the list of both, which is why nesting cannot be seen. -/
theorem chain_all (is js : List (Interceptor σ)) : (all is).chain (all js) = all (is ++ js) := by
  have flat := all_flatten [is, js]
  rwa [List.flatten_cons, List.flatten_singleton] at flat

theorem all_cons (i : Interceptor σ) (is : List (Interceptor σ)) :
    all (i :: is) = i.chain (all is) := by
  have flat := chain_all [i] is
  rw [all_singleton] at flat
  exact flat.symm

end Interceptor

/-- Interceptors, known by an index, nested into chains, with idle ones in any place. -/
inductive Nesting (ι : Type) where
  | one (i : ι)
  | idle
  | chain (first second : Nesting ι)
  | all (parts : List (Nesting ι))

namespace Nesting

variable {ι σ : Type}

mutual

/-- The interceptors of a nesting from left to right; an idle one is none. -/
def leaves : Nesting ι → List ι
  | one i => [i]
  | idle => []
  | chain first second => first.leaves ++ second.leaves
  | all parts => leavesAll parts

@[inherit_doc leaves]
def leavesAll : List (Nesting ι) → List ι
  | [] => []
  | part :: parts => part.leaves ++ leavesAll parts

end

mutual

/-- The interceptor that a nesting is. -/
def build (f : ι → Interceptor σ) : Nesting ι → Interceptor σ
  | one i => f i
  | idle => .idle
  | chain first second => (first.build f).chain (second.build f)
  | all parts => .all (buildAll f parts)

@[inherit_doc build]
def buildAll (f : ι → Interceptor σ) : List (Nesting ι) → List (Interceptor σ)
  | [] => []
  | part :: parts => part.build f :: buildAll f parts

end

mutual

/-- A nesting is the flat chain of its leaves. -/
theorem build_eq (f : ι → Interceptor σ) (n : Nesting ι) : n.build f = .all (n.leaves.map f) := by
  cases n with
  | one i => exact (Interceptor.all_singleton (f i)).symm
  | idle => rfl
  | chain first second =>
    rw [build, build_eq f first, build_eq f second, Interceptor.chain_all, leaves, List.map_append]
  | all parts => rw [build, buildAll_eq f parts, leaves]

/-- A nesting of any shape is as good as the list of its leaves. -/
theorem buildAll_eq (f : ι → Interceptor σ) (parts : List (Nesting ι)) :
    .all (buildAll f parts) = Interceptor.all ((leavesAll parts).map f) := by
  cases parts with
  | nil => rfl
  | cons part parts =>
    rw [buildAll, Interceptor.all_cons, build_eq f part, buildAll_eq f parts, Interceptor.chain_all,
      leavesAll, List.map_append]

end

end Nesting

/-! ## One call after another -/

section

variable {ι : Type} [DecidableEq ι] {σ α : Type} {τ : ι → Type}

/-- What all interceptors share, and what each of them remembers of its own. -/
abbrev Memory (σ : Type) (τ : ι → Type) : Type := σ × ((i : ι) → τ i)

/-- A step of one interceptor, which sees what is shared and what is its own. -/
def onPart {β : Type} (i : ι) (step : σ × τ i → α → β × σ × τ i) (m : Memory σ τ) (a : α) :
    β × Memory σ τ :=
  let (b, shared, own) := step (m.1, m.2 i) a
  (b, shared, Function.update m.2 i own)

/-- An interceptor that sees what is shared and what is its own. -/
def Interceptor.onPart (i : ι) (f : Interceptor (σ × τ i)) : Interceptor (Memory σ τ) where
  unary := ⟨RpcWire.onPart i f.unary.request, RpcWire.onPart i f.unary.response⟩
  stream := ⟨RpcWire.onPart i f.stream.request, RpcWire.onPart i f.stream.message,
    RpcWire.onPart i f.stream.event⟩

/-- A value passes interceptors in order. The first that rejects it ends the matter, whatever the
later ones are. -/
inductive PassesOut (step : (i : ι) → σ × τ i → α → Except Failure α × σ × τ i) :
    List ι → Memory σ τ → α → Except Failure α × Memory σ τ → Prop
  | through (m : Memory σ τ) (a : α) : PassesOut step [] m a (.ok a, m)
  | rejected {i : ι} (later : List ι) {m : Memory σ τ} {a : α} {cause : Failure} {shared : σ}
      {own : τ i} : step i (m.1, m.2 i) a = (.error cause, shared, own) →
      PassesOut step (i :: later) m a (.error cause, shared, Function.update m.2 i own)
  | passed {i : ι} {later : List ι} {m : Memory σ τ} {a b : α} {shared : σ} {own : τ i}
      {out : Except Failure α × Memory σ τ} : step i (m.1, m.2 i) a = (.ok b, shared, own) →
      PassesOut step later (shared, Function.update m.2 i own) b out →
      PassesOut step (i :: later) m a out

/-- A value passes interceptors in reverse: the later ones come before the first. -/
inductive PassesBack (step : (i : ι) → σ × τ i → α → α × σ × τ i) :
    List ι → Memory σ τ → α → α × Memory σ τ → Prop
  | through (m : Memory σ τ) (a : α) : PassesBack step [] m a (a, m)
  | passed {i : ι} {later : List ι} {m between : Memory σ τ} {a b c : α} {shared : σ} {own : τ i} :
      PassesBack step later m a (b, between) →
      step i (between.1, between.2 i) b = (c, shared, own) →
      PassesBack step (i :: later) m a (c, shared, Function.update between.2 i own)

theorem passesOut_passOut (step : (i : ι) → σ × τ i → α → Except Failure α × σ × τ i)
    (is : List ι) (m : Memory σ τ) (a : α) :
    PassesOut step is m a (passOut (is.map fun i => onPart i (step i)) m a) := by
  induction is generalizing m a with
  | nil => exact .through m a
  | cons i later ih =>
    simp only [List.map_cons, passOut, onPart]
    rcases taken : step i (m.1, m.2 i) a with ⟨out, shared, own⟩
    cases out with
    | error cause => exact .rejected later taken
    | ok b => exact .passed taken (ih _ b)

theorem passesBack_passBack (step : (i : ι) → σ × τ i → α → α × σ × τ i) (is : List ι)
    (m : Memory σ τ) (a : α) :
    PassesBack step is m a (passBack (is.map fun i => onPart i (step i)) m a) := by
  induction is with
  | nil => exact .through m a
  | cons i later ih =>
    simp only [List.map_cons, passBack, onPart]
    exact .passed ih rfl

/-- A rejected value leaves every interceptor behind the one that rejected it as it was. -/
theorem PassesOut.untouched {step : (i : ι) → σ × τ i → α → Except Failure α × σ × τ i}
    {is : List ι} {m after : Memory σ τ} {a : α} {cause : Failure}
    (h : PassesOut step is m a (.error cause, after)) :
    ∃ done i later, is = done ++ i :: later ∧ ∀ j ∉ done, j ≠ i → after.2 j = m.2 j := by
  generalize result : (Except.error cause, after) = out at h
  induction h with
  | through m a => cases result
  | @rejected i later m a _ shared own _ =>
    cases result
    refine ⟨[], i, later, rfl, ?_⟩
    intro j _ other
    exact Function.update_of_ne other own m.2
  | @passed i later m a b shared own out taken _ ih =>
    obtain ⟨done, last, rest, rfl, same⟩ := ih result
    refine ⟨i :: done, last, rest, rfl, ?_⟩
    intro j unreached other
    rw [List.mem_cons, not_or] at unreached
    rw [same j unreached.2 other]
    exact Function.update_of_ne unreached.1 own m.2

/-- What goes out passes the interceptors in order; those behind one that rejects it are untouched.
-/
structure InOrder (step : (i : ι) → σ × τ i → α → Except Failure α × σ × τ i) (is : List ι)
    (whole : Memory σ τ → α → Except Failure α × Memory σ τ) : Prop where
  passes : ∀ m a, PassesOut step is m a (whole m a)
  untouched : ∀ m a cause after, whole m a = (.error cause, after) →
    ∃ done i later, is = done ++ i :: later ∧ ∀ j ∉ done, j ≠ i → after.2 j = m.2 j

/-- What comes back passes the interceptors in reverse. -/
def InReverse (step : (i : ι) → σ × τ i → α → α × σ × τ i) (is : List ι)
    (whole : Memory σ τ → α → α × Memory σ τ) : Prop :=
  ∀ m a, PassesBack step is m a (whole m a)

theorem inOrder_passOut (step : (i : ι) → σ × τ i → α → Except Failure α × σ × τ i)
    (is : List ι) : InOrder step is (passOut (is.map fun i => onPart i (step i))) where
  passes := passesOut_passOut step is
  untouched := by
    intro m a cause after rejected
    have passes := passesOut_passOut step is m a
    rw [rejected] at passes
    exact passes.untouched

/-- The interceptor that a nesting of interceptors with memories of their own is. -/
def Nesting.whole (f : (i : ι) → Interceptor (σ × τ i)) (n : Nesting ι) :
    Interceptor (Memory σ τ) :=
  n.build fun i => (f i).onPart i

/-- However interceptors are nested into chains, with idle ones anywhere: every sequence of calls
has the same answers as from the flat chain of them, and leaves each of them with the same memory.
What goes out passes them in order, up to the first that rejects it, and what comes back passes them
in reverse. -/
theorem nested_as_flat (f : (i : ι) → Interceptor (σ × τ i)) (n : Nesting ι) :
    (∀ m calls, (n.whole f).unary.run m calls =
      (UnaryHook.chain (n.leaves.map fun i => ((f i).onPart i).unary)).run m calls) ∧
    (∀ m calls, (n.whole f).stream.run m calls =
      (StreamHook.chain (n.leaves.map fun i => ((f i).onPart i).stream)).run m calls) ∧
    InOrder (fun i => (f i).unary.request) n.leaves (n.whole f).unary.request ∧
    InReverse (fun i => (f i).unary.response) n.leaves (n.whole f).unary.response ∧
    InOrder (fun i => (f i).stream.request) n.leaves (n.whole f).stream.request ∧
    InOrder (fun i => (f i).stream.message) n.leaves (n.whole f).stream.message ∧
    InReverse (fun i => (f i).stream.event) n.leaves (n.whole f).stream.event := by
  have unary : (n.whole f).unary = .chain (n.leaves.map fun i => ((f i).onPart i).unary) := by
    simp only [Nesting.whole, Nesting.build_eq, Interceptor.all, List.map_map, Function.comp_def]
  have stream : (n.whole f).stream = .chain (n.leaves.map fun i => ((f i).onPart i).stream) := by
    simp only [Nesting.whole, Nesting.build_eq, Interceptor.all, List.map_map, Function.comp_def]
  refine ⟨?_, ?_, ?_⟩
  · intro m calls
    rw [unary]
  · intro m calls
    rw [stream]
  · rw [unary, stream]
    simp only [UnaryHook.chain, StreamHook.chain, List.map_map, Function.comp_def,
      Interceptor.onPart]
    exact ⟨inOrder_passOut _ _, passesBack_passBack _ _, inOrder_passOut _ _, inOrder_passOut _ _,
      passesBack_passBack _ _⟩

end

end RpcWire
