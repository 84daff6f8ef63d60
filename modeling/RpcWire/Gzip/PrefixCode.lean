import RpcWire.Gzip.Bits
import RpcWire.Gzip.Fault

/-!
# Prefix codes

A deflate block describes a code by the length of each symbol's bit pattern; a
length of zero means that the symbol does not occur. The patterns follow: they
are handed out in order of length, and among equals in order of symbol.

The patterns make a binary tree, and reading a symbol is a walk down that tree.
Lengths that leave patterns over, or want more than there are, describe no code
— except that a code may consist of a single pattern of one bit, or of none.
-/

namespace RpcWire.Gzip

/-- The patterns that begin with some bits. -/
inductive Tree where
  | vacant
  | symbol (n : Nat)
  | fork (zero one : Tree)
  deriving Repr

namespace Tree

/-- The tree with one more pattern. -/
def insert (n : Nat) : List Bool → Tree → Tree
  | [], _ => symbol n
  | bit :: bits, tree =>
    let (zero, one) := match tree with
      | fork zero one => (zero, one)
      | _ => (vacant, vacant)
    if bit then fork zero (insert n bits one) else fork (insert n bits zero) one

/-- Walks down to a symbol. Bits that begin no pattern are a fault as soon as they are read. -/
def walk : Tree → Bits → Except Fault (Nat × Bits)
  | vacant, _ => .error .corrupt
  | symbol n, b => .ok (n, b)
  | fork zero one, b =>
    match b.next? with
    | none => .error .unfinished
    | some (bit, b) => if bit then one.walk b else zero.walk b

theorem size_walk {t : Tree} {b after : Bits} {n : Nat} (h : t.walk b = .ok (n, after)) :
    after.size ≤ b.size := by
  induction t generalizing b with
  | vacant => cases h
  | symbol => cases h; exact Nat.le_refl _
  | fork zero one ihz iho =>
    rw [walk] at h
    split at h
    · cases h
    · next hb =>
      have := Bits.size_next? hb
      split at h
      · have := iho h; omega
      · have := ihz h; omega

end Tree

/-- A code: the patterns that begin with either bit. -/
structure PrefixCode where
  zero : Tree
  one : Tree

namespace PrefixCode

def read (c : PrefixCode) (b : Bits) : Except Fault (Nat × Bits) := (Tree.fork c.zero c.one).walk b

theorem size_read {c : PrefixCode} {b after : Bits} {n : Nat} (h : c.read b = .ok (n, after)) :
    after.size < b.size := by
  simp only [read, Tree.walk] at h
  split at h
  · cases h
  · next hb =>
    have := Bits.size_next? hb
    split at h
    · have := Tree.size_walk h; omega
    · have := Tree.size_walk h; omega

def maxLength : Nat := 15

/-- The symbols whose patterns have a length, in order. -/
def symbolsOfLength (lengths : List Nat) (length : Nat) : List Nat :=
  lengths.zipIdx.filterMap fun (l, n) => if l = length then some n else none

/-- The lowest `length` bits of a number, the highest first. -/
def pattern (length value : Nat) : List Bool :=
  (List.range length).map fun i => value.testBit (length - 1 - i)

/-- The patterns of all symbols: those of the lengths from `length` on, of which the first is
`first`. -/
def patternsFrom (lengths : List Nat) (length first : Nat) : Nat → List (Nat × List Bool)
  | 0 => []
  | more + 1 =>
    let symbols := symbolsOfLength lengths length
    symbols.zipIdx.map (fun (n, i) => (n, pattern length (first + i))) ++
      patternsFrom lengths (length + 1) (2 * (first + symbols.length)) more

/-- How much of the space of patterns the lengths take up, in patterns of the greatest length. -/
def demand (lengths : List Nat) : Nat :=
  lengths.foldr (fun l taken => (if l = 0 then 0 else Nat.pow 2 (maxLength - l)) + taken) 0

/-- Whether the lengths describe a code. A code without patterns, or with a single one of one bit,
need not use up the space if `sparse` codes are allowed. -/
def describes (sparse : Bool) (lengths : List Nat) : Bool :=
  let used := lengths.filter (· ≠ 0)
  demand lengths == Nat.pow 2 maxLength || (sparse && (used == [] || used == [1]))

/-- The code that lengths describe. -/
def ofLengths (sparse : Bool) (lengths : List Nat) : Except Fault PrefixCode :=
  if describes sparse lengths then
    let tree := (patternsFrom lengths 1 0 maxLength).foldl (fun t (n, bits) => t.insert n bits)
      Tree.vacant
    match tree with
    | .fork zero one => .ok ⟨zero, one⟩
    | _ => .ok ⟨.vacant, .vacant⟩
  else .error .corrupt

end PrefixCode

end RpcWire.Gzip
