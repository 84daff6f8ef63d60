import RpcWire.Text.Cut
import RpcWire.Text.Number

/-!
# Timeouts on the wire

A timeout is a number of nanoseconds. It travels in one of two forms, both of
which have room for a few digits only and therefore round down:

* Connect writes whole milliseconds, at most ten digits;
* gRPC writes at most eight digits and a letter for the unit.
-/

namespace RpcWire

/-- A span of time in nanoseconds. -/
abbrev Nanoseconds := Nat

namespace Timeout

/-! ## Milliseconds -/

/-- The greatest count of milliseconds that ten digits can hold. -/
def maxMilliseconds : Nat := 9999999999

/-- The whole milliseconds of a timeout. -/
def encodeMilliseconds (t : Nanoseconds) : String := toString (min (t / 1_000_000) maxMilliseconds)

/-- Reads one to ten digits between blanks. -/
def parseMilliseconds? (text : String) : Option Nanoseconds :=
  let cs := Text.trim text.toList
  if cs.length ≤ 10 then (Number.digits? cs).map (· * 1_000_000) else none

/-! ## Digits and a unit -/

/-- The units of time that have a letter. -/
inductive Scale where
  | hour
  | minute
  | second
  | millisecond
  | microsecond
  | nanosecond
  deriving DecidableEq, Repr

def Scale.letter : Scale → Char
  | hour => 'H'
  | minute => 'M'
  | second => 'S'
  | millisecond => 'm'
  | microsecond => 'u'
  | nanosecond => 'n'

/-- The nanoseconds of a unit. -/
def Scale.length : Scale → Nanoseconds
  | hour => 3_600_000_000_000
  | minute => 60_000_000_000
  | second => 1_000_000_000
  | millisecond => 1_000_000
  | microsecond => 1_000
  | nanosecond => 1

def Scale.all : List Scale := [hour, minute, second, millisecond, microsecond, nanosecond]

def Scale.ofLetter? (c : Char) : Option Scale := all.find? fun s => s.letter == c

theorem Scale.ofLetter?_letter (s : Scale) : ofLetter? s.letter = some s := by cases s <;> decide

/-- The greatest count that eight digits can hold. -/
def maxCount : Nat := 99999999

/-- Whether a timeout is written in this unit: the count fits, and is no multiple of the next
unit. -/
def Scale.suits (s : Scale) (t : Nanoseconds) : Bool :=
  t / s.length ≤ maxCount && t / s.length % 1000 ≠ 0

/-- The unit in which a timeout is written: the finest that suits it, else seconds. -/
def scaleOf (t : Nanoseconds) : Scale :=
  ([Scale.nanosecond, .microsecond, .millisecond].find? fun s => s.suits t).getD .second

/-- Writes a timeout as digits and a unit. -/
def encodeScaled (t : Nanoseconds) : String :=
  let s := scaleOf t
  toString (min (t / s.length) maxCount) ++ String.singleton s.letter

/-- Reads one to eight digits and a unit between blanks. -/
def parseScaled? (text : String) : Option Nanoseconds := do
  let cs := Text.trim text.toList
  let scale ← cs.getLast?.bind Scale.ofLetter?
  let digits := cs.dropLast
  let count ← Number.digits? digits
  if digits.length ≤ 8 then some (count * scale.length) else none

end Timeout

end RpcWire
