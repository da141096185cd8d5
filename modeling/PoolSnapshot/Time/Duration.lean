import PoolSnapshot.Text.Padded

/-!
Spans of time in seconds and nanoseconds, shown in the largest unit that they fill.
-/
namespace PoolSnapshot

structure Duration where
  seconds : Nat
  nanos : Nat
  deriving DecidableEq, Inhabited

namespace Duration

/-- Full seconds are carried over. None when there are more of them than 64 bits can count. -/
def ofParts? (seconds nanos : Nat) : Option Duration :=
  let s := seconds + nanos / 1000000000
  if s < Nat.pow 2 64 then some ⟨s, nanos % 1000000000⟩ else none

def ofSeconds (s : Nat) : Duration := ⟨s, 0⟩

def ofMillis (ms : Nat) : Duration := ⟨ms / 1000, ms % 1000 * 1000000⟩

def millis (d : Duration) : Nat := d.seconds * 1000 + d.nanos / 1000000

def inUnit (whole places rest : Nat) (unit : String) : String :=
  toString whole ++ String.ofList (Text.fraction places rest) ++ unit

def text (d : Duration) : String :=
  if 0 < d.seconds then inUnit d.seconds 9 d.nanos "s"
  else if 1000000 ≤ d.nanos then inUnit (d.nanos / 1000000) 6 (d.nanos % 1000000) "ms"
  else if 1000 ≤ d.nanos then inUnit (d.nanos / 1000) 3 (d.nanos % 1000) "µs"
  else inUnit d.nanos 0 0 "ns"

end Duration

end PoolSnapshot
