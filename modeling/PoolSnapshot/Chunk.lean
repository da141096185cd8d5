/-!
Cutting `0, 1, …, len - 1` into consecutive ranges of one size, the last one shorter if need be.
-/
namespace PoolSnapshot

/-- The positions from `start` up to, not including, `stop`. -/
structure Range where
  start : Nat
  stop : Nat
  deriving DecidableEq

/-- The items of a list at the positions of a range. -/
def Range.part {α : Type} (r : Range) (xs : List α) : List α :=
  (xs.drop r.start).take (r.stop - r.start)

namespace Chunk

/-- A size of zero acts as one. -/
def step (size : Nat) : Nat := max 1 size

def count (len size : Nat) : Nat := (len + step size - 1) / step size

def range (len size k : Nat) : Range := ⟨k * step size, min ((k + 1) * step size) len⟩

def ranges (len size : Nat) : List Range := (List.range (count len size)).map (range len size)

theorem step_pos (size : Nat) : 0 < step size := by
  unfold step
  omega

/-- A list cut into consecutive slices of one size, without counting it. -/
def slices {α : Type} (size : Nat) : List α → List (List α)
  | [] => []
  | x :: xs => (x :: xs).take (step size) :: slices size ((x :: xs).drop (step size))
termination_by xs => xs.length
decreasing_by
  have := step_pos size
  simp only [List.length_drop, List.length_cons]
  omega

/-- Where the range of machine words from `start` ends. A sum beyond 64 bits loses what is beyond them. -/
def stop (len size start : UInt64) : UInt64 := min (start + size) len

/-- The ranges from `start` on, if fewer than so many get past the length. -/
def walkWithin (len size : UInt64) : Nat → UInt64 → Option (List Range)
  | 0, _ => none
  | steps + 1, start =>
    if start < len then do
      let stop := stop len size start
      return ⟨start.toNat, stop.toNat⟩ :: (← walkWithin len size steps stop)
    else some []

/-- None if the steps never get past the length: in as many as there are words they have met every word that they
ever meet. -/
def walkFrom (len size start : UInt64) : Option (List Range) := walkWithin len size UInt64.size start

/-- A range takes sixteen bytes, and memory has fewer than `2 ^ 63`. -/
def fits (count : Nat) : Bool := 16 * count < Nat.pow 2 63

/-- The ranges found by stepping with 64-bit words, after memory was asked for as many as the length
takes. None if memory does not have it, or if the steps never end. -/
def walk (len size : UInt64) : Option (List Range) :=
  let size := max 1 size
  if fits (count len.toNat size.toNat) then walkFrom len size 0 else none

end Chunk

end PoolSnapshot
