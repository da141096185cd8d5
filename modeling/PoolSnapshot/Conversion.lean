import PoolSnapshot.Word
import PoolSnapshot.Decimal
import PoolSnapshot.Time.Timestamp
import PoolSnapshot.Time.Duration

/-!
What a 256-bit answer means: a smaller number, a fraction, a point in time, a span of time. A value
without that meaning is refused, never cut.
-/
namespace PoolSnapshot

inductive ConversionError where
  | invalidDecimal (reason : String)
  | overflow
  | invalidTimestamp (seconds : Nat)
  deriving DecidableEq

namespace ConversionError

def message : ConversionError → String
  | invalidDecimal r => s!"Invalid decimal: {r}"
  | overflow => "Overflow in conversion"
  | invalidTimestamp s => s!"Invalid unix timestamp: {s}"

end ConversionError

namespace Word

def below (bound : Nat) (w : Word) : Except ConversionError Nat :=
  if w.toNat < bound then .ok w.toNat else .error .overflow

def toU64 : Word → Except ConversionError Nat := below (Nat.pow 2 64)

def toU8 : Word → Except ConversionError Nat := below (Nat.pow 2 8)

/-- Seconds are signed 64-bit numbers before they are a date. -/
def toTime (w : Word) : Except ConversionError Timestamp := do
  let s ← below (Nat.pow 2 63) w
  if s ≤ Timestamp.latest then .ok ⟨s⟩ else .error (.invalidTimestamp s)

def toDuration (w : Word) : Except ConversionError Duration := return .ofSeconds (← toU64 w)

/-- `w / 10 ^ places` when the digits of `w` fit a decimal. -/
def scaled (w : Word) (places : Nat) : Except ConversionError Decimal :=
  if w.toNat < Decimal.capacity then .ok (.ofScaled w.toNat places)
  else .error (.invalidDecimal "Invalid decimal: overflow from too many digits")

/-- None where the power of ten is no decimal itself: the division is then never carried out. -/
def toDecimal (w : Word) (places : Nat) : Option (Except ConversionError Decimal) :=
  match scaled w places with
  | .error e => some (.error e)
  | .ok d => if Nat.pow 10 places < Decimal.capacity then some (.ok d) else none

/-- Fractions on chain have eighteen places. -/
def toFraction (w : Word) : Except ConversionError Decimal := scaled w 18

/-- Both numbers must fit a signed word. -/
def difference (minuend subtrahend : Word) : Except ConversionError Int := do
  let m ← below (Nat.pow 2 255) minuend
  let s ← below (Nat.pow 2 255) subtrahend
  return (m : Int) - s

end Word

end PoolSnapshot
