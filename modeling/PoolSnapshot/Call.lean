import PoolSnapshot.Word
import PoolSnapshot.Time.Duration

/-!
Calls, what came of them, and a round trip: the calls of one request, all answered at one block or
refused together.
-/
namespace PoolSnapshot

structure Call where
  target : Address
  data : Bytes
  deriving DecidableEq

structure Outcome where
  success : Bool
  data : Bytes
  deriving DecidableEq

structure Request where
  calls : List Call
  allowFailure : Bool
  block : Nat
  deriving DecidableEq

inductive BatchError where
  | transport (reason : String)
  | timeout (after : Duration)
  | reverted (reason : String)
  | outcomeCount (expected actual : Nat)
  | malformedResponse (reason : String)
  | callFailed (index : Nat) (method : String) (target : Address)
  | decode (method : String) (target : Address) (reason : String)
  | unknownMethod (contract method : String)
  | encode (method reason : String)
  | slotOutOfRange (slot size : Nat)
  deriving DecidableEq

namespace BatchError

def message : BatchError → String
  | transport r => s!"multicall transport failed: {r}"
  | timeout d => s!"multicall timed out after {d.text}"
  | reverted r => s!"multicall reverted: {r}"
  | outcomeCount n m => s!"multicall returned {m} results for {n} calls"
  | malformedResponse r => s!"invalid multicall response: {r}"
  | callFailed i m a => s!"call {i} ({m} on {a.text}) failed"
  | decode m a r => s!"failed to decode {m} output from {a.text}: {r}"
  | unknownMethod c m => s!"contract {c} has no method {m}"
  | encode m r => s!"failed to encode {m} arguments: {r}"
  | slotOutOfRange s n => s!"output slot {s} is outside a batch of {n} records"

/-- The round trip itself went wrong, so that asking again may help. -/
def isTransport : BatchError → Bool
  | transport _ | timeout _ | outcomeCount .. | malformedResponse _ => true
  | _ => false

end BatchError

abbrev Reply := Except BatchError (List Outcome)

end PoolSnapshot
