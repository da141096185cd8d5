import PoolSnapshot.Json

/-!
How many entities one request covers, per kind of read, and how many requests run side by side.
-/
namespace PoolSnapshot

structure Batching where
  address : Nat := 1000
  version : Nat := 500
  minipool : Nat := 100
  completeShare : Nat := 500
  odaoDetails : Nat := 50
  challengeState : Nat := 500
  maxConcurrent : Nat := 6
  deriving DecidableEq

namespace Batching

def fields (β : Batching) : List (String × Nat) :=
  [("address_batch_size", β.address), ("version_batch_size", β.version),
    ("minipool_batch_size", β.minipool), ("complete_share_batch_size", β.completeShare),
    ("odao_details_batch_size", β.odaoDetails), ("challenge_state_batch_size", β.challengeState),
    ("max_concurrent_batches", β.maxConcurrent)]

/-- The first field that is zero, as the report names it. -/
def zeroField? (β : Batching) : Option String := (β.fields.find? (·.2 = 0)).map ("batching." ++ ·.1)

def toJson (β : Batching) : Json := .object (β.fields.map fun (k, n) => (k, .nat n))

end Batching

end PoolSnapshot
