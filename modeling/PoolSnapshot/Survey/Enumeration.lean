import PoolSnapshot.Survey.Basic

/-!
Listing a collection: how many entities there are, then the address at each index.
-/
namespace PoolSnapshot

open Abi (Value)

namespace Collection

def countRead (κ : Collection) (ν : Network) : Read Word :=
  let set (_ v : Word) := v
  match κ with
  | allMinipools => .of 0 ν.minipoolManager "getMinipoolCount" [] set
  | nodeMinipools node => .of 0 ν.minipoolManager "getNodeMinipoolCount" [.address node] set
  | oracleDaoMembers => .of 0 ν.oracleDao "getMemberCount" [] set

def addressRead (κ : Collection) (ν : Network) (slot index : Nat) : Read Address :=
  let i := Value.uint (BitVec.ofNat 256 index)
  let set (_ v : Address) := v
  match κ with
  | allMinipools => .of slot ν.minipoolManager "getMinipoolAt" [i] set
  | nodeMinipools node => .of slot ν.minipoolManager "getNodeMinipoolAt" [.address node, i] set
  | oracleDaoMembers => .of slot ν.oracleDao "getMemberAt" [i] set

end Collection

namespace Survey

def countOf (κ : Collection) (answers : List Word) : Except SnapshotError Nat :=
  (answers.headD 0).toU64.mapError (.conversion (.collection κ) "count")

def count (ς : Survey) (κ : Collection) : Snapshot Nat := do
  countOf κ (← Program.alone [0] (ς.reader .count [κ.countRead ς.network]))

/-- An address takes twenty bytes, and memory has fewer than `2 ^ 63`. -/
def hasRoom (count : Nat) : Bool := 20 * count < Nat.pow 2 63

def addresses (ς : Survey) (κ : Collection) : Snapshot (List Address) := do
  let n ← ς.count κ
  if hasRoom n then
    ς.inChunks ς.batching.address (List.replicate n (0 : Address)) fun r _ =>
      ς.reader .addresses
        ((List.range (r.stop - r.start)).map fun i => κ.addressRead ς.network i (r.start + i))
  else .done (.error (.noRoom κ n))

end Survey

end PoolSnapshot
