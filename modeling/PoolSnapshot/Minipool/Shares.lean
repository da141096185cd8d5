import PoolSnapshot.Minipool.Raw

/-!
What node and users would get of a minipool's balance. The amounts come from earlier reads, and an
amount that is not positive has no shares and is not asked for.
-/
namespace PoolSnapshot.Minipool

structure Shares where
  distributableBalance : Int := 0
  nodeShareOfBalance : Word := 0
  userShareOfBalance : Word := 0
  deriving DecidableEq, Inhabited

def sharePair {R : Type} (ν : Network) (slot : Nat) (a : Address) (amount : Word)
    (node user : R → Word → R) : List (Read R) :=
  [.of slot (ν.minipoolAt a) "calculateNodeShare" [.uint amount] node,
    .of slot (ν.minipoolAt a) "calculateUserShare" [.uint amount] user]

namespace Shares

/-- The balance without the node's refund, which may be more than the balance. -/
def distributable (r : Raw) : Except SnapshotError Int :=
  (r.balance.difference r.nodeRefundBalance).mapError
    (.conversion (.account r.address) "distributable balance")

def withoutShares (amount : Int) : Shares := { distributableBalance := amount }

def reads (ν : Network) (slot : Nat) (r : Raw) (amount : Int) : List (Read Shares) :=
  if amount ≤ 0 then []
  else sharePair ν slot r.address (BitVec.ofInt 256 amount)
    (fun s v => { s with nodeShareOfBalance := v }) (fun s v => { s with userShareOfBalance := v })

/-- The amounts are settled before anything is asked. -/
def worker (ς : Survey) (rs : List Raw) : Surveyor Shares :=
  match rs.mapM distributable with
  | .error e => .fail e
  | .ok amounts =>
    .change (fun ss => (ss.zipWith
        (fun s amount => if amount ≤ 0 then withoutShares amount
          else { s with distributableBalance := amount }) amounts, none)) ::
      ς.reader .shares
        (readEach (rs.zip amounts) fun slot (r, amount) => reads ς.network slot r amount)

end Shares

end PoolSnapshot.Minipool

namespace PoolSnapshot.Survey

open Minipool (Raw Shares)

def minipoolShares (ς : Survey) (raw : List Raw) : Snapshot (List Shares) :=
  ς.inChunks ς.batching.minipool (List.replicate raw.length ({} : Shares)) fun r _ =>
    Shares.worker ς (r.part raw)

end PoolSnapshot.Survey
