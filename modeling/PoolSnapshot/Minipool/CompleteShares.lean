import PoolSnapshot.Minipool.Details

/-!
Shares of what a minipool has on the beacon chain, by itself and together with what its contract
holds. A sum that leaves the words is an error and is never asked for.
-/
namespace PoolSnapshot.Minipool

structure CompleteShares where
  address : Address
  nodeShareOfBeacon : Word := 0
  userShareOfBeacon : Word := 0
  nodeShareOfTotal : Word := 0
  userShareOfTotal : Word := 0
  deriving DecidableEq, Inhabited

namespace CompleteShares

/-- Beacon balance and balance less the refund. -/
def total (d : Details) (beacon : Word) : Except SnapshotError Int :=
  let sum := beacon.toNat + d.balance.toNat
  if Nat.pow 2 256 ≤ sum then .error (.invalidValue (.minipool d.address) "beacon balance" beacon.decimal)
  else
    (Word.difference (BitVec.ofNat 256 sum) d.nodeRefundBalance).mapError
      (.conversion (.account d.address) "total balance")

def beaconReads (ν : Network) (slot : Nat) (d : Details) (beacon : Word) :
    List (Read CompleteShares) :=
  if beacon = 0 then []
  else sharePair ν slot d.address beacon (fun s v => { s with nodeShareOfBeacon := v })
    (fun s v => { s with userShareOfBeacon := v })

def totalReads (ν : Network) (slot : Nat) (d : Details) (amount : Int) : List (Read CompleteShares) :=
  if amount ≤ 0 then []
  else sharePair ν slot d.address (BitVec.ofInt 256 amount)
    (fun s v => { s with nodeShareOfTotal := v }) (fun s v => { s with userShareOfTotal := v })

def worker (ς : Survey) (ds : List (Details × Word)) : Surveyor CompleteShares :=
  match ds.mapM fun (d, beacon) => total d beacon with
  | .error e => .fail e
  | .ok totals =>
    ς.reader .completeShares <| readEach (ds.zip totals) fun slot ((d, beacon), amount) =>
      beaconReads ς.network slot d beacon ++ totalReads ς.network slot d amount

def toJson (s : CompleteShares) : Json :=
  .object
    [("address", .text s.address.text),
      ("node_share_of_beacon_balance", .text s.nodeShareOfBeacon.hex),
      ("user_share_of_beacon_balance", .text s.userShareOfBeacon.hex),
      ("node_share_of_balance_including_beacon", .text s.nodeShareOfTotal.hex),
      ("user_share_of_balance_including_beacon", .text s.userShareOfTotal.hex)]

end CompleteShares

end PoolSnapshot.Minipool

namespace PoolSnapshot.Survey

open Minipool (Details CompleteShares)

def completeShares (ς : Survey) (ds : List Details) (beacons : List Word) :
    Snapshot (List CompleteShares) :=
  if ds.length = beacons.length then
    ς.inChunks ς.batching.completeShare
      (ds.map fun d => ({ address := d.address } : CompleteShares)) fun r _ =>
      CompleteShares.worker ς (r.part (ds.zip beacons))
  else .done (.error (.lengthMismatch "beacon balances" ds.length beacons.length))

end PoolSnapshot.Survey
