import PoolSnapshot.Batch
import PoolSnapshot.Contract.Catalogue
import PoolSnapshot.Contract.Key
import PoolSnapshot.Program

/-!
The contracts of one network. All but the storage contract and the multicall contract are found by
name in the storage contract, in one request.
-/
namespace PoolSnapshot

structure Addresses where
  storage : Address
  multicall : Address
  minipoolManager : Address
  bondReducer : Address
  oracleDao : Address
  memberSettings : Address
  minipoolSettings : Address
  proposalSettings : Address
  /-- Zero on a network without one. -/
  verifier : Address
  deriving DecidableEq, Inhabited

structure Network where
  storage : Contract
  multicall : Contract
  minipoolManager : Contract
  bondReducer : Contract
  oracleDao : Contract
  memberSettings : Contract
  minipoolSettings : Contract
  proposalSettings : Contract
  verifier : Option Contract

namespace Network

def ofAddresses (α : Addresses) : Network where
  storage := ⟨.storage, α.storage⟩
  multicall := ⟨.multicall, α.multicall⟩
  minipoolManager := ⟨.minipoolManager, α.minipoolManager⟩
  bondReducer := ⟨.bondReducer, α.bondReducer⟩
  oracleDao := ⟨.oracleDao, α.oracleDao⟩
  memberSettings := ⟨.memberSettings, α.memberSettings⟩
  minipoolSettings := ⟨.minipoolSettings, α.minipoolSettings⟩
  proposalSettings := ⟨.proposalSettings, α.proposalSettings⟩
  verifier := if α.verifier = 0 then none else some ⟨.verifier, α.verifier⟩

def minipoolAt (_ : Network) (a : Address) : Contract := ⟨.minipool, a⟩

def protocolVerifier (ν : Network) : Except ContractError Contract :=
  match ν.verifier with
  | some κ => .ok κ
  | none => .error (.notDeployed Interface.verifier.name)

/-- What a network cannot be read without, in the order of resolution. -/
def required : List Interface :=
  [.minipoolManager, .bondReducer, .oracleDao, .memberSettings, .minipoolSettings, .proposalSettings]

def resolved : List Interface := required ++ [.verifier]

def resolution (storage : Address) : List (Read Address) :=
  resolved.zipIdx.map fun (ι, slot) =>
    .of slot ⟨.storage, storage⟩ "getAddress" [.fixedBytes (StorageKey.ofContract ι.name).bytes]
      fun _ (a : Address) => a

def ofResolved (storage multicall : Address) (found : List Address) : Except ContractError Network :=
  match (required.zip found).find? (·.2 = 0) with
  | some (ι, _) => .error (.notDeployed ι.name)
  | none =>
    let nth (i : Nat) := found.getD i 0
    .ok <| ofAddresses ⟨storage, multicall, nth 0, nth 1, nth 2, nth 3, nth 4, nth 5, nth 6⟩

def load (storage multicall : Address) (block : Nat) :
    Program Request Reply ContractError Network := do
  let found ← Program.alone (List.replicate resolved.length (0 : Address))
    (Read.worker (resolution storage) block .resolution)
  ofResolved storage multicall found

end Network

end PoolSnapshot
