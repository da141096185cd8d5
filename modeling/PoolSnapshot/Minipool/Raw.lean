import PoolSnapshot.Minipool.Types
import PoolSnapshot.Survey.Basic

/-!
The fields of a minipool as the contracts answer them, and the reads that fetch them.
-/
namespace PoolSnapshot.Minipool

open Abi (Value)

/-- Fields that came with the third version; zero for older minipools. -/
structure AtlasRaw where
  userDistributed : Bool := false
  isVacant : Bool := false
  preMigrationBalance : Word := 0
  reduceBondTime : Word := 0
  reduceBondValue : Word := 0
  reduceBondCancelled : Bool := false
  lastBondReductionTime : Word := 0
  lastBondReductionPrevValue : Word := 0
  lastBondReductionPrevNodeFee : Word := 0
  deriving DecidableEq, Inhabited

structure Raw where
  address : Address
  version : Version
  registered : Bool := false
  pubkey : Bytes := []
  withdrawalCredentials : Hash := default
  rplSlashed : Bool := false
  depositType : Word := 0
  status : Word := 0
  statusBlock : Word := 0
  statusTime : Word := 0
  finalised : Bool := false
  nodeFee : Word := 0
  nodeDepositBalance : Word := 0
  nodeDepositAssigned : Bool := false
  userDepositBalance : Word := 0
  userDepositAssigned : Bool := false
  userDepositAssignedTime : Word := 0
  useLatestDelegate : Bool := false
  delegate : Address := 0
  previousDelegate : Address := 0
  effectiveDelegate : Address := 0
  nodeAddress : Address := 0
  nodeRefundBalance : Word := 0
  penaltyCount : Word := 0
  penaltyRate : Word := 0
  /-- What the contract itself holds. -/
  balance : Word := 0
  atlas : AtlasRaw := {}
  deriving DecidableEq, Inhabited

namespace Raw

variable (ν : Network) (slot : Nat) (r : Raw)

def onMinipool {α : Type} [Abi.Readable α] (method : String) (set : Raw → α → Raw) : Read Raw :=
  .of slot (ν.minipoolAt r.address) method [] set

def byAddress {α : Type} [Abi.Readable α] (κ : Contract) (method : String) (set : Raw → α → Raw) :
    Read Raw :=
  .of slot κ method [.address r.address] set

def stored (name : String) (set : Raw → Word → Raw) : Read Raw :=
  .of slot ν.storage "getUint" [.fixedBytes (StorageKey.ofAddress name r.address).bytes] set

def commonReads : List (Read Raw) :=
  [byAddress slot r ν.minipoolManager "getMinipoolExists" fun d v => { d with registered := v },
    byAddress slot r ν.minipoolManager "getMinipoolPubkey" fun d v => { d with pubkey := v },
    byAddress slot r ν.minipoolManager "getMinipoolWithdrawalCredentials" fun d v =>
      { d with withdrawalCredentials := v },
    byAddress slot r ν.minipoolManager "getMinipoolRPLSlashed" fun d v => { d with rplSlashed := v },
    onMinipool ν slot r "getStatus" fun d v => { d with status := v },
    onMinipool ν slot r "getStatusBlock" fun d v => { d with statusBlock := v },
    onMinipool ν slot r "getStatusTime" fun d v => { d with statusTime := v },
    onMinipool ν slot r "getFinalised" fun d v => { d with finalised := v },
    onMinipool ν slot r "getNodeFee" fun d v => { d with nodeFee := v },
    onMinipool ν slot r "getNodeDepositBalance" fun d v => { d with nodeDepositBalance := v },
    onMinipool ν slot r "getNodeDepositAssigned" fun d v => { d with nodeDepositAssigned := v },
    onMinipool ν slot r "getUserDepositBalance" fun d v => { d with userDepositBalance := v },
    onMinipool ν slot r "getUserDepositAssigned" fun d v => { d with userDepositAssigned := v },
    onMinipool ν slot r "getUserDepositAssignedTime" fun d v =>
      { d with userDepositAssignedTime := v },
    onMinipool ν slot r "getUseLatestDelegate" fun d v => { d with useLatestDelegate := v },
    onMinipool ν slot r "getDelegate" fun d v => { d with delegate := v },
    onMinipool ν slot r "getPreviousDelegate" fun d v => { d with previousDelegate := v },
    onMinipool ν slot r "getEffectiveDelegate" fun d v => { d with effectiveDelegate := v },
    onMinipool ν slot r "getNodeAddress" fun d v => { d with nodeAddress := v },
    onMinipool ν slot r "getNodeRefundBalance" fun d v => { d with nodeRefundBalance := v }]

def inAtlas {α : Type} (f : AtlasRaw → α → AtlasRaw) (d : Raw) (v : α) : Raw :=
  { d with atlas := f d.atlas v }

def atlasReads : List (Read Raw) :=
  [onMinipool ν slot r "getUserDistributed" <| inAtlas fun d v => { d with userDistributed := v },
    onMinipool ν slot r "getVacant" <| inAtlas fun d v => { d with isVacant := v },
    onMinipool ν slot r "getPreMigrationBalance" <| inAtlas fun d v => { d with preMigrationBalance := v },
    byAddress slot r ν.bondReducer "getReduceBondTime" <| inAtlas fun d v => { d with reduceBondTime := v },
    byAddress slot r ν.bondReducer "getReduceBondCancelled" <| inAtlas fun d v =>
      { d with reduceBondCancelled := v },
    byAddress slot r ν.bondReducer "getLastBondReductionTime" <| inAtlas fun d v =>
      { d with lastBondReductionTime := v },
    byAddress slot r ν.bondReducer "getLastBondReductionPrevValue" <| inAtlas fun d v =>
      { d with lastBondReductionPrevValue := v },
    byAddress slot r ν.bondReducer "getLastBondReductionPrevNodeFee" <| inAtlas fun d v =>
      { d with lastBondReductionPrevNodeFee := v },
    byAddress slot r ν.bondReducer "getReduceBondValue" <| inAtlas fun d v =>
      { d with reduceBondValue := v }]

/-- Reads that no version of the minipool contract changes. -/
def outsideReads : List (Read Raw) :=
  [stored ν slot r StorageKey.penaltyCount fun d v => { d with penaltyCount := v },
    stored ν slot r StorageKey.penaltyRate fun d v => { d with penaltyRate := v },
    byAddress slot r ν.minipoolManager "getMinipoolDepositType" fun d v => { d with depositType := v },
    byAddress slot r ν.multicall "getEthBalance" fun d v => { d with balance := v }]

def reads : List (Read Raw) :=
  commonReads ν slot r ++ (if r.version.hasAtlas then atlasReads ν slot r else []) ++
    outsideReads ν slot r

/-- A record ready to be read: an old minipool has none of the new fields. -/
def cleared : Raw := if r.version.hasAtlas then r else { r with atlas := {} }

end Raw

end PoolSnapshot.Minipool

namespace PoolSnapshot.Survey

open Minipool (Raw)

def minipoolRaw (ς : Survey) (records : List Raw) : Snapshot (List Raw) :=
  ς.inChunks ς.batching.minipool records fun _ rs =>
    .change (fun rs => (rs.map Raw.cleared, none)) ::
      ς.reader .details (readEach rs (Raw.reads ς.network))

end PoolSnapshot.Survey
