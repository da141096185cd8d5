import PoolSnapshot.Json
import PoolSnapshot.Minipool.Shares
import PoolSnapshot.Minipool.Versions
import PoolSnapshot.Survey.Enumeration

/-!
The finished record of a minipool: codes, times and the validator's key have their meaning, or the
first field without one is reported.
-/
namespace PoolSnapshot.Minipool

structure Details where
  address : Address
  version : Version
  registered : Bool
  /-- None where no validator is registered. -/
  pubkey : Option Pubkey
  withdrawalCredentials : Hash
  rplSlashed : Bool
  depositType : Deposit
  status : Status
  statusBlock : Nat
  statusTime : Timestamp
  finalised : Bool
  nodeFee : Word
  nodeDepositBalance : Word
  nodeDepositAssigned : Bool
  userDepositBalance : Word
  userDepositAssigned : Bool
  userDepositAssignedTime : Timestamp
  useLatestDelegate : Bool
  delegate : Address
  previousDelegate : Address
  effectiveDelegate : Address
  nodeAddress : Address
  nodeRefundBalance : Word
  penaltyCount : Word
  penaltyRate : Word
  balance : Word
  distributableBalance : Int
  nodeShareOfBalance : Word
  userShareOfBalance : Word
  userDistributed : Bool
  isVacant : Bool
  preMigrationBalance : Word
  reduceBondTime : Timestamp
  reduceBondValue : Word
  reduceBondCancelled : Bool
  lastBondReductionTime : Timestamp
  lastBondReductionPrevValue : Word
  lastBondReductionPrevNodeFee : Word
  deriving DecidableEq

namespace Details

variable (r : Raw)

def invalid (field value : String) : SnapshotError := .invalidValue (.minipool r.address) field value

def coded {α : Type} [Coded α] (field : String) (w : Word) : Except SnapshotError α :=
  match Coded.ofCode? w.toNat with
  | some a => .ok a
  | none => .error (invalid r field w.decimal)

def key : Except SnapshotError (Option Pubkey) :=
  if r.pubkey.isEmpty then .ok none
  else match Pubkey.ofBytes? r.pubkey with
    | some k => .ok (some k)
    | none => .error (invalid r "pubkey" s!"{r.pubkey.length} bytes")

def time (field : String) (w : Word) : Except SnapshotError Timestamp :=
  w.toTime.mapError (.conversion (.account r.address) field)

def block (field : String) (w : Word) : Except SnapshotError Nat :=
  w.toU64.mapError (.conversion (.account r.address) field)

def assemble (s : Shares) : Except SnapshotError Details := do
  let status ← coded r "status" r.status
  let depositType ← coded r "deposit type" r.depositType
  let pubkey ← key r
  let statusBlock ← block r "status block" r.statusBlock
  let statusTime ← time r "status time" r.statusTime
  let userDepositAssignedTime ← time r "user deposit assigned time" r.userDepositAssignedTime
  let reduceBondTime ← time r "reduce bond time" r.atlas.reduceBondTime
  let lastBondReductionTime ← time r "last bond reduction time" r.atlas.lastBondReductionTime
  return {
    address := r.address
    version := r.version
    registered := r.registered
    pubkey
    withdrawalCredentials := r.withdrawalCredentials
    rplSlashed := r.rplSlashed
    depositType
    status
    statusBlock
    statusTime
    finalised := r.finalised
    nodeFee := r.nodeFee
    nodeDepositBalance := r.nodeDepositBalance
    nodeDepositAssigned := r.nodeDepositAssigned
    userDepositBalance := r.userDepositBalance
    userDepositAssigned := r.userDepositAssigned
    userDepositAssignedTime
    useLatestDelegate := r.useLatestDelegate
    delegate := r.delegate
    previousDelegate := r.previousDelegate
    effectiveDelegate := r.effectiveDelegate
    nodeAddress := r.nodeAddress
    nodeRefundBalance := r.nodeRefundBalance
    penaltyCount := r.penaltyCount
    penaltyRate := r.penaltyRate
    balance := r.balance
    distributableBalance := s.distributableBalance
    nodeShareOfBalance := s.nodeShareOfBalance
    userShareOfBalance := s.userShareOfBalance
    userDistributed := r.atlas.userDistributed
    isVacant := r.atlas.isVacant
    preMigrationBalance := r.atlas.preMigrationBalance
    reduceBondTime
    reduceBondValue := r.atlas.reduceBondValue
    reduceBondCancelled := r.atlas.reduceBondCancelled
    lastBondReductionTime
    lastBondReductionPrevValue := r.atlas.lastBondReductionPrevValue
    lastBondReductionPrevNodeFee := r.atlas.lastBondReductionPrevNodeFee }

def assembleAll (rs : List Raw) (ss : List Shares) : Except SnapshotError (List Details) :=
  (rs.zip ss).mapM fun (r, s) => assemble r s

end Details

def signed (i : Int) : String :=
  match i with
  | .ofNat n => toString n
  | .negSucc n => "-" ++ toString (n + 1)

def Details.toJson (d : Details) : Json :=
  .object
    [("address", .text d.address.text),
      ("version", .text (Coded.name d.version)),
      ("exists", .bool d.registered),
      ("pubkey", match d.pubkey with
        | some k => .text k.text
        | none => .null),
      ("withdrawal_credentials", .text d.withdrawalCredentials.text),
      ("rpl_slashed", .bool d.rplSlashed),
      ("deposit_type", .text (Coded.name d.depositType)),
      ("status", .text (Coded.name d.status)),
      ("status_block", .nat d.statusBlock),
      ("status_time", .text d.statusTime.text),
      ("finalised", .bool d.finalised),
      ("node_fee", .text d.nodeFee.hex),
      ("node_deposit_balance", .text d.nodeDepositBalance.hex),
      ("node_deposit_assigned", .bool d.nodeDepositAssigned),
      ("user_deposit_balance", .text d.userDepositBalance.hex),
      ("user_deposit_assigned", .bool d.userDepositAssigned),
      ("user_deposit_assigned_time", .text d.userDepositAssignedTime.text),
      ("use_latest_delegate", .bool d.useLatestDelegate),
      ("delegate", .text d.delegate.text),
      ("previous_delegate", .text d.previousDelegate.text),
      ("effective_delegate", .text d.effectiveDelegate.text),
      ("node_address", .text d.nodeAddress.text),
      ("node_refund_balance", .text d.nodeRefundBalance.hex),
      ("penalty_count", .text d.penaltyCount.hex),
      ("penalty_rate", .text d.penaltyRate.hex),
      ("balance", .text d.balance.hex),
      ("distributable_balance", .text (signed d.distributableBalance)),
      ("node_share_of_balance", .text d.nodeShareOfBalance.hex),
      ("user_share_of_balance", .text d.userShareOfBalance.hex),
      ("user_distributed", .bool d.userDistributed),
      ("is_vacant", .bool d.isVacant),
      ("pre_migration_balance", .text d.preMigrationBalance.hex),
      ("reduce_bond_time", .text d.reduceBondTime.text),
      ("reduce_bond_value", .text d.reduceBondValue.hex),
      ("reduce_bond_cancelled", .bool d.reduceBondCancelled),
      ("last_bond_reduction_time", .text d.lastBondReductionTime.text),
      ("last_bond_reduction_prev_value", .text d.lastBondReductionPrevValue.hex),
      ("last_bond_reduction_prev_node_fee", .text d.lastBondReductionPrevNodeFee.hex)]

end PoolSnapshot.Minipool

namespace PoolSnapshot.Survey

open Minipool (Raw Details)

/-- Records of supported versions, or the first minipool whose version is not supported. -/
def startRecords (addresses : List Address) (versions : List Word) :
    Except SnapshotError (List Raw) :=
  (addresses.zip versions).mapM fun (a, v) => return { address := a, version := ← Minipool.supported a v }

def minipoolsFor (ς : Survey) (addresses : List Address) : Snapshot (List Details) := do
  let raw ← startRecords addresses (← ς.minipoolVersions addresses)
  let raw ← ς.minipoolRaw raw
  let shares ← ς.minipoolShares raw
  Details.assembleAll raw shares

def minipool (ς : Survey) (a : Address) : Snapshot Details := do
  match (← ς.minipoolsFor [a]).getLast? with
  | some d => return d
  | none => .done (.error (.lengthMismatch "minipool snapshots" 1 0))

def allMinipools (ς : Survey) : Snapshot (List Details) := do
  ς.minipoolsFor (← ς.addresses .allMinipools)

def nodeMinipools (ς : Survey) (node : Address) : Snapshot (List Details) := do
  ς.minipoolsFor (← ς.addresses (.nodeMinipools node))

end PoolSnapshot.Survey
