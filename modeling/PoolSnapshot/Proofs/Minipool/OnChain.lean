import PoolSnapshot.Proofs.Minipool.Stages
import PoolSnapshot.Proofs.Survey.Answered

/-!
Every value of the chain goes to its own field. The fields of a record and the methods that they are read
from are listed side by side, apart from the reads themselves.
-/
namespace PoolSnapshot

open Abi (Value)
open Minipool (Raw AtlasRaw)

namespace Chain

variable (σ : Chain) (α : Addresses) (a : Address)

/-- What the minipool manager says of the minipool at an address. -/
def manager (method : String) : Value := σ ⟨.minipoolManager, α.minipoolManager⟩ method [.address a]

/-- What the minipool says of itself. -/
def minipool (method : String) : Value := σ ⟨.minipool, a⟩ method []

def reducer (method : String) : Value := σ ⟨.bondReducer, α.bondReducer⟩ method [.address a]

def stored (name : String) : Value :=
  σ ⟨.storage, α.storage⟩ "getUint"
    [.fixedBytes (Keccak.hash (Bytes.ofText name ++ a.bytes)).bytes]

def balance : Value := σ ⟨.multicall, α.multicall⟩ "getEthBalance" [.address a]

end Chain

namespace Minipool

structure AtlasRaw.OnChain (σ : Chain) (α : Addresses) (a : Address) (r : AtlasRaw) : Prop where
  userDistributed : σ.minipool a "getUserDistributed" = .bool r.userDistributed
  isVacant : σ.minipool a "getVacant" = .bool r.isVacant
  preMigrationBalance : σ.minipool a "getPreMigrationBalance" = .uint r.preMigrationBalance
  reduceBondTime : σ.reducer α a "getReduceBondTime" = .uint r.reduceBondTime
  reduceBondValue : σ.reducer α a "getReduceBondValue" = .uint r.reduceBondValue
  reduceBondCancelled : σ.reducer α a "getReduceBondCancelled" = .bool r.reduceBondCancelled
  lastBondReductionTime : σ.reducer α a "getLastBondReductionTime" = .uint r.lastBondReductionTime
  lastBondReductionPrevValue :
    σ.reducer α a "getLastBondReductionPrevValue" = .uint r.lastBondReductionPrevValue
  lastBondReductionPrevNodeFee :
    σ.reducer α a "getLastBondReductionPrevNodeFee" = .uint r.lastBondReductionPrevNodeFee

/-- The record has what the chain says of the minipool at `a`. -/
structure Raw.OnChain (σ : Chain) (α : Addresses) (a : Address) (r : Raw) : Prop where
  registered : σ.manager α a "getMinipoolExists" = .bool r.registered
  pubkey : σ.manager α a "getMinipoolPubkey" = .bytes r.pubkey
  withdrawalCredentials :
    σ.manager α a "getMinipoolWithdrawalCredentials" = .fixedBytes r.withdrawalCredentials.bytes
  rplSlashed : σ.manager α a "getMinipoolRPLSlashed" = .bool r.rplSlashed
  depositType : σ.manager α a "getMinipoolDepositType" = .uint r.depositType
  status : σ.minipool a "getStatus" = .uint r.status
  statusBlock : σ.minipool a "getStatusBlock" = .uint r.statusBlock
  statusTime : σ.minipool a "getStatusTime" = .uint r.statusTime
  finalised : σ.minipool a "getFinalised" = .bool r.finalised
  nodeFee : σ.minipool a "getNodeFee" = .uint r.nodeFee
  nodeDepositBalance : σ.minipool a "getNodeDepositBalance" = .uint r.nodeDepositBalance
  nodeDepositAssigned : σ.minipool a "getNodeDepositAssigned" = .bool r.nodeDepositAssigned
  userDepositBalance : σ.minipool a "getUserDepositBalance" = .uint r.userDepositBalance
  userDepositAssigned : σ.minipool a "getUserDepositAssigned" = .bool r.userDepositAssigned
  userDepositAssignedTime :
    σ.minipool a "getUserDepositAssignedTime" = .uint r.userDepositAssignedTime
  useLatestDelegate : σ.minipool a "getUseLatestDelegate" = .bool r.useLatestDelegate
  delegate : σ.minipool a "getDelegate" = .address r.delegate
  previousDelegate : σ.minipool a "getPreviousDelegate" = .address r.previousDelegate
  effectiveDelegate : σ.minipool a "getEffectiveDelegate" = .address r.effectiveDelegate
  nodeAddress : σ.minipool a "getNodeAddress" = .address r.nodeAddress
  nodeRefundBalance : σ.minipool a "getNodeRefundBalance" = .uint r.nodeRefundBalance
  penaltyCount : σ.stored α a "network.penalties.penalty" = .uint r.penaltyCount
  penaltyRate : σ.stored α a "minipool.penalty.rate" = .uint r.penaltyRate
  balance : σ.balance α a = .uint r.balance
  atlas : r.version = .v3 → r.atlas.OnChain σ α a
  legacy : r.version ≠ .v3 → r.atlas = {}

variable {σ : Chain} {f : Call → Outcome} {α : Addresses} {r y : Raw}

theorem onChain_atlas (h : ∀ ρ ∈ r.atlasReads (.ofAddresses α) 0, ρ.Reflects σ y) :
    y.atlas.OnChain σ α r.address := by
  simp only [Raw.atlasReads, List.forall_mem_cons, List.not_mem_nil, false_implies, implies_true,
    and_true] at h
  obtain ⟨distributed, vacant, migrated, time, cancelled, lastTime, lastValue, lastFee, value⟩ := h
  exact
    { userDistributed :=
        distributed.value_eq (AtlasRaw.userDistributed ∘ Raw.atlas) rfl rfl fun _ _ => rfl
      isVacant := vacant.value_eq (AtlasRaw.isVacant ∘ Raw.atlas) rfl rfl fun _ _ => rfl
      preMigrationBalance :=
        migrated.value_eq (AtlasRaw.preMigrationBalance ∘ Raw.atlas) rfl rfl fun _ _ => rfl
      reduceBondTime := time.value_eq (AtlasRaw.reduceBondTime ∘ Raw.atlas) rfl rfl fun _ _ => rfl
      reduceBondValue := value.value_eq (AtlasRaw.reduceBondValue ∘ Raw.atlas) rfl rfl fun _ _ => rfl
      reduceBondCancelled :=
        cancelled.value_eq (AtlasRaw.reduceBondCancelled ∘ Raw.atlas) rfl rfl fun _ _ => rfl
      lastBondReductionTime :=
        lastTime.value_eq (AtlasRaw.lastBondReductionTime ∘ Raw.atlas) rfl rfl fun _ _ => rfl
      lastBondReductionPrevValue :=
        lastValue.value_eq (AtlasRaw.lastBondReductionPrevValue ∘ Raw.atlas) rfl rfl fun _ _ => rfl
      lastBondReductionPrevNodeFee :=
        lastFee.value_eq (AtlasRaw.lastBondReductionPrevNodeFee ∘ Raw.atlas) rfl rfl fun _ _ => rfl }

theorem onChain_reads (k : r.Kept y) (h : ∀ ρ ∈ r.reads (.ofAddresses α) 0, ρ.Reflects σ y) :
    y.OnChain σ α r.address := by
  obtain ⟨inside, outside⟩ := List.forall_mem_append.mp h
  obtain ⟨common, atlas⟩ := List.forall_mem_append.mp inside
  simp only [Raw.commonReads, Raw.outsideReads, List.forall_mem_cons, List.not_mem_nil,
    false_implies, implies_true, and_true] at common outside
  obtain ⟨registered, pubkey, credentials, slashed, status, block, time, finalised, fee, nodeBalance,
    nodeAssigned, userBalance, userAssigned, userTime, latest, delegate, previous, effective, node,
    refund⟩ := common
  obtain ⟨count, rate, deposit, balance⟩ := outside
  exact
    { registered := registered.value_eq Raw.registered rfl rfl fun _ _ => rfl
      pubkey := pubkey.value_eq Raw.pubkey rfl rfl fun _ _ => rfl
      withdrawalCredentials :=
        credentials.value_eq Raw.withdrawalCredentials rfl rfl fun _ _ => rfl
      rplSlashed := slashed.value_eq Raw.rplSlashed rfl rfl fun _ _ => rfl
      depositType := deposit.value_eq Raw.depositType rfl rfl fun _ _ => rfl
      status := status.value_eq Raw.status rfl rfl fun _ _ => rfl
      statusBlock := block.value_eq Raw.statusBlock rfl rfl fun _ _ => rfl
      statusTime := time.value_eq Raw.statusTime rfl rfl fun _ _ => rfl
      finalised := finalised.value_eq Raw.finalised rfl rfl fun _ _ => rfl
      nodeFee := fee.value_eq Raw.nodeFee rfl rfl fun _ _ => rfl
      nodeDepositBalance := nodeBalance.value_eq Raw.nodeDepositBalance rfl rfl fun _ _ => rfl
      nodeDepositAssigned := nodeAssigned.value_eq Raw.nodeDepositAssigned rfl rfl fun _ _ => rfl
      userDepositBalance := userBalance.value_eq Raw.userDepositBalance rfl rfl fun _ _ => rfl
      userDepositAssigned := userAssigned.value_eq Raw.userDepositAssigned rfl rfl fun _ _ => rfl
      userDepositAssignedTime := userTime.value_eq Raw.userDepositAssignedTime rfl rfl fun _ _ => rfl
      useLatestDelegate := latest.value_eq Raw.useLatestDelegate rfl rfl fun _ _ => rfl
      delegate := delegate.value_eq Raw.delegate rfl rfl fun _ _ => rfl
      previousDelegate := previous.value_eq Raw.previousDelegate rfl rfl fun _ _ => rfl
      effectiveDelegate := effective.value_eq Raw.effectiveDelegate rfl rfl fun _ _ => rfl
      nodeAddress := node.value_eq Raw.nodeAddress rfl rfl fun _ _ => rfl
      nodeRefundBalance := refund.value_eq Raw.nodeRefundBalance rfl rfl fun _ _ => rfl
      penaltyCount := count.value_eq Raw.penaltyCount rfl rfl fun _ _ => rfl
      penaltyRate := rate.value_eq Raw.penaltyRate rfl rfl fun _ _ => rfl
      balance := balance.value_eq Raw.balance rfl rfl fun _ _ => rfl
      atlas := by
        intro new
        rw [k.version] at new
        rw [new] at atlas
        exact onChain_atlas atlas
      legacy := by
        intro old
        rw [k.version] at old
        refine k.atlas ?_
        cases v : r.version with
        | v1 | v2 => rfl
        | v3 => exact absurd v old }

theorem exists_filled (answered : ∀ ρ ∈ r.reads (.ofAddresses α) 0, ρ.Answered σ f) :
    ∃ y, filled (.ofAddresses α) f r = some y ∧ r.Kept y ∧ y.OnChain σ α r.address := by
  obtain ⟨y, taken, reflects⟩ :=
    Read.exists_reflects (r.sound_reads α 0) (r.apart_reads 0 _) answered r.cleared
  have kept : r.Kept y := Read.keeps_apply (r.kept_reads _ 0) r.kept_cleared taken
  exact ⟨y, taken, kept, onChain_reads kept reflects⟩

end Minipool

namespace Survey

/-- Where every call of the stage is answered with the chain's value, each record keeps its address and
version and has the chain's values in all its fields, whatever it held before. -/
theorem minipoolRaw_onChain (σ : Chain) (f : Call → Outcome) (reason : Request → String) (α : Addresses)
    (β : Batching) (block : Nat) (records : List Raw)
    (answered : ∀ r ∈ records, ∀ ρ ∈ r.reads (.ofAddresses α) 0, ρ.Answered σ f) :
    ∃ raws, ((⟨.ofAddresses α, β, block⟩ : Survey).minipoolRaw records).Returns (pointwise f reason) raws ∧
      raws.length = records.length ∧
      ∀ (i : Nat) r y, records[i]? = some r → raws[i]? = some y →
        y.address = r.address ∧ y.version = r.version ∧ y.OnChain σ α r.address := by
  let P (r y : Raw) : Prop :=
    Minipool.filled (.ofAddresses α) f r = some y ∧ r.Kept y ∧ y.OnChain σ α r.address
  obtain ⟨raws, each⟩ : ∃ raws, List.Forall₂ P records raws :=
    Traverse.exists_forall₂.mpr fun r m => Minipool.exists_filled (answered r m)
  have taken : List.Forall₂ (fun r y => Minipool.filled (.ofAddresses α) f r = some y) records raws :=
    each.imp fun _ _ h => h.1
  obtain ⟨length, own⟩ := Traverse.forall₂_iff_getElem?.mp each
  refine ⟨raws, ?returns, length, ?fields⟩
  case returns =>
    rw [Program.returns_iff, ← Traverse.toOption_eq_some, toOption_minipoolRaw, Traverse.mapM_eq_some]
    exact taken
  case fields =>
    intro i r y here there
    obtain ⟨-, kept, onChain⟩ := own i r y here there
    exact ⟨kept.address, kept.version, onChain⟩

end Survey

namespace Chain

/-- One value for each type. -/
def uniform : Chain := fun κ m _ =>
  match κ.function m with
  | .error _ => .uint 1
  | .ok g =>
    match g.outputs with
    | [Abi.Ty.bool] => .bool true
    | [Abi.Ty.bytes] => .bytes [7]
    | [Abi.Ty.address] => .address 1
    | [Abi.Ty.fixedBytes _] => .fixedBytes (Abi.word 1)
    | _ => .uint 1

/-- Its answers where the minipool manager is at address three, which alone answers with bytes. -/
def uniformOutcome (c : Call) : Outcome :=
  -- The selector of `getMinipoolPubkey`.
  if c.target = 3 ∧ c.data.take 4 = [0x3e, 0xb5, 0x35, 0xe9] then ⟨true, Abi.encode [.bytes [7]]⟩
  else ⟨true, Abi.word 1⟩

theorem answered_uniform :
    ∀ ρ ∈ ({ address := 10, version := .v3 } : Raw).reads (.ofAddresses ⟨1, 2, 3, 4, 5, 6, 7, 8, 9⟩) 0,
      ρ.Answered uniform uniformOutcome := by
  change ∀ ρ ∈ Raw.commonReads .. ++ Raw.atlasReads .. ++ Raw.outsideReads .., _
  simp only [Raw.commonReads, Raw.atlasReads, Raw.outsideReads, List.forall_mem_append,
    List.forall_mem_cons, List.not_mem_nil, false_implies, implies_true, and_true]
  and_intros <;>
    · refine .of rfl rfl rfl ?typed ?short ?answer
      case typed => first | exact trivial | exact ⟨rfl, by decide, by decide⟩
      case short => first | exact trivial | exact (by decide : 1 < 2 ^ 32)
      case answer => decide +kernel

end Chain

namespace Survey

theorem minipoolRaw_onChain_uniform :
    let ς : Survey := ⟨.ofAddresses ⟨1, 2, 3, 4, 5, 6, 7, 8, 9⟩, {}, 0⟩
    ∃ y : Raw, (ς.minipoolRaw [{ address := 10, version := .v3 }]).Returns
        (pointwise Chain.uniformOutcome fun _ => "") [y] ∧
      y.address = 10 ∧ y.pubkey = [7] ∧ y.atlas.reduceBondValue = 1 := by
  intro ς
  obtain ⟨raws, returns, length, each⟩ :=
    minipoolRaw_onChain .uniform Chain.uniformOutcome (fun _ => "") ⟨1, 2, 3, 4, 5, 6, 7, 8, 9⟩ {} 0
      [{ address := 10, version := .v3 }] (List.forall_mem_singleton.mpr Chain.answered_uniform)
  obtain ⟨y, rfl⟩ := List.length_eq_one_iff.mp length
  obtain ⟨address, version, onChain⟩ := each 0 _ y rfl rfl
  have key : Value.bytes [7] = .bytes y.pubkey := onChain.pubkey
  have bond : Value.uint 1 = .uint y.atlas.reduceBondValue := (onChain.atlas version).reduceBondValue
  injection key with key
  injection bond with bond
  exact ⟨y, returns, address, key.symm, bond.symm⟩

end Survey

end PoolSnapshot
