import PoolSnapshot.Proofs.Minipool.Requests

/-!
What the calls of a snapshot are about. Each is on one topic: a version, details that every minipool
has, details that came with the third version, or shares; no call could be taken for one on another
topic, nor for the same call about another minipool.
-/
namespace PoolSnapshot

open Abi (Value)
open Minipool (Raw Shares)

inductive Topic where
  | version
  | details
  | atlas
  | shares
  deriving DecidableEq

namespace Topic

def signatures : Topic → List String
  | version => ["version()"]
  | details =>
    ["getMinipoolExists(address)", "getMinipoolPubkey(address)",
      "getMinipoolWithdrawalCredentials(address)", "getMinipoolRPLSlashed(address)", "getStatus()",
      "getStatusBlock()", "getStatusTime()", "getFinalised()", "getNodeFee()",
      "getNodeDepositBalance()", "getNodeDepositAssigned()", "getUserDepositBalance()",
      "getUserDepositAssigned()", "getUserDepositAssignedTime()", "getUseLatestDelegate()",
      "getDelegate()", "getPreviousDelegate()", "getEffectiveDelegate()", "getNodeAddress()",
      "getNodeRefundBalance()", "getUint(bytes32)", "getMinipoolDepositType(address)",
      "getEthBalance(address)"]
  | atlas =>
    ["getUserDistributed()", "getVacant()", "getPreMigrationBalance()", "getReduceBondTime(address)",
      "getReduceBondCancelled(address)", "getLastBondReductionTime(address)",
      "getLastBondReductionPrevValue(address)", "getLastBondReductionPrevNodeFee(address)",
      "getReduceBondValue(address)"]
  | shares => ["calculateNodeShare(uint256)", "calculateUserShare(uint256)"]

theorem mem_signatures (t : Topic) : ∀ s ∈ t.signatures, s ∈ Interface.signatures := by
  cases t <;> decide +kernel

theorem eq_of_mem (t t' : Topic) : ∀ s ∈ t.signatures, s ∈ t'.signatures → t = t' := by
  cases t <;> cases t' <;> decide

end Topic

/-- The call asks for something of the topic. -/
def Call.On (t : Topic) (c : Call) : Prop := ∃ s ∈ t.signatures, ∃ a args, c = .to a s args

theorem Call.On.unique {c : Call} (h : c.On t) (h' : c.On t') : t = t' := by
  obtain ⟨s, m, a, args, rfl⟩ := h
  obtain ⟨s', m', b, args', same⟩ := h'
  obtain ⟨-, rfl, -⟩ := Call.to_inj (Interface.known_of_mem (t.mem_signatures s m))
    (Interface.known_of_mem (t'.mem_signatures s' m')) same
  exact t.eq_of_mem t' s m m'

theorem Abi.encode_address_inj (h : encode [.address a] = encode [.address b]) : a = b := by
  have ty (c : Address) : Value.EachHasTy [.address c] [.address] := ⟨trivial, trivial⟩
  have length : (encode [.address a]).length = 32 := length_word _
  cases encode_inj (ty a) (ty b) (by omega) (List.ne_nil_of_length_pos (by omega)) h
  rfl

namespace Minipool

variable (α : Addresses) (a : Address)

/-- What is asked of the minipool itself. -/
def ownSignatures : List String := ["getUserDistributed()", "getVacant()", "getPreMigrationBalance()"]

/-- What is asked about the minipool. -/
def bondSignatures : List String :=
  ["getReduceBondTime(address)", "getReduceBondCancelled(address)",
    "getLastBondReductionTime(address)", "getLastBondReductionPrevValue(address)",
    "getLastBondReductionPrevNodeFee(address)", "getReduceBondValue(address)"]

/-- The reads that came with the third version: three of the minipool, six of the bond reducer. -/
def atlasCalls : List Call :=
  ownSignatures.map (Call.to a · []) ++ bondSignatures.map (Call.to α.bondReducer · [.address a])

variable {α a}

theorem on_atlas : ∀ c ∈ atlasCalls α a, c.On .atlas := by
  simp only [atlasCalls, List.forall_mem_append, List.forall_mem_map]
  constructor
  · intro s m
    exact ⟨s, List.mem_append_left bondSignatures m, a, [], rfl⟩
  · intro s m
    exact ⟨s, List.mem_append_right ownSignatures m, _, _, rfl⟩

theorem eq_of_mem_atlasCalls {b : Address} (m : c ∈ atlasCalls α a) (n : c ∈ atlasCalls α b) : a = b := by
  have known : ∀ s ∈ ownSignatures ++ bondSignatures, Interface.Known s :=
    fun s m => Interface.known_of_mem (Topic.atlas.mem_signatures s m)
  simp only [List.forall_mem_append] at known
  have apart : ∀ s ∈ ownSignatures, s ∉ bondSignatures := by decide
  simp only [atlasCalls, List.mem_append, List.mem_map] at m n
  rcases m with ⟨s, m, rfl⟩ | ⟨s, m, rfl⟩
  · rcases n with ⟨s', n, same⟩ | ⟨s', n, same⟩
    · exact (Call.to_inj (known.1 s' n) (known.1 s m) same).1.symm
    · obtain ⟨-, rfl, -⟩ := Call.to_inj (known.2 s' n) (known.1 s m) same
      exact absurd n (apart s' m)
  · rcases n with ⟨s', n, same⟩ | ⟨s', n, same⟩
    · obtain ⟨-, rfl, -⟩ := Call.to_inj (known.1 s' n) (known.2 s m) same
      exact absurd m (apart s' n)
    · obtain ⟨-, -, encoded⟩ := Call.to_inj (known.2 s' n) (known.2 s m) same
      exact (Abi.encode_address_inj encoded).symm

/-- Only a minipool of the third version is asked for more than the others. -/
theorem exists_detailCalls (α : Addresses) (a : Address) :
    ∃ pre post, ∀ ω, detailCalls α a ω = pre ++ (if ω = .v3 then atlasCalls α a else []) ++ post :=
  ⟨_, _, fun _ => rfl⟩

theorem mem_detailCalls {ω : Version} :
    c ∈ detailCalls α a ω ↔ c ∈ detailCalls α a .v1 ∨ ω = .v3 ∧ c ∈ atlasCalls α a := by
  obtain ⟨pre, post, all⟩ := exists_detailCalls α a
  rw [all, all]
  cases ω <;> simp [or_assoc, or_comm]

theorem atlasCalls_infix : atlasCalls α a <:+: detailCalls α a .v3 := by
  obtain ⟨pre, post, all⟩ := exists_detailCalls α a
  exact ⟨pre, post, (all .v3).symm⟩

theorem on_details : ∀ c ∈ detailCalls α a .v1, c.On .details := by
  simp only [detailCalls, reduceCtorEq, if_false, List.append_nil, List.forall_mem_append,
    List.forall_mem_cons, List.not_mem_nil, false_implies, implies_true, and_true]
  and_intros <;>
    · refine ⟨_, ?_, _, _, rfl⟩
      decide

theorem on_shares {amount : Int} : ∀ c ∈ shareCalls a amount, c.On .shares := by
  rw [shareCalls]
  split
  · simp only [List.forall_mem_cons, List.not_mem_nil, false_implies, implies_true, and_true]
    exact ⟨⟨_, by decide, _, _, rfl⟩, ⟨_, by decide, _, _, rfl⟩⟩
  · exact List.forall_mem_nil _

end Minipool

end PoolSnapshot
