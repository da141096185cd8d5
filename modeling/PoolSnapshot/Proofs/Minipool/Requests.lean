import PoolSnapshot.Proofs.Minipool.Stages
import PoolSnapshot.Proofs.Survey.Calls

/-!
The requests of a snapshot, call by call. No read is left out or made twice, and a request is of one
chunk and one stage.
-/
namespace PoolSnapshot

open Abi (Value)
open Minipool (Raw Shares Details)

namespace Minipool

variable (α : Addresses)

/-- The calls for a minipool of a version at an address. -/
def detailCalls (a : Address) (ω : Version) : List Call :=
  let onMinipool (signature : String) := Call.to a signature []
  let byAddress (κ : Address) (signature : String) := Call.to κ signature [.address a]
  let stored (name : String) :=
    Call.to α.storage "getUint(bytes32)"
      [.fixedBytes (Keccak.hash (Bytes.ofText name ++ a.bytes)).bytes]
  [byAddress α.minipoolManager "getMinipoolExists(address)",
    byAddress α.minipoolManager "getMinipoolPubkey(address)",
    byAddress α.minipoolManager "getMinipoolWithdrawalCredentials(address)",
    byAddress α.minipoolManager "getMinipoolRPLSlashed(address)",
    onMinipool "getStatus()", onMinipool "getStatusBlock()", onMinipool "getStatusTime()",
    onMinipool "getFinalised()", onMinipool "getNodeFee()", onMinipool "getNodeDepositBalance()",
    onMinipool "getNodeDepositAssigned()", onMinipool "getUserDepositBalance()",
    onMinipool "getUserDepositAssigned()", onMinipool "getUserDepositAssignedTime()",
    onMinipool "getUseLatestDelegate()", onMinipool "getDelegate()",
    onMinipool "getPreviousDelegate()", onMinipool "getEffectiveDelegate()",
    onMinipool "getNodeAddress()", onMinipool "getNodeRefundBalance()"] ++
  (if ω = .v3 then
    [onMinipool "getUserDistributed()", onMinipool "getVacant()",
      onMinipool "getPreMigrationBalance()",
      byAddress α.bondReducer "getReduceBondTime(address)",
      byAddress α.bondReducer "getReduceBondCancelled(address)",
      byAddress α.bondReducer "getLastBondReductionTime(address)",
      byAddress α.bondReducer "getLastBondReductionPrevValue(address)",
      byAddress α.bondReducer "getLastBondReductionPrevNodeFee(address)",
      byAddress α.bondReducer "getReduceBondValue(address)"]
  else []) ++
  [stored "network.penalties.penalty", stored "minipool.penalty.rate",
    byAddress α.minipoolManager "getMinipoolDepositType(address)",
    byAddress α.multicall "getEthBalance(address)"]

theorem length_detailCalls (a : Address) (ω : Version) :
    (detailCalls α a ω).length = if ω = .v3 then 33 else 24 := by
  cases ω <;> rfl

/-- The calls for the shares of an amount, if there are any. -/
def shareCalls (a : Address) (amount : Int) : List Call :=
  if 0 < amount then
    [.to a "calculateNodeShare(uint256)" [.uint (BitVec.ofInt 256 amount)],
      .to a "calculateUserShare(uint256)" [.uint (BitVec.ofInt 256 amount)]]
  else []

variable (slot : Nat)

theorem calls_version (a : Address) :
    (versionRead (.ofAddresses α) slot a).Calls (.to a "version()" []) :=
  Read.calls_of rfl rfl rfl rfl

theorem calls_reads (r : Raw) :
    List.Forall₂ Read.Calls (r.reads (.ofAddresses α) slot) (detailCalls α r.address r.version) := by
  refine List.rel_append (List.rel_append ?common ?atlas) ?outside
  case common =>
    simp only [Raw.commonReads, List.forall₂_cons, List.forall₂_nil_left_iff, and_true]
    and_intros <;> exact Read.calls_of rfl rfl rfl rfl
  case atlas =>
    cases r.version with
    | v1 => exact .nil
    | v2 => exact .nil
    | v3 =>
      rw [if_pos rfl]
      change List.Forall₂ _ (r.atlasReads _ slot) _
      simp only [Raw.atlasReads, List.forall₂_cons, List.forall₂_nil_left_iff, and_true]
      and_intros <;> exact Read.calls_of rfl rfl rfl rfl
  case outside =>
    simp only [Raw.outsideReads, List.forall₂_cons, List.forall₂_nil_left_iff, and_true]
    and_intros <;> exact Read.calls_of rfl rfl rfl rfl

theorem calls_sharePair {R : Type} (ν : Network) (a : Address) (w : Word) (node user : R → Word → R) :
    List.Forall₂ Read.Calls (sharePair ν slot a w node user)
      [.to a "calculateNodeShare(uint256)" [.uint w], .to a "calculateUserShare(uint256)" [.uint w]] := by
  simp only [sharePair, List.forall₂_cons, List.forall₂_nil_left_iff, and_true]
  and_intros <;> exact Read.calls_of rfl rfl rfl rfl

theorem calls_shares (r : Raw) (amount : Int) :
    List.Forall₂ Read.Calls (Shares.reads (.ofAddresses α) slot r amount)
      (shareCalls r.address amount) := by
  by_cases low : amount ≤ 0
  · rw [Shares.reads, if_pos low, shareCalls, if_neg (by omega)]
    exact .nil
  · rw [Shares.reads, if_neg low, shareCalls, if_pos (by omega)]
    exact calls_sharePair slot _ r.address _ _ _

variable {raw : Raw} {r : Raw} {s : Shares} {d : Details}

theorem detailCalls_assembled (k : raw.Kept r) (t : Details.Assembled r s d) :
    detailCalls α raw.address raw.version = detailCalls α d.address d.version := by
  rw [← k.address, ← t.address, ← k.version, ← t.version]

/-- What a record's shares are asked for. -/
def Shares.amount (r : Raw) : Int := (distributable r).toOption.getD 0

theorem Shares.Of.distributable_eq (o : Shares.Of r s) : Shares.distributable r = .ok (Shares.amount r) := by
  rw [Shares.amount, o.1]
  rfl

theorem shareCalls_assembled (o : Shares.Of r s) (t : Details.Assembled r s d) :
    shareCalls r.address (Shares.amount r) = shareCalls d.address d.distributableBalance := by
  rw [Shares.amount, o.1, ← t.address, ← t.shares]
  rfl

end Minipool

namespace Survey

variable {ς : Survey} {α : Addresses} {as : List Address} {raw raws : List Raw} {ds : List Details}
  (deployed : ς.network = .ofAddresses α)

include deployed

omit deployed in
theorem questions_versions (h : (ς.minipoolVersions as).Course [p] (.ok ws)) :
    (p.asked.map (·.1)).Perm
      ((Chunk.ranges as.length ς.batching.version).map fun r =>
        ⟨(r.part as).map (Call.to · "version()" []), true, ς.block⟩) := by
  obtain ⟨_, ⟨⟩, os, -, -, asked⟩ := probes_of_course h
  refine (asked.map _).trans (.of_eq ?_)
  rw [List.map_map]
  rfl

theorem questions_details (h : (ς.minipoolRaw raw).Course [p] (.ok raws)) :
    (p.asked.map (·.1)).Perm
      ((Chunk.ranges raw.length ς.batching.minipool).map fun r =>
        ⟨(r.part raw).flatMap fun x => Minipool.detailCalls α x.address x.version, false, ς.block⟩) := by
  obtain ⟨_, ⟨⟩, round⟩ := Program.Course.of_together h
  refine round.questions.trans (.of_eq ?_)
  rw [Task.chunked_eq, List.flatMap_map, List.map_eq_flatMap]
  refine List.flatMap_congr fun r m => ?_
  have calls : List.Forall₂ Read.Calls (readEach (r.part raw) (Raw.reads (.ofAddresses α)))
      ((r.part raw).flatMap fun x => Minipool.detailCalls α x.address x.version) :=
    Read.calls_readEach (Minipool.calls_reads α)
  rw [deployed]
  refine (Read.questions_workerWith calls .strict ς.block _ _).trans (if_neg ?_)
  obtain ⟨x, xs, e⟩ := List.exists_cons_of_ne_nil (Chunk.part_ne_nil m)
  rw [e]
  nofun

theorem questions_shares (h : (ς.minipoolShares raws).Course [p] (.ok ss)) :
    (p.asked.map (·.1)).Perm
      ((Chunk.ranges raws.length ς.batching.minipool).flatMap fun r =>
        let calls := (r.part raws).flatMap fun x => Minipool.shareCalls x.address (Shares.amount x)
        if calls = [] then [] else [⟨calls, false, ς.block⟩]) := by
  have amounts : ∀ x ∈ raws, Shares.distributable x = .ok (Shares.amount x) := by
    intro x m
    obtain ⟨s, own⟩ := Traverse.exists_forall₂.mp ⟨ss, shares_minipoolShares h⟩ x m
    exact own.distributable_eq
  obtain ⟨_, ⟨⟩, round⟩ := Program.Course.of_together h
  refine round.questions.trans (.of_eq ?_)
  rw [Task.chunked_eq, List.length_replicate, List.flatMap_map]
  refine List.flatMap_congr fun r m => ?_
  have settled : (r.part raws).mapM Shares.distributable = .ok ((r.part raws).map Shares.amount) := by
    refine Traverse.mapM_eq_ok.mpr (List.forall₂_map_right_iff.mpr (List.forall₂_same.mpr ?_))
    exact fun x n => amounts x (List.mem_of_mem_drop (List.mem_of_mem_take n))
  have calls : List.Forall₂ Read.Calls
      (readEach ((r.part raws).zip ((r.part raws).map Shares.amount)) fun slot p =>
        Shares.reads (.ofAddresses α) slot p.1 p.2)
      (((r.part raws).map fun x => (x, Shares.amount x)).flatMap fun p =>
        Minipool.shareCalls p.1.address p.2) := by
    rw [← List.map_prod_left_eq_zip]
    exact Read.calls_readEach fun slot p => Minipool.calls_shares α slot p.1 p.2
  rw [List.flatMap_map] at calls
  rw [Shares.worker, settled, deployed]
  exact Read.questions_workerWith calls .strict ς.block _ _

omit deployed

/-- The requests of a snapshot, chunk by chunk, whatever the node answered in them. -/
theorem minipoolsFor_requests (α : Addresses) (β : Batching) (block : Nat) (as : List Address)
    (h : ((⟨.ofAddresses α, β, block⟩ : Survey).minipoolsFor as).Run asked (.ok ds)) :
    let slices (size : Nat) : List Range :=
      (List.range ((as.length + max 1 size - 1) / max 1 size)).map fun k =>
        ⟨k * max 1 size, min ((k + 1) * max 1 size) as.length⟩
    let version (a : Address) := Call.to a "version()" []
    let details (d : Details) := Minipool.detailCalls α d.address d.version
    let shares (d : Details) := Minipool.shareCalls d.address d.distributableBalance
    let first : List Request :=
      (slices β.version).map fun r => ⟨(r.part as).map version, true, block⟩
    let second : List Request :=
      (slices β.minipool).map fun r => ⟨(r.part ds).flatMap details, false, block⟩
    let third : List Request :=
      (slices β.minipool).flatMap fun r =>
        let calls := (r.part ds).flatMap shares
        if calls = [] then [] else [⟨calls, false, block⟩]
    ds.map (·.address) = as ∧
      (∃ first' second' third', asked.map (·.1) = first' ++ second' ++ third' ∧
        first'.Perm first ∧ second'.Perm second ∧ third'.Perm third) ∧
      first.flatMap (·.calls) = as.map version ∧
      second.flatMap (·.calls) = ds.flatMap details ∧
      third.flatMap (·.calls) = ds.flatMap shares ∧
      ∀ d ∈ ds, (details d).length = if d.version = .v3 then 33 else 24 := by
  intro slices version details shares first second third
  obtain ⟨parts, course, rfl⟩ := h.course
  obtain ⟨v, ws, raw, d, raws, s, ss, rfl, versions, start, reads, sharing, all⟩ :=
    (stages_of_course course).of_ok
  have started := starts versions start
  have kept := kept_minipoolRaw reads
  have finished := finishes sharing all
  have whole := Traverse.forall₂_trans kept finished
  have address : List.Forall₂ (fun a d => a = d.address) as ds := by
    refine (Traverse.forall₂_trans started whole).imp ?_
    rintro _ d ⟨x, rfl, r, k, s, -, t⟩
    exact (t.address.trans k.address).symm
  have own : List.Forall₂ (fun x d => Minipool.detailCalls α x.address x.version = details d) raw ds := by
    refine whole.imp ?_
    rintro x d ⟨r, k, s, -, t⟩
    exact Minipool.detailCalls_assembled α k t
  have shared : List.Forall₂ (fun x d => Minipool.shareCalls x.address (Shares.amount x) = shares d)
      raws ds := by
    refine finished.imp ?_
    rintro x d ⟨s, o, t⟩
    exact Minipool.shareCalls_assembled o t
  have length : ds.length = as.length := address.length_eq.symm
  have ranges (size : Nat) : slices size = Chunk.ranges ds.length size := by
    rw [length]
    rfl
  refine ⟨?aligned, ⟨v.asked.map (·.1), d.asked.map (·.1), s.asked.map (·.1), ?stages, ?versions,
    ?details, ?shares⟩, ?allVersions, ?allDetails, ?allShares, ?reads⟩
  case aligned =>
    rw [← List.forall₂_eq_eq_eq, List.forall₂_map_left_iff]
    exact (address.imp fun _ _ => Eq.symm).flip
  case stages => simp only [List.flatMap_cons, List.flatMap_nil, List.map_append, List.append_nil,
    List.append_assoc]
  case versions => exact questions_versions versions
  case details =>
    refine (questions_details rfl reads).trans (.of_eq ?_)
    rw [whole.length_eq, length]
    refine List.map_congr_left fun r _ => ?_
    rw [Range.flatMap_part_congr own]
  case shares =>
    refine (questions_shares rfl sharing).trans (.of_eq ?_)
    rw [finished.length_eq, length]
    refine List.flatMap_congr fun r _ => ?_
    rw [Range.flatMap_part_congr shared]
  case allVersions =>
    simp only [first, List.flatMap_map]
    simp only [List.map_eq_flatMap]
    exact Chunk.flatMap_part β.version as _
  case allDetails =>
    simp only [second, ranges, List.flatMap_map]
    exact Chunk.flatMap_part β.minipool ds details
  case allShares =>
    have each (calls : List Call) :
        (if calls = [] then [] else [(⟨calls, false, block⟩ : Request)]).flatMap (·.calls) = calls := by
      split
      · next none => exact none.symm
      · exact List.append_nil _
    simp only [third, ranges, List.flatMap_assoc, each]
    exact Chunk.flatMap_part β.minipool ds shares
  case reads => exact fun d _ => Minipool.length_detailCalls α d.address d.version

/-- A balance of five and a refund of one: three requests, the last for the shares. -/
theorem minipoolsFor_requests_refund :
    let α : Addresses := ⟨1, 2, 3, 4, 5, 6, 7, 8, 9⟩
    let ς : Survey := ⟨.ofAddresses α, {}, 0⟩
    ∃ asked d, (ς.minipoolsFor [10]).Run asked (.ok [d]) ∧
      asked.map (·.1) = [⟨[.to 10 "version()" []], true, 0⟩, ⟨Minipool.detailCalls α 10 .v1, false, 0⟩,
        ⟨Minipool.shareCalls 10 4, false, 0⟩] := by
  intro α ς
  let f (c : Call) : Outcome :=
    ⟨true, Abi.word (if c.target = 2 then 5 else if c.target = 10 then 1 else 0)⟩
  obtain ⟨d, taken, values⟩ : ∃ d, Minipool.snapshot ς.network f 10 = some d ∧
      (d.version, d.distributableBalance) = (.v1, 4) :=
    Option.map_eq_some_iff.mp (by subst ς α f; rfl)
  injection values with version amount
  obtain ⟨asked, run⟩ := ς.exists_run (.cons taken .nil)
  obtain ⟨address, ⟨first, second, third, all, one, two, three⟩, -⟩ :=
    minipoolsFor_requests α {} 0 [10] run
  have address : d.address = 10 := List.head_eq_of_cons_eq address
  refine ⟨asked, d, run, ?_⟩
  have one : first = [⟨[.to 10 "version()" []], true, 0⟩] := List.perm_singleton.mp one
  have two : second = [⟨Minipool.detailCalls α d.address d.version ++ [], false, 0⟩] :=
    List.perm_singleton.mp two
  have three : third.Perm
      ((if Minipool.shareCalls d.address d.distributableBalance ++ [] = [] then []
        else [⟨Minipool.shareCalls d.address d.distributableBalance ++ [], false, 0⟩]) ++ []) := three
  rw [address, amount] at three
  have three : third = [⟨Minipool.shareCalls 10 4, false, 0⟩] := List.perm_singleton.mp three
  rw [all, one, two, three, address, version]
  rfl

end Survey

end PoolSnapshot
