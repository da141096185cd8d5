import PoolSnapshot.Proofs.Minipool.Stages
import PoolSnapshot.Proofs.Survey.Blame
import PoolSnapshot.Proofs.Survey.Query

/-!
What the tasks of one stage make of their replies: a refused reply ends them with the error of the stage,
and they end well only with proper values. The stages come one by one, each with its own rule for what is
proper.
-/
namespace PoolSnapshot

open Minipool (Raw Shares Details)

namespace Survey

variable {ς : Survey} {α : Addresses} (deployed : ς.network = .ofAddresses α)

include deployed

theorem tells_count (κ : Collection) :
    Tells ς .count (2 ^ 64 ≤ BitVec.toNat ·)
      [⟨[(0 : Word)], ς.reader .count [κ.countRead ς.network]⟩] := by
  refine List.forall_mem_singleton.mpr fun _ _ _ => told_reader (.count κ) ?_
  rw [deployed]
  refine ⟨List.forall_mem_singleton.mpr ⟨0, Nat.zero_lt_one, κ.sound_count α⟩, List.pairwise_singleton _ _⟩

theorem tells_addresses (κ : Collection) (n : Nat) :
    Tells ς .addresses (fun _ => False)
      (Task.chunked ς.batching.address (List.replicate n (0 : Address)) fun r _ =>
        ς.reader .addresses
          ((List.range (r.stop - r.start)).map fun i => κ.addressRead ς.network i (r.start + i))) := by
  refine tells_chunked fun r m heard due c => told_reader (.addresses κ r) ?_
  rw [deployed, Chunk.length_part m]
  refine ⟨List.forall_mem_map.mpr ?_, List.pairwise_map.mpr ?_⟩
  · intro i inside
    exact ⟨i, List.mem_range.mp inside, κ.sound_address α i _ _⟩
  · refine List.nodup_range.imp ?_
    intro i j ne same
    exact absurd (((κ.sound_address α i (fun _ => True) _).slot_eq.symm.trans same).trans
      (κ.sound_address α j (fun _ => True) _).slot_eq) ne

theorem ready_versions (as : List Address) :
    Read.Ready as.length (fun w => ¬(1 ≤ w.toNat ∧ w.toNat < 4))
      (readEach as fun slot a => [Minipool.versionRead ς.network slot a]) := by
  rw [deployed]
  refine Read.ready_readEach ?_ fun slot a => List.pairwise_singleton _ _
  exact fun slot a => List.forall_mem_singleton.mpr (Minipool.sound_version α slot a)

theorem tells_versions (as : List Address) :
    Tells ς .versions (fun w => ¬(1 ≤ w.toNat ∧ w.toNat < 4))
      (Task.chunked ς.batching.version (List.replicate as.length (0 : Word)) fun r _ =>
        Read.workerWith (readEach (r.part as) fun slot a => [Minipool.versionRead ς.network slot a])
          .lenient ς.block (.batch .versions) Minipool.withFallback) := by
  refine tells_chunked fun r _ heard due c g => ?_
  obtain ⟨b, queued, fine, each⟩ := (ready_versions deployed (r.part as)).exists_batch
  rw [Read.workerWith, queued, Range.part_replicate] at g
  refine told_worker (.versions _) queued ?_ ?_ g
  · rw [List.length_replicate]
    exact fine.within
  · intro os rs' flags count p e o v m brings im
    obtain ⟨y, here, bad⟩ := fine.flawed count p m brings im
    obtain ⟨g, s, -⟩ := fine.shows e (List.of_mem_zip m).1 v im
    obtain ⟨k, at_k⟩ := List.getElem?_of_mem m
    have slot : e.slot = k := by
      rw [readEach, ← List.map_eq_flatMap, List.forall₂_map_left_iff] at each
      obtain ⟨length, each⟩ := Traverse.forall₂_iff_getElem?.mp each
      have entry := (List.getElem?_zip_eq_some.mp at_k).1
      have inside := length ▸ (List.getElem?_eq_some_iff.mp entry).1
      obtain ⟨f, t, -, rfl⟩ := each k _ e (List.getElem?_eq_getElem inside) entry
      rw [List.getElem_zipIdx]
      exact Nat.zero_add k
    have answered : flags[e.slot]? = some true := by
      rw [p.flags_eq, slot, List.getElem?_map, at_k, Option.map_some, Entry.change?_of_brings brings s]
      rfl
    refine ⟨y, List.mem_of_getElem? (i := e.slot) ?_, bad⟩
    rw [Minipool.withFallback, List.getElem?_zipWith, here, answered]
    rfl

theorem tells_details (raw : List Raw) :
    Tells ς .details (¬ Raw.Proper ·)
      (Task.chunked ς.batching.minipool raw fun _ rs =>
        .change (fun rs => (rs.map Raw.cleared, none)) ::
          ς.reader .details (readEach rs (Raw.reads ς.network))) := by
  refine tells_chunked fun r _ heard due c => told_change fun _ _ _ => told_reader (.details _) ?_
  rw [deployed, List.length_map]
  exact Read.ready_readEach (fun slot x => x.sound_reads α slot) fun slot x => x.apart_reads slot _

theorem tells_shares (raw : List Raw) :
    Tells ς .shares (fun _ => False)
      (Task.chunked ς.batching.minipool (List.replicate raw.length ({} : Shares)) fun r _ =>
        Shares.worker ς (r.part raw)) := by
  refine tells_chunked fun r _ heard due c g => ?_
  rw [Shares.worker] at g
  cases settled : (r.part raw).mapM Shares.distributable with
  | error e =>
    rw [settled] at g
    refine told_fail ?_ g
    rintro s err rfl
    exact (Blameless.mapM Shares.blameless_distributable _).ne s err settled
  | ok amounts =>
    rw [settled] at g
    refine told_change (fun _ _ _ => told_reader (.shares _) ?_) g
    have length := (Traverse.mapM_eq_ok.mp settled).length_eq
    have records : (List.zipWith (fun (s : Shares) amount => if amount ≤ 0 then Shares.withoutShares amount
        else { s with distributableBalance := amount })
        (r.part (List.replicate raw.length {})) amounts).length = ((r.part raw).zip amounts).length := by
      rw [Range.part_replicate]
      simp only [List.length_zipWith, List.length_replicate, List.length_zip]
    rw [deployed, records]
    exact Read.ready_readEach (fun slot x => Minipool.sound_shares α slot _ x.1 x.2)
      fun slot x => Minipool.apart_shares slot _ x.1 x.2

end Survey

end PoolSnapshot
