import PoolSnapshot.Proofs.Contract.Selectors
import PoolSnapshot.Proofs.Minipool.Batching
import PoolSnapshot.Proofs.Survey.Chunks

/-!
What version probes bring. A stage of probes that went through left one word for each address, the one
that the outcome of its own probe stands for.
-/
namespace PoolSnapshot

open Abi (Value)

theorem Abi.toOption_decode_uint (bits : Nat) (data : Bytes) :
    (decode [.uint bits] data).toOption =
      if 32 ≤ data.length then some [.uint (BitVec.ofNat 256 (Bytes.ofBigEndian (data.take 32)))]
      else none := by
  have word : wordAt data 0 =
      if 32 ≤ data.length then some (Bytes.ofBigEndian (data.take 32)) else none := by
    simp only [wordAt, bytesAt, List.drop_zero, List.length_take]
    by_cases long : 32 ≤ data.length
    · rw [if_pos long, if_pos (Nat.min_eq_left long)]
      rfl
    · rw [if_neg long, if_neg (by omega)]
      rfl
  cases data with
  | nil => rfl
  | cons b bs =>
    simp only [decode, List.isEmpty_cons, Bool.false_and, Bool.false_eq_true, if_false, Ty.decodeEach,
      Ty.decode, word]
    by_cases long : 32 ≤ (b :: bs).length
    · rw [if_pos long, if_pos long]
      rfl
    · rw [if_neg long, if_neg long]
      rfl

namespace Minipool

/-- The version that the outcome of a probe stands for: its first word, or version 1 if there is none. -/
def answered (o : Outcome) : Word :=
  if o.success ∧ 32 ≤ o.data.length then BitVec.ofNat 256 (Bytes.ofBigEndian (o.data.take 32)) else 1

/-- A probe as it stands in a batch. -/
def probe (slot : Nat) (a : Address) : Entry Word :=
  ⟨slot, .view "version" [] (.uint 8), .to a "version()" [],
    fun v => (v.read Word).map fun w _ => w⟩

def probes (as : List Address) : Batch Word := (as.map (probe 0)).zipIdx.map fun p => p.1.inSlot p.2

/-- The request that probes the minipools at these addresses. -/
def probeRequest (block : Nat) (as : List Address) : Request :=
  ⟨as.map (Call.to · "version()" []), true, block⟩

theorem change?_probe (slot : Nat) (a : Address) (o : Outcome) :
    ((probe slot a).change? o).elim 1 (· 0) = answered o := by
  have decoded := Abi.toOption_decode_uint 8 o.data
  by_cases read : o.success ∧ 32 ≤ o.data.length
  · rw [if_pos read.2, Traverse.toOption_eq_some] at decoded
    have brings : (probe slot a).Brings o (.uint _) := ⟨read.1, [], decoded⟩
    rw [Entry.change?_of_brings brings rfl, answered, if_pos read]
    rfl
  · have none : (probe slot a).change? o = none := by
      refine Option.eq_none_iff_forall_ne_some.mpr ?_
      intro g h
      obtain ⟨success, d⟩ := Entry.change?_eq_some.mp h
      obtain ⟨v, vs, d, -⟩ := Entry.decode_eq_ok.mp d
      rw [if_neg fun long => read ⟨success, long⟩] at decoded
      cases (Traverse.toOption_eq_some.mpr d).symm.trans decoded
    rw [none, answered, if_neg read]
    rfl

theorem ofReads_probes (ν : Network) (as : List Address) :
    Batch.ofReads (readEach as fun slot a => [versionRead ν slot a]) = .ok (probes as) := by
  have singles : (readEach as fun slot a => [versionRead ν slot a]) =
      as.zipIdx.map fun p => versionRead ν p.2 p.1 := List.map_eq_flatMap.symm
  rw [singles, probes, List.zipIdx_map, List.map_map]
  refine Traverse.mapM_eq_ok.mpr ?_
  refine List.forall₂_map_left_iff.mpr (List.forall₂_map_right_iff.mpr (List.forall₂_same.mpr ?_))
  exact fun p _ => Read.entry_eq rfl rfl

theorem request_probes (block : Nat) (as : List Address) :
    (probes as).request .lenient block = probeRequest block as := by
  have calls : (probes as).map (·.call) = as.map (Call.to · "version()" []) := by
    refine List.ext_getElem (by simp [probes]) ?_
    intro k _ _
    simp [probes, probe]
  rw [Batch.request, calls]
  rfl

theorem settle_probes {os : List Outcome} (count : os.length = as.length) :
    ∃ rs flags, (probes as).settle .lenient (.ok os) (List.replicate as.length 0) = (rs, .ok flags) ∧
      withFallback flags rs = os.map answered := by
  have outcomes : os.length = (as.map (probe 0)).length := count.trans (List.length_map _).symm
  have records : (as.map (probe 0)).length = (List.replicate as.length (0 : Word)).length := by simp
  refine ⟨_, _, Batch.settle_probes outcomes records, ?_⟩
  have length : as.length = ((as.map (probe 0)).zip os).length := by simp [count]
  rw [length, withFallback_answers]
  have pairs : ((as.map (probe 0)).zip os).map (fun p => (p.1.change? p.2).elim 1 (· 0)) =
      ((as.map (probe 0)).zip os).map fun p => answered p.2 := by
    refine List.map_congr_left ?_
    rintro ⟨e, o⟩ m
    obtain ⟨a, -, rfl⟩ := List.mem_map.mp (List.of_mem_zip m).1
    exact change?_probe 0 a o
  have last := congrArg (List.map answered) (List.map_snd_zip (Nat.le_of_eq outcomes))
  rw [List.map_map] at last
  exact pairs.trans last

/-- A chunk of probes that went through made one request, and took each outcome for its own address. -/
theorem goes_probes {ν : Network} {as : List Address} (some : as ≠ [])
    (g : (Read.workerWith (readEach as fun slot a => [versionRead ν slot a]) .lenient block report
      withFallback).Goes (List.replicate as.length 0) heard due (.finished out)) :
    ∃ os : List Outcome, os.length = as.length ∧
      (heard, out) = ([(probeRequest block as, .ok os)], os.map answered) := by
  rw [Read.workerWith, ofReads_probes] at g
  rcases Batch.finished_worker g with ⟨none, -⟩ | ⟨os, rs', flags, rfl, settled, rfl⟩
  · rw [probes, List.map_eq_nil_iff, List.zipIdx_eq_nil_iff, List.map_eq_nil_iff] at none
    exact absurd none some
  · obtain ⟨_, same, count, -⟩ := Batch.passes_of_settle settled
    cases same
    have count : os.length = as.length := by simpa [probes] using count
    obtain ⟨rs, flags', settled', left⟩ := settle_probes count
    cases settled.symm.trans settled'
    rw [request_probes, left]
    exact ⟨os, count, rfl⟩

end Minipool

namespace Survey

variable {ς : Survey} {as : List Address}

/-- The requests of the probes, each with the outcomes for its own addresses. -/
theorem probes_of_course (h : (ς.minipoolVersions as).Course parts (.ok ws)) :
    ∃ p, parts = [p] ∧ ∃ os : List Outcome, os.length = as.length ∧ ws = os.map Minipool.answered ∧
      p.asked.Perm ((Chunk.ranges as.length ς.batching.version).map fun r =>
        (Minipool.probeRequest ς.block (r.part as), .ok (r.part os))) := by
  obtain ⟨p, rfl, round⟩ := Program.Course.of_together h
  refine ⟨p, rfl, ?_⟩
  obtain ⟨ways, went, asked, rfl⟩ := round.exists_ways
  rw [List.length_replicate] at went
  obtain ⟨oss, counts, rfl⟩ := Traverse.exists_zipWith
    (P := fun r (os : List Outcome) => os.length = (r.part as).length)
    (f := fun r os => ([(Minipool.probeRequest ς.block (r.part as), .ok os)], os.map Minipool.answered))
    (((List.forall₂_and_left _ _).mpr ⟨fun _ => id, went⟩).imp (by
      rintro r way ⟨m, goes⟩
      rw [Range.part_replicate] at goes
      exact Minipool.goes_probes (Chunk.part_ne_nil m) goes))
  obtain ⟨os, whole, rfl⟩ := Chunk.exists_parts counts
  refine ⟨os, whole, ?left, ?asked⟩
  case left =>
    rw [List.zipWith_map_right, List.zipWith_self, List.flatMap_map]
    simp only [List.map_eq_flatMap]
    rw [← whole]
    exact Chunk.flatMap_part _ os _
  case asked =>
    rw [List.zipWith_map_right, List.zipWith_self, List.flatMap_map] at asked
    refine asked.trans (.of_eq ?_)
    exact List.map_eq_flatMap.symm

end Survey

end PoolSnapshot
