import PoolSnapshot.Challenge
import PoolSnapshot.Minipool.CompleteShares
import PoolSnapshot.Proofs.Survey.Chunks

/-!
Slices within their lists. A stage cuts what it was given by the ranges of its records; cut with a check,
which refuses a range that runs backwards or past the end, it is the same stage.
-/
namespace PoolSnapshot

open Minipool (Raw Shares Details CompleteShares)

variable {R S : Type}

/-- The items at the positions of a range that lies within the list. -/
def Range.slice? (r : Range) (xs : List S) : Option (List S) :=
  if r.start ≤ r.stop ∧ r.stop ≤ xs.length then some (r.part xs) else none

/-- The worker of a slice, or another one where there is no such slice. -/
def Range.sliced (r : Range) (xs : List S) (outside : Surveyor R) (worker : List S → Surveyor R) : Surveyor R :=
  (r.slice? xs).elim outside worker

namespace Chunk

theorem slice?_eq {xs : List S} (m : r ∈ ranges xs.length size) : r.slice? xs = some (r.part xs) := by
  refine if_pos ?_
  have some := List.length_pos_iff_ne_nil.mpr (part_ne_nil m)
  have length := length_part m
  obtain ⟨k, -, rfl⟩ := List.mem_map.mp m
  have last : (range xs.length size k).stop ≤ xs.length := Nat.min_le_right _ _
  omega

theorem sliced_eq {xs : List S} (m : r ∈ ranges xs.length size) (outside : Surveyor R)
    (worker : List S → Surveyor R) : r.sliced xs outside worker = worker (r.part xs) := by
  rw [Range.sliced, slice?_eq m]
  rfl

theorem part_zip (r : Range) (xs : List R) (ys : List S) :
    r.part (xs.zip ys) = (r.part xs).zip (r.part ys) := by
  simp only [Range.part, List.zip, List.drop_zipWith, List.take_zipWith]

end Chunk

namespace Survey

variable (ς : Survey)

theorem inChunks_congr {size : Nat} {records : List R} {worker worker' : Range → List R → Surveyor R}
    (each : ∀ r ∈ Chunk.ranges records.length size,
      worker r (r.part records) = worker' r (r.part records)) :
    ς.inChunks size records worker = ς.inChunks size records worker' := by
  have tasks : Task.chunked size records worker = Task.chunked size records worker' := by
    rw [Task.chunked_eq, Task.chunked_eq]
    exact List.map_congr_left fun r m => by rw [each r m]
  rw [inChunks, tasks, inChunks]

def versionsSliced (as : List Address) (outside : Surveyor Word) : Snapshot (List Word) :=
  ς.inChunks ς.batching.version (List.replicate as.length (0 : Word)) fun r _ =>
    r.sliced as outside fun as =>
      Read.workerWith (readEach as fun slot a => [Minipool.versionRead ς.network slot a]) .lenient ς.block
        (.batch .versions) Minipool.withFallback

def sharesSliced (raw : List Raw) (outside : Surveyor Shares) : Snapshot (List Shares) :=
  ς.inChunks ς.batching.minipool (List.replicate raw.length ({} : Shares)) fun r _ =>
    r.sliced raw outside (Shares.worker ς)

def completeSharesSliced (ds : List Details) (beacons : List Word) (outside : Surveyor CompleteShares) :
    Snapshot (List CompleteShares) :=
  if ds.length = beacons.length then
    ς.inChunks ς.batching.completeShare
      (ds.map fun d => ({ address := d.address } : CompleteShares)) fun r _ =>
      r.sliced ds outside fun ds => r.sliced beacons outside fun beacons =>
        CompleteShares.worker ς (ds.zip beacons)
  else .done (.error (.lengthMismatch "beacon balances" ds.length beacons.length))

def challengeStatesSliced (proposals indices : List Nat) (outside : Surveyor Word) :
    Snapshot (List ChallengeState) := do
  if proposals.length ≠ indices.length then
    .done (.error (.lengthMismatch "challenge indices" proposals.length indices.length))
  else
    let κ ← (ς.network.protocolVerifier.mapError SnapshotError.contract : Except _ _)
    let answers ← ς.inChunks ς.batching.challengeState (List.replicate proposals.length (0 : Word))
      fun r _ => r.sliced proposals outside fun ps => r.sliced indices outside fun is =>
        ς.reader .challenges (readEach (ps.zip is) fun slot q => [ChallengeState.read κ slot q.1 q.2])
    ChallengeState.decodeAll (proposals.zip indices) answers

theorem versionsSliced_eq (as : List Address) (outside : Surveyor Word) :
    ς.versionsSliced as outside = ς.minipoolVersions as := by
  refine ς.inChunks_congr fun r m => ?_
  rw [List.length_replicate] at m
  exact Chunk.sliced_eq m outside _

theorem sharesSliced_eq (raw : List Raw) (outside : Surveyor Shares) :
    ς.sharesSliced raw outside = ς.minipoolShares raw := by
  refine ς.inChunks_congr fun r m => ?_
  rw [List.length_replicate] at m
  exact Chunk.sliced_eq m outside _

theorem completeSharesSliced_eq (ds : List Details) (beacons : List Word)
    (outside : Surveyor CompleteShares) :
    ς.completeSharesSliced ds beacons outside = ς.completeShares ds beacons := by
  rw [completeSharesSliced, completeShares]
  split
  · next same =>
    refine ς.inChunks_congr fun r m => ?_
    rw [List.length_map] at m
    rw [Chunk.sliced_eq m, Chunk.sliced_eq (same ▸ m), Chunk.part_zip]
  · rfl

theorem challengeStatesSliced_eq (proposals indices : List Nat) (outside : Surveyor Word) :
    ς.challengeStatesSliced proposals indices outside = ς.challengeStates proposals indices := by
  rw [challengeStatesSliced, challengeStates]
  split
  · rfl
  · next same =>
    have length : (proposals.zip indices).length = proposals.length := by
      rw [List.length_zip, ← not_ne_iff.mp same, Nat.min_self]
    refine congrArg (_ >>= ·) (funext fun κ => congrArg (· >>= _) ?_)
    rw [length]
    refine ς.inChunks_congr fun r m => ?_
    rw [List.length_replicate] at m
    rw [Chunk.sliced_eq m, Chunk.sliced_eq (not_ne_iff.mp same ▸ m), Chunk.part_zip]

end Survey

end PoolSnapshot
