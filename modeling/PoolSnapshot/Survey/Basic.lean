import PoolSnapshot.Batching
import PoolSnapshot.Contract.Network
import PoolSnapshot.Survey.Error

/-!
A survey reads the contracts of one network at one block. What it reads is a program of stages: a
stage covers its records in chunks, one request a chunk, and fails as a whole.
-/
namespace PoolSnapshot

abbrev Snapshot (α : Type) := Program Request Reply SnapshotError α

abbrev Surveyor (R : Type) := Worker Request Reply SnapshotError R

structure Survey where
  network : Network
  batching : Batching
  block : Nat

namespace Survey

variable {R : Type}

/-- Strict reads of one stage. -/
def reader (ς : Survey) (stage : Stage) (ρs : List (Read R)) : Surveyor R :=
  Read.worker ρs ς.block (.batch stage)

def inChunks (ς : Survey) (size : Nat) (records : List R) (worker : Range → List R → Surveyor R) :
    Snapshot (List R) :=
  Program.together ς.batching.maxConcurrent (Task.chunked size records worker)

end Survey

/-- Numbers the records of a chunk and gathers the reads of each. -/
def readEach {R S : Type} (records : List S) (reads : Nat → S → List (Read R)) : List (Read R) :=
  records.zipIdx.flatMap fun (r, slot) => reads slot r

end PoolSnapshot
