import PoolSnapshot.Schedule.Clock

/-!
A drill for the clock: each worker reports, waits, reports again, and then numbers its records or
fails.
-/
namespace PoolSnapshot.Drill

inductive Event where
  | started (worker : Nat) (range : Range) (time : Nat)
  | done (worker time : Nat)
  | failed (worker time : Nat)
  deriving DecidableEq

inductive Report where
  | enter (worker : Nat) (range : Range)
  | leave (worker : Nat) (failure : Bool)

structure Plan where
  delays : List Nat
  failures : List (Nat × String)

namespace Plan

def delay (π : Plan) (k : Nat) : Nat := π.delays.getD (k % π.delays.length) 0

def peer (π : Plan) : Clock.Peer (List Event) Report Unit := fun now q log =>
  match q with
  | .enter k r => (log ++ [.started k r now], (), π.delay k)
  | .leave k true => (log ++ [.failed k now], (), 0)
  | .leave k false => (log ++ [.done k now], (), 0)

def worker (π : Plan) (k : Nat) (r : Range) : Worker Report Unit String Nat :=
  let failure := π.failures.lookup k
  [.ask (.enter k r) fun _ rs => (rs, none),
    .ask (.leave k failure.isSome) fun _ rs =>
      match failure with
      | some e => (rs, some e)
      | none => (rs.zipIdx.map fun (_, i) => (k + 1) * 1000 + i, none)]

/-- The events, all records, and the failure that ended the drill. -/
def run (π : Plan) (records size limit : Nat) : List Event × List Nat × Option String :=
  let τs := Task.chunked size (List.replicate records 0) fun r _ =>
    π.worker (r.start / Chunk.step size) r
  let (φ, failure) := Clock.run π.peer limit τs 0 []
  (φ.peer, φ.records.flatten, failure)

end Plan

end PoolSnapshot.Drill
