import PoolSnapshot.Coded
import PoolSnapshot.Survey.Basic

/-!
The states of challenges against the voting trees of proposals.
-/
namespace PoolSnapshot

inductive ChallengeState where
  | unchallenged
  | challenged
  | responded
  | paid
  deriving DecidableEq

instance : Coded ChallengeState where
  all := [.unchallenged, .challenged, .responded, .paid]
  code
    | .unchallenged => 0
    | .challenged => 1
    | .responded => 2
    | .paid => 3
  name
    | .unchallenged => "unchallenged"
    | .challenged => "challenged"
    | .responded => "responded"
    | .paid => "paid"
  label
    | .unchallenged => "Unchallenged"
    | .challenged => "Challenged"
    | .responded => "Responded"
    | .paid => "Paid"

namespace ChallengeState

def read (κ : Contract) (slot proposal index : Nat) : Read Word :=
  .of slot κ "getChallengeState"
    [.uint (BitVec.ofNat 256 proposal), .uint (BitVec.ofNat 256 index)] fun _ (v : Word) => v

def decode (proposal index : Nat) (w : Word) : Except SnapshotError ChallengeState :=
  match Coded.ofCode? w.toNat with
  | some c => .ok c
  | none => .error (.invalidValue (.challenge proposal index) "challenge state" w.decimal)

def decodeAll (pairs : List (Nat × Nat)) (answers : List Word) :
    Except SnapshotError (List ChallengeState) :=
  (answers.zip pairs).mapM fun (w, p, i) => decode p i w

end ChallengeState

namespace Survey

/-- The states of `indices[i]` in proposal `proposals[i]`. -/
def challengeStates (ς : Survey) (proposals indices : List Nat) :
    Snapshot (List ChallengeState) := do
  if proposals.length ≠ indices.length then
    .done (.error (.lengthMismatch "challenge indices" proposals.length indices.length))
  else
    let κ ← (ς.network.protocolVerifier.mapError SnapshotError.contract : Except _ _)
    let pairs := proposals.zip indices
    let answers ← ς.inChunks ς.batching.challengeState (List.replicate pairs.length (0 : Word))
      fun r _ => ς.reader .challenges
        (readEach (r.part pairs) fun slot (p, i) => [ChallengeState.read κ slot p i])
    ChallengeState.decodeAll pairs answers

end Survey

end PoolSnapshot
