import PoolSnapshot.Minipool.Types
import PoolSnapshot.Survey.Basic

/-!
Probing contract versions. A minipool that does not answer the probe is older than versioning and
counts as version 1; an answer is kept as it is, even one without meaning.
-/
namespace PoolSnapshot

namespace Minipool

def versionRead (ν : Network) (slot : Nat) (a : Address) : Read Word :=
  .of slot (ν.minipoolAt a) "version" [] fun _ (v : Word) => v

/-- Where a probe failed, version 1. -/
def withFallback (flags : List Bool) (versions : List Word) : List Word :=
  versions.zipWith (fun v answered => if answered then v else 1) flags

def supported (a : Address) (v : Word) : Except SnapshotError Version :=
  match Coded.ofCode? v.toNat with
  | some ω => .ok ω
  | none => .error (.unsupportedVersion a v)

end Minipool

namespace Survey

def minipoolVersions (ς : Survey) (addresses : List Address) : Snapshot (List Word) :=
  ς.inChunks ς.batching.version (List.replicate addresses.length (0 : Word)) fun r _ =>
    let ρs := readEach (r.part addresses) fun slot a => [Minipool.versionRead ς.network slot a]
    Read.workerWith ρs .lenient ς.block (.batch .versions) Minipool.withFallback

end Survey

end PoolSnapshot
