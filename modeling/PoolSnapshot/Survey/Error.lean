import PoolSnapshot.Contract.Basic
import PoolSnapshot.Conversion

/-!
Why a snapshot was not taken.
-/
namespace PoolSnapshot

/-- Entities of one kind that the network keeps a list of. -/
inductive Collection where
  | allMinipools
  | nodeMinipools (node : Address)
  | oracleDaoMembers
  deriving DecidableEq

namespace Collection

def label : Collection → String
  | allMinipools => "minipools"
  | nodeMinipools _ => "node minipools"
  | oracleDaoMembers => "oracle DAO members"

end Collection

/-- The parts of a survey, each with requests of its own. -/
inductive Stage where
  | count
  | addresses
  | versions
  | details
  | shares
  | completeShares
  | members
  | settings
  | challenges
  deriving DecidableEq

namespace Stage

def label : Stage → String
  | count => "getting entity count"
  | addresses => "getting entity addresses"
  | versions => "getting minipool versions"
  | details => "getting minipool details"
  | shares => "getting minipool shares"
  | completeShares => "getting complete minipool shares"
  | members => "getting oracle DAO member details"
  | settings => "getting oracle DAO settings"
  | challenges => "getting challenge states"

end Stage

/-- What a wrong value belongs to. -/
inductive Entity where
  | collection (κ : Collection)
  | account (a : Address)
  | minipool (a : Address)
  | challenge (proposal index : Nat)
  deriving DecidableEq

namespace Entity

def label : Entity → String
  | collection κ => κ.label
  | account a => a.text
  | minipool a => s!"minipool {a.text}"
  | challenge p i => s!"proposal {p} index {i}"

end Entity

inductive SnapshotError where
  | batch (stage : Stage) (source : BatchError)
  | unsupportedVersion (address : Address) (version : Word)
  | invalidValue (entity : Entity) (field value : String)
  | conversion (entity : Entity) (field : String) (source : ConversionError)
  | lengthMismatch (what : String) (expected actual : Nat)
  | contract (source : ContractError)
  | noRoom (κ : Collection) (count : Nat)
  deriving DecidableEq

namespace SnapshotError

def message : SnapshotError → String
  | batch s e => s!"error {s.label}: {e.message}"
  | unsupportedVersion a v => s!"minipool {a.text} has unsupported version {v.decimal}"
  | invalidValue n f v => s!"{n.label} has invalid {f}: {v}"
  | conversion n f e => s!"error converting {f} for {n.label}: {e.message}"
  | lengthMismatch w n m => s!"expected {n} {w} but got {m}"
  | contract e => e.message
  | noRoom κ n => s!"no room for {n} {κ.label}"

end SnapshotError

end PoolSnapshot
