import PoolSnapshot.Challenge
import PoolSnapshot.Minipool.CompleteShares
import PoolSnapshot.OracleDao.Member
import PoolSnapshot.OracleDao.Settings

/-!
Errors that come from a request, and the steps between requests, which have none: a value without
meaning is the fault of no reply.
-/
namespace PoolSnapshot

open Minipool (Raw Shares)

/-- What went wrong with a request, if that is why. -/
def ContractError.source? : ContractError → Option BatchError
  | .resolution e => some e
  | _ => none

def SnapshotError.source? : SnapshotError → Option BatchError
  | .batch _ e => some e
  | .contract e => e.source?
  | _ => none

/-- Errors of a value without meaning. -/
def SnapshotError.OfValue : SnapshotError → Prop
  | .unsupportedVersion .. | .invalidValue .. | .conversion .. => True
  | _ => False

theorem SnapshotError.OfValue.source? {e : SnapshotError} (h : e.OfValue) : e.source? = none := by
  cases e <;> first | rfl | cases h

/-- No request is to blame for it. -/
def Blameless (x : Except SnapshotError α) : Prop := ∀ e, x = .error e → e.OfValue

namespace Blameless

variable {α β : Type}

theorem ok (a : α) : Blameless (.ok a) := by
  rintro e ⟨⟩

theorem error (other : e.OfValue) : Blameless (.error e : Except SnapshotError α) := by
  rintro _ ⟨⟩
  exact other

theorem ne {x : Except SnapshotError α} (h : Blameless x) (s : Stage) (err : BatchError) :
    x ≠ .error (.batch s err) := by
  intro failed
  cases h _ failed

theorem bind {x : Except SnapshotError α} {k : α → Except SnapshotError β} (h : Blameless x)
    (rest : ∀ a, Blameless (k a)) : Blameless (x >>= k) := by
  cases x with
  | ok a => exact rest a
  | error e => exact error (h e rfl)

/-- The error of another computation. -/
theorem of_error {x : Except SnapshotError α} (h : Blameless x) (failed : x = .error e) :
    Blameless (.error e : Except SnapshotError β) :=
  error (h e failed)

theorem mapM {f : α → Except SnapshotError β} (each : ∀ a, Blameless (f a)) (as : List α) :
    Blameless (as.mapM f) := by
  induction as with
  | nil => exact ok []
  | cons a as ih =>
    rw [List.mapM_cons]
    exact (each a).bind fun b => ih.bind fun bs => ok (b :: bs)

theorem mapError {f : ε → SnapshotError} (x : Except ε α) (other : ∀ e, (f e).OfValue) :
    Blameless (x.mapError f) := by
  cases x with
  | ok a => exact ok a
  | error e => exact error (other e)

end Blameless

namespace Minipool

theorem Shares.blameless_distributable (r : Raw) : Blameless (distributable r) :=
  .mapError _ fun _ => trivial

theorem blameless_supported (a : Address) (v : Word) : Blameless (supported a v) := by
  rw [supported]
  split
  · exact .ok _
  · exact .error trivial

namespace Details

variable (r : Raw)

theorem blameless_coded [Coded α] (field : String) (w : Word) :
    Blameless (coded r field w : Except SnapshotError α) := by
  rw [coded]
  split
  · exact .ok _
  · exact .error trivial

theorem blameless_key : Blameless (key r) := by
  rw [key]
  split
  · exact .ok _
  · split
    · exact .ok _
    · exact .error trivial

theorem blameless_time (field : String) (w : Word) : Blameless (time r field w) :=
  .mapError _ fun _ => trivial

theorem blameless_block (field : String) (w : Word) : Blameless (block r field w) :=
  .mapError _ fun _ => trivial

theorem blameless_assemble (s : Shares) : Blameless (assemble r s) := by
  rw [assemble]
  refine .bind (blameless_coded r _ _) fun _ => .bind (blameless_coded r _ _) fun _ => ?_
  refine .bind (blameless_key r) fun _ => .bind (blameless_block r _ _) fun _ => ?_
  refine .bind (blameless_time r _ _) fun _ => .bind (blameless_time r _ _) fun _ => ?_
  exact .bind (blameless_time r _ _) fun _ => .bind (blameless_time r _ _) fun _ => .ok _

theorem blameless_assembleAll (rs : List Raw) (ss : List Shares) : Blameless (assembleAll rs ss) := by
  refine .mapM ?_ _
  exact fun p => blameless_assemble p.1 p.2

end Details

theorem CompleteShares.blameless_total (d : Details) (beacon : Word) : Blameless (total d beacon) := by
  rw [total]
  split
  · exact .error trivial
  · exact .mapError _ fun _ => trivial

end Minipool

namespace OracleDao

theorem Member.blameless_assembleAll (rs : List MemberRaw) : Blameless (assembleAll rs) := by
  refine .mapM (fun r => ?_) _
  rw [assemble]
  exact .bind (.mapError _ fun _ => trivial) fun _ => .bind (.mapError _ fun _ => trivial) fun _ => .ok _

namespace Settings

variable (source : Address) (field : String) (w : Word)

theorem blameless_fraction : Blameless (fraction source field w) := .mapError _ fun _ => trivial

theorem blameless_count : Blameless (count source field w) := .mapError _ fun _ => trivial

theorem blameless_duration : Blameless (duration source field w) := .mapError _ fun _ => trivial

theorem blameless_assemble (r : SettingsRaw) : Blameless (assemble source r) := by
  have fraction := blameless_fraction source
  have count := blameless_count source
  have duration := blameless_duration source
  rw [assemble]
  refine .bind ?members fun _ => .bind ?minipools fun _ => .bind ?proposals fun _ => .ok _
  case members =>
    rw [assembleMembers]
    refine .bind (fraction _ _) fun _ => .bind (count _ _) fun _ => .bind (fraction _ _) fun _ => ?_
    exact .bind (duration _ _) fun _ => .bind (duration _ _) fun _ => .ok _
  case minipools =>
    rw [assembleMinipools]
    refine .bind (duration _ _) fun _ => .bind (duration _ _) fun _ => ?_
    exact .bind (duration _ _) fun _ => .bind (duration _ _) fun _ => .ok _
  case proposals =>
    rw [assembleProposals]
    refine .bind (duration _ _) fun _ => .bind (duration _ _) fun _ => .bind (duration _ _) fun _ => ?_
    exact .bind (duration _ _) fun _ => .bind (duration _ _) fun _ => .ok _

end Settings

end OracleDao

theorem ChallengeState.blameless_decodeAll (pairs : List (Nat × Nat)) (answers : List Word) :
    Blameless (decodeAll pairs answers) := by
  refine .mapM (fun q => ?_) _
  change Blameless (decode q.2.1 q.2.2 q.1)
  rw [decode]
  split
  · exact .ok _
  · exact .error trivial

namespace Survey

theorem blameless_startRecords (addresses : List Address) (ws : List Word) :
    Blameless (startRecords addresses ws) := by
  refine .mapM ?_ _
  exact fun p => (Minipool.blameless_supported p.1 p.2).bind fun _ => .ok _

theorem blameless_countOf (κ : Collection) (ws : List Word) : Blameless (countOf κ ws) :=
  .mapError _ fun _ => trivial

end Survey

end PoolSnapshot
