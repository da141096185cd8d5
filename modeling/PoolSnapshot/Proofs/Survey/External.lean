import PoolSnapshot.Proofs.Minipool.Stages
import PoolSnapshot.Proofs.Survey.Operation
import PoolSnapshot.Proofs.Survey.Slices

/-!
Faults from outside. Where the round trips themselves bring none but their own errors, no program names
a method that is not there, gives it arguments that do not fit, writes past its records or slices past
its lists, and data is refused only where it is not of the type that the method returns.
-/
namespace PoolSnapshot

open Interface (knownFunctions)
open Minipool (Details Shares)
open OracleDao (Member MemberRaw)

namespace BatchError

/-- The errors that a round trip may end with. -/
def OfRound : BatchError → Prop
  | transport _ | timeout _ | reverted _ | outcomeCount .. | malformedResponse _ => True
  | _ => False

/-- Errors that show no mistake in what was asked or in how the answers were taken. -/
def External (asked : List (Request × Reply)) : BatchError → Prop
  | unknownMethod .. | encode .. | slotOutOfRange .. => False
  | decode method target reason =>
    ∃ f ∈ knownFunctions, ∃ q os args o d, (q, .ok os) ∈ asked ∧
      (.to target f.signature args, o) ∈ q.calls.zip os ∧ o.success ∧ f.name = method ∧
      Abi.decode f.outputs o.data = .error d ∧ reason = d.message
  | _ => True

theorem Follows.external {asked : List (Request × Reply)} (h : Follows asked err)
    (plain : ∀ x ∈ asked, ∀ err, x.2 = .error err → err.OfRound) : err.External asked := by
  cases h with
  | round m =>
    have round := plain _ m _ rfl
    cases err <;> trivial
  | count | call => trivial
  | output m here known success unread => exact ⟨_, known, _, _, _, _, _, m, here, success, rfl, unread, rfl⟩

end BatchError

/-- Where the round trips bring no errors but their own, what the program fails with is external. -/
def Program.FailsOutside (source? : ε → Option BatchError) (P : Program Request Reply ε ρ) : Prop :=
  ∀ asked e, P.Run asked (.error e) → (∀ x ∈ asked, ∀ err, x.2 = .error err → err.OfRound) →
    ∀ err, source? e = some err → err.External asked

theorem Program.Sound.failsOutside {P : Program Request Reply ε ρ} {source? : ε → Option BatchError}
    (h : P.Sound source? (source? · = none) block) : P.FailsOutside source? := by
  intro asked e run plain err source
  obtain ⟨parts, course, rfl⟩ := run.course
  rcases h.failed course with none | ⟨R, τ, sound, heard, due, c, goes, failed, sub⟩
  · cases source.symm.trans none
  · rcases sound.fails heard due c e goes failed with ⟨err', source', follows⟩ | none
    · cases source.symm.trans source'
      exact (follows.mono fun x m => sub (List.mem_append_left due m)).external plain
    · cases source.symm.trans none

/-- A stage of one reader leaves as many records as it was given. -/
theorem Read.length_alone {ρs : List (Read R)} {report : BatchError → ε}
    (run : (Program.alone rs (worker ρs block report)).Run asked (.ok out)) : out.length = rs.length := by
  obtain ⟨parts, course, rfl⟩ := run.course
  obtain ⟨part, -, round⟩ := Program.Course.of_together course
  obtain ⟨heard, due, goes⟩ := round.of_single
  obtain ⟨b, es, flags, -, -, passes⟩ := Read.finished_worker goes
  exact passes.length_eq

namespace Survey

variable {ς : Survey} {α : Addresses}

/-- A list that is asked for by its entries is never of the wrong length. -/
theorem Sound.ne_lengthMismatch {P : Snapshot ρ} (h : ς.Sound SnapshotError.OfValue P)
    (course : P.Course parts (.error e)) : e ≠ .lengthMismatch w n m := by
  rintro rfl
  rcases Program.Every.failed h course with value | ⟨R, τ, sound, heard, due, c, goes, failed, -⟩
  · exact value
  · rcases sound.fails heard due c _ goes failed with ⟨err, ⟨⟩, -⟩ | value
    exact value

theorem length_minipoolsFor (course : (ς.minipoolsFor as).Course parts (.ok ds)) : ds.length = as.length := by
  obtain ⟨p, ws, raw, p', raws, p'', ss, -, versions, started, details, shares, assembled⟩ :=
    (stages_of_course course).of_ok
  have length := (finishes shares assembled).length_eq
  rw [← length, ← (kept_minipoolRaw details).length_eq, ← (starts versions started).length_eq]

theorem length_membersFor (course : (ς.membersFor as).Course parts (.ok ms)) : ms.length = as.length := by
  rcases Program.Course.of_together_bind course with ⟨p, _, raw, -, first, rest⟩ | ⟨p, e, -, -, ⟨⟩⟩
  obtain ⟨-, assembled⟩ := Program.Course.of_done rest
  obtain ⟨_, -, round⟩ := Program.Course.of_together first
  have records : List.Forall₂ (fun _ _ => True) (as.map fun a => ({ address := a } : MemberRaw)) raw := by
    refine round.forall₂_of_chunks rfl fun r _ heard due out goes => ?_
    obtain ⟨b, es, flags, -, -, passes⟩ := Read.finished_worker goes
    exact Traverse.forall₂_iff_getElem?.mpr ⟨passes.length_eq, fun _ _ _ _ _ => trivial⟩
  rw [← (Traverse.mapM_eq_ok.mp assembled.symm).length_eq, ← records.length_eq, List.length_map]

/-- A list of one record has a last record. -/
theorem Sound.single {P : Snapshot (List ρ)} {k : List ρ → Snapshot ρ} (h : ς.Sound SnapshotError.OfValue P)
    (length : ∀ parts as, P.Course parts (.ok as) → as.length = 1) (last : ∀ a, k [a] = .done (.ok a))
    (run : (P >>= k).Run asked (.error e)) : e ≠ .lengthMismatch w n m := by
  obtain ⟨parts, course, -⟩ := run.course
  rcases Program.Course.of_bind course with ⟨as, p, p', -, first, rest⟩ | ⟨e', first, ⟨⟩⟩
  · obtain ⟨a, rfl⟩ := List.length_eq_one_iff.mp (length p as first)
    rw [last] at rest
    cases (Program.Course.of_done rest).2
  · exact h.ne_lengthMismatch first

theorem minipool_ne_lengthMismatch (deployed : ς.network = .ofAddresses α)
    (run : (ς.minipool a).Run asked (.error e)) : e ≠ .lengthMismatch w n m :=
  (sound_minipoolsFor deployed [a]).single (fun _ _ => length_minipoolsFor) (fun _ => rfl) run

theorem member_ne_lengthMismatch (deployed : ς.network = .ofAddresses α)
    (run : (ς.member a).Run asked (.error e)) : e ≠ .lengthMismatch w n m :=
  (sound_membersFor deployed [a]).single (fun _ _ => length_membersFor) (fun _ => rfl) run

/-- Every slice that a survey takes lies within its list, and a count comes as one word. -/
structure InBounds (ς : Survey) : Prop where
  versions : ∀ as outside, ς.versionsSliced as outside = ς.minipoolVersions as
  shares : ∀ raw outside, ς.sharesSliced raw outside = ς.minipoolShares raw
  completeShares : ∀ ds beacons outside,
    ς.completeSharesSliced ds beacons outside = ς.completeShares ds beacons
  challengeStates : ∀ ps is outside, ς.challengeStatesSliced ps is outside = ς.challengeStates ps is
  count : ∀ κ asked ws,
    (Program.alone [0] (ς.reader .count [Collection.countRead κ ς.network])).Run asked (.ok ws) → ws.length = 1

theorem inBounds (ς : Survey) : ς.InBounds where
  versions := ς.versionsSliced_eq
  shares := ς.sharesSliced_eq
  completeShares := ς.completeSharesSliced_eq
  challengeStates := ς.challengeStatesSliced_eq
  count _ _ _ run := Read.length_alone run

end Survey

/-- Neither a survey nor the finding of its contracts fails by a mistake of its own: in what it asks, in
where it writes or in what it slices. -/
theorem external_only (block : Nat) :
    (∀ (α : Addresses) (β : Batching), let ς : Survey := ⟨.ofAddresses α, β, block⟩
      (∀ ρ (ω : Operation ρ), (ω.program ς).FailsOutside SnapshotError.source?) ∧
      (∀ a asked e, (ς.minipool a).Run asked (.error e) ∨ (ς.member a).Run asked (.error e) →
        ∀ w n m, e ≠ .lengthMismatch w n m) ∧
      ς.InBounds) ∧
    ∀ storage multicall : Address, (Network.load storage multicall block).FailsOutside ContractError.source? ∧
      ∀ asked found, (Program.alone (List.replicate Network.resolved.length (0 : Address))
          (Read.worker (Network.resolution storage) block ContractError.resolution)).Run asked (.ok found) →
        found.length = Network.resolved.length := by
  refine ⟨fun α β => ?_, fun storage multicall => ⟨?_, fun asked found run => ?_⟩⟩
  · intro ς
    refine ⟨fun ρ ω => ?outside, fun a asked e run w n m => ?single, ς.inBounds⟩
    case outside =>
      have sound : ς.Sound _ _ := Survey.sound_program ω rfl
      exact Program.Sound.failsOutside sound
    case single =>
      rcases run with run | run
      · exact Survey.minipool_ne_lengthMismatch rfl run
      · exact Survey.member_ne_lengthMismatch rfl run
  · exact (Network.sound_load storage multicall block).failsOutside
  · exact Read.length_alone run

/-- A single byte is no word; it is the data that is refused. -/
theorem external_only_count :
    let ς : Survey := ⟨.ofAddresses ⟨1, 2, 3, 4, 5, 6, 7, 8, 9⟩, {}, 7⟩
    let answer (q : Request) : Reply := .ok (q.calls.map fun _ => ⟨true, [1]⟩)
    let err : BatchError := .decode "getMinipoolCount" 3 "Invalid data"
    ∃ asked, (ς.count .allMinipools).Run asked (.error (.batch .count err)) ∧ Answered answer asked ∧
      err.External asked := by
  intro ς answer err
  obtain ⟨r, asked, run, answered⟩ := Program.exists_comes answer (ς.count .allMinipools)
  have fails : r = .error (.batch .count err) := by
    obtain ⟨parts, course, rfl⟩ := run.course
    have refused : Task.runAll answer [⟨[0], ς.reader .count [Collection.allMinipools.countRead ς.network]⟩] =
        .error (.batch .count err) := rfl
    rcases Program.Course.of_together_bind course with ⟨p, _, ws, rfl, first, -⟩ | ⟨p, e, rfl, first, rfl⟩
    · obtain ⟨_, ⟨⟩, round⟩ := Program.Course.of_together first
      cases (round.eq_runAll (Answered.append_iff.mp answered).1).trans refused
    · obtain ⟨_, ⟨⟩, round⟩ := Program.Course.of_together first
      cases (round.eq_runAll (Answered.append_iff.mp answered).1).trans refused
      rfl
  subst fails
  refine ⟨asked, run, answered, ?_⟩
  have outside := ((external_only 7).1 ⟨1, 2, 3, 4, 5, 6, 7, 8, 9⟩ {}).1 _ (.count .allMinipools)
  refine outside asked _ run (fun x m e failed => ?_) err rfl
  rw [answered x m] at failed
  cases failed

end PoolSnapshot
