import PoolSnapshot.Challenge
import PoolSnapshot.Minipool.CompleteShares
import PoolSnapshot.OracleDao.Member
import PoolSnapshot.OracleDao.Settings
import PoolSnapshot.Proofs.Minipool.Requests

/-!
Reads of listed functions: every read that a survey makes names a function of the catalogue by its own
name, with arguments that fit it and a field that takes what it returns. Only a probe, which may fail,
asks for a version.
-/
namespace PoolSnapshot

open Abi (Value Readable)

open Interface (catalogue knownFunctions)

/-- A call that asks a contract for its version. -/
def Call.IsProbe (c : Call) : Prop := ∃ a, c = .to a "version()" []

/-- The contract is of the kind that the catalogue has by its name. -/
def Contract.Catalogued (κ : Contract) : Prop := catalogue.find? (·.name = κ.name) = some κ.interface

theorem Contract.Catalogued.mem_knownFunctions {κ : Contract} (h : κ.Catalogued)
    (found : κ.function m = .ok f) : f ∈ knownFunctions ∧ f.name = m := by
  rw [function] at found
  split at found
  · next here =>
    cases found
    refine ⟨Interface.knownFunctions_perm.mem_iff.mpr ?_, by simpa using List.find?_some here⟩
    exact List.mem_flatMap.mpr ⟨_, List.mem_of_find?_eq_some h, List.mem_of_find?_eq_some here⟩
  · cases found

theorem Interface.version_known : .view "version" [] (.uint 8) ∈ knownFunctions :=
  (Contract.Catalogued.mem_knownFunctions (κ := ⟨.minipool, 0⟩) (m := "version") rfl rfl).1

namespace Read

variable {R : Type} {slot : Nat} {args : List Value}

structure Listed (mode : CallMode) (slot : Nat) (ρ : Read R) : Prop where
  slot_eq : ρ.slot = slot
  declares : ∃ f ∈ knownFunctions, ∃ t, ρ.Declares f t
  probes : ∀ e, ρ.entry = .ok e → (mode = .lenient ↔ e.call.IsProbe)

theorem Listed.of [Readable α] {value : α → Value} [Abi.Reads α t value] {set : R → α → R} (known : κ.Catalogued)
    (found : κ.function m = .ok f) (fits : Value.eachFits args f.inputTypes = true)
    (answers : f.outputs = [t]) (other : m ≠ "version") :
    (Read.of slot κ m args set).Listed .strict slot := by
  obtain ⟨listed, name⟩ := known.mem_knownFunctions found
  refine ⟨rfl, ⟨f, listed, t, .of found fits answers⟩, ?_⟩
  intro e made
  refine iff_of_false nofun ?_
  rintro ⟨a, probe⟩
  cases made.symm.trans (entry_eq found fits)
  obtain ⟨-, rfl, -⟩ := Call.function_inj listed Interface.version_known probe
  exact other name.symm

end Read

variable (α : Addresses) (slot : Nat)

theorem Collection.listed_count (κ : Collection) : (κ.countRead (.ofAddresses α)).Listed .strict 0 := by
  cases κ <;> exact .of rfl rfl rfl rfl (by decide)

theorem Collection.listed_address (κ : Collection) (index : Nat) :
    (κ.addressRead (.ofAddresses α) slot index).Listed .strict slot := by
  cases κ <;> exact .of rfl rfl rfl rfl (by decide)

namespace Minipool

theorem listed_version (a : Address) : (versionRead (.ofAddresses α) slot a).Listed .lenient slot := by
  refine ⟨rfl, ?_, ?_⟩
  · exact ⟨_, Interface.version_known, _, .of rfl rfl rfl⟩
  · intro e made
    refine iff_of_true rfl ⟨a, ?_⟩
    obtain ⟨e', made', call⟩ := calls_version α slot a
    cases made.symm.trans made'
    exact call

theorem listed_reads (r : Raw) : ∀ ρ ∈ r.reads (.ofAddresses α) slot, ρ.Listed .strict slot := by
  suffices all : ∀ ρ ∈ r.allReads slot (.ofAddresses α), ρ.Listed .strict slot from
    fun ρ m => all ρ ((r.reads_sublist slot _).mem m)
  simp only [Raw.allReads, Raw.commonReads, Raw.atlasReads, Raw.outsideReads, List.forall_mem_append,
    List.forall_mem_cons, List.not_mem_nil, false_implies, implies_true, and_true]
  and_intros <;> exact .of rfl rfl rfl rfl (by decide)

theorem listed_sharePair {R : Type} (a : Address) (amount : Word) (node user : R → Word → R) :
    ∀ ρ ∈ sharePair (.ofAddresses α) slot a amount node user, ρ.Listed .strict slot := by
  simp only [sharePair, List.forall_mem_cons, List.not_mem_nil, false_implies, implies_true, and_true]
  and_intros <;> exact .of rfl rfl rfl rfl (by decide)

theorem listed_shares (r : Raw) (amount : Int) :
    ∀ ρ ∈ Shares.reads (.ofAddresses α) slot r amount, ρ.Listed .strict slot := by
  rw [Shares.reads]
  split
  · exact List.forall_mem_nil _
  · exact listed_sharePair α slot _ _ _ _

theorem listed_completeShares (d : Details) (beacon : Word) (amount : Int) :
    ∀ ρ ∈ CompleteShares.beaconReads (.ofAddresses α) slot d beacon ++
      CompleteShares.totalReads (.ofAddresses α) slot d amount, ρ.Listed .strict slot := by
  rw [List.forall_mem_append, CompleteShares.beaconReads, CompleteShares.totalReads]
  constructor
  all_goals
    split
    · exact List.forall_mem_nil _
    · exact listed_sharePair α slot _ _ _ _

end Minipool

theorem OracleDao.MemberRaw.listed_reads (a : Address) :
    ∀ ρ ∈ reads (.ofAddresses α) slot a, ρ.Listed .strict slot := by
  simp only [reads, List.forall_mem_cons, List.not_mem_nil, false_implies, implies_true, and_true]
  and_intros <;> exact .of rfl rfl rfl rfl (by decide)

theorem OracleDao.SettingsRaw.listed_reads :
    ∀ ρ ∈ reads (.ofAddresses α), ρ.Listed .strict 0 := by
  simp only [reads, List.forall_mem_cons, List.not_mem_nil, false_implies, implies_true, and_true]
  and_intros <;> exact .of rfl rfl rfl rfl (by decide)

theorem ChallengeState.listed_read (a : Address) (proposal index : Nat) :
    (read ⟨.verifier, a⟩ slot proposal index).Listed .strict slot :=
  .of rfl rfl rfl rfl (by decide)

theorem Network.listed_resolution (storage : Address) :
    ∀ ρ ∈ resolution storage, ∃ slot < resolved.length, ρ.Listed .strict slot := by
  rw [resolution, List.forall_mem_map]
  rintro ⟨ι, slot⟩ m
  have inside := (List.getElem?_eq_some_iff.mp (List.mem_zipIdx_iff_getElem?.mp m)).1
  exact ⟨slot, inside, .of rfl rfl rfl rfl (by decide)⟩

end PoolSnapshot
