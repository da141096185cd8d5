import PoolSnapshot.Proofs.Contract.Dispatch
import PoolSnapshot.Proofs.Survey.Calls
import PoolSnapshot.Proofs.Survey.Listed

/-!
All reads there are, family by family. The data of the call that a read is made by shows the method and
the arguments, so that reads which differ in these are made by calls that differ.
-/
namespace PoolSnapshot

open Abi (Value)
open Interface (knownFunctions)
open Minipool (Raw Shares Details CompleteShares)
open OracleDao (MemberRaw SettingsRaw)

/-- The reads that a survey queues, and before it the finding of its contracts. -/
inductive Read.Queued : {R : Type} → CallMode → Nat → Read R → Prop
  | contract {storage : Address} {ρ : Read Address} (m : ρ ∈ Network.resolution storage) :
      Queued .strict ρ.slot ρ
  | count (α : Addresses) (κ : Collection) : Queued .strict 0 (κ.countRead (.ofAddresses α))
  | address (α : Addresses) (κ : Collection) (i index : Nat) :
      Queued .strict i (κ.addressRead (.ofAddresses α) i index)
  | version (α : Addresses) (i : Nat) (a : Address) :
      Queued .lenient i (Minipool.versionRead (.ofAddresses α) i a)
  | details {α : Addresses} {r : Raw} {ρ : Read Raw} (m : ρ ∈ r.reads (.ofAddresses α) i) :
      Queued .strict i ρ
  | shares {α : Addresses} {r : Raw} {amount : Int} {ρ : Read Shares}
      (m : ρ ∈ Shares.reads (.ofAddresses α) i r amount) : Queued .strict i ρ
  | completeShares {α : Addresses} {d : Details} {beacon : Word} {amount : Int} {ρ : Read CompleteShares}
      (m : ρ ∈ CompleteShares.beaconReads (.ofAddresses α) i d beacon ++
        CompleteShares.totalReads (.ofAddresses α) i d amount) : Queued .strict i ρ
  | member {α : Addresses} {a : Address} {ρ : Read MemberRaw} (m : ρ ∈ MemberRaw.reads (.ofAddresses α) i a) :
      Queued .strict i ρ
  | settings {α : Addresses} {ρ : Read SettingsRaw} (m : ρ ∈ SettingsRaw.reads (.ofAddresses α)) :
      Queued .strict 0 ρ
  | challenge (verifier : Address) (i proposal index : Nat) :
      Queued .strict i (ChallengeState.read ⟨.verifier, verifier⟩ i proposal index)

namespace Minipool

theorem words_reads (α : Addresses) (slot : Nat) (r : Raw) :
    ∀ ρ ∈ r.reads (.ofAddresses α) slot, ∀ v ∈ ρ.args, v.IsWord := by
  suffices all : ∀ ρ ∈ r.allReads slot (.ofAddresses α), ∀ v ∈ ρ.args, v.IsWord from
    fun ρ m => all ρ ((r.reads_sublist slot _).mem m)
  simp [Raw.allReads, Raw.commonReads, Raw.atlasReads, Raw.outsideReads, Raw.byAddress, Raw.onMinipool,
    Raw.stored, Read.of, Value.IsWord]

theorem words_sharePair {R : Type} {node user : R → Word → R} :
    ∀ ρ ∈ sharePair ν slot a amount node user, ∀ v ∈ ρ.args, v.IsWord := by
  simp [sharePair, Read.of, Value.IsWord]

end Minipool

theorem OracleDao.MemberRaw.words_reads : ∀ ρ ∈ reads ν slot a, ∀ v ∈ ρ.args, v.IsWord := by
  simp [reads, ask, Read.of, Value.IsWord]

theorem OracleDao.SettingsRaw.words_reads : ∀ ρ ∈ reads ν, ∀ v ∈ ρ.args, v.IsWord := by
  simp [reads, ask, Read.of, Value.IsWord]

namespace Read

variable {R R' : Type} {ρ : Read R} {ρ' : Read R'} {slot slot' : Nat}

namespace Queued

theorem listed (h : ρ.Queued mode slot) : ρ.Listed mode slot := by
  cases h with
  | contract m =>
    obtain ⟨slot, -, listed⟩ := Network.listed_resolution _ _ m
    exact listed.slot_eq ▸ listed
  | count α κ => exact κ.listed_count α
  | address α κ slot index => exact κ.listed_address α slot index
  | version α slot a => exact Minipool.listed_version α slot a
  | details m => exact Minipool.listed_reads _ _ _ _ m
  | shares m => exact Minipool.listed_shares _ _ _ _ _ m
  | completeShares m => exact Minipool.listed_completeShares _ _ _ _ _ _ m
  | member m => exact MemberRaw.listed_reads _ _ _ _ m
  | settings m => exact SettingsRaw.listed_reads _ _ m
  | challenge verifier slot proposal index => exact ChallengeState.listed_read slot verifier proposal index

theorem words (h : ρ.Queued mode slot) : ∀ v ∈ ρ.args, v.IsWord := by
  cases h with
  | contract m =>
    obtain ⟨_, -, rfl⟩ := List.mem_map.mp m
    simp [of, Value.IsWord]
  | count α κ => cases κ <;> simp [Collection.countRead, of, Value.IsWord]
  | address α κ => cases κ <;> simp [Collection.addressRead, of, Value.IsWord]
  | version => exact List.forall_mem_nil _
  | details m => exact Minipool.words_reads _ _ _ _ m
  | shares m =>
    rw [Shares.reads] at m
    split at m
    · cases m
    · exact Minipool.words_sharePair _ m
  | completeShares m =>
    rw [CompleteShares.beaconReads, CompleteShares.totalReads, List.mem_append] at m
    rcases m with m | m
    all_goals
      split at m
      · cases m
      · exact Minipool.words_sharePair _ m
  | member m => exact MemberRaw.words_reads _ m
  | settings m => exact SettingsRaw.words_reads _ m
  | challenge => simp [ChallengeState.read, of, Value.IsWord]

end Queued

/-- Of its target the read asks the same as the other one of its own. -/
structure Same (ρ : Read R) (ρ' : Read R') : Prop where
  target : ρ.contract.address = ρ'.contract.address
  method : ρ.method = ρ'.method
  args : ρ.args = ρ'.args

/-- The data of the call shows the method and the arguments of the read. -/
def ToldBy (ρ : Read R) (c : Call) : Prop :=
  ∃ f, f.name = ρ.method ∧ c.Tells ρ.contract.address f ρ.args

theorem Queued.exists_call (h : ρ.Queued mode slot) : ∃ f ∈ knownFunctions, f.name = ρ.method ∧
    ρ.Calls (.to ρ.contract.address f.signature ρ.args) ∧
    (Call.to ρ.contract.address f.signature ρ.args).Tells ρ.contract.address f ρ.args := by
  obtain ⟨f, known, t, d⟩ := h.listed.declares
  exact ⟨f, known, d.name_eq, ⟨_, entry_eq d.found d.fits, rfl⟩, Call.tells_to known h.words d.fits⟩

theorem Calls.unique (calls : ρ.Calls c) (calls' : ρ.Calls c') : c = c' := by
  obtain ⟨e, made, rfl⟩ := calls
  obtain ⟨e', made', rfl⟩ := calls'
  cases made.symm.trans made'
  rfl

theorem Queued.toldBy (h : ρ.Queued mode slot) (calls : ρ.Calls c) : ρ.ToldBy c := by
  obtain ⟨f, -, name, calls', tells⟩ := h.exists_call
  cases calls.unique calls'
  exact ⟨f, name, tells⟩

/-- Reads are made by one call exactly if they ask the same. -/
theorem Queued.same_iff (h : ρ.Queued mode slot) (h' : ρ'.Queued mode' slot') (calls : ρ.Calls c)
    (calls' : ρ'.Calls c') : c = c' ↔ ρ.Same ρ' := by
  obtain ⟨f, known, name, made, tells⟩ := h.exists_call
  obtain ⟨f', known', name', made', tells'⟩ := h'.exists_call
  cases calls.unique made
  cases calls'.unique made'
  constructor
  · intro same
    obtain ⟨rfl, args⟩ := tells.inj tells' (congrArg Call.data same)
    exact ⟨congrArg Call.target same, name.symm.trans name', args⟩
  · rintro ⟨target, method, args⟩
    obtain rfl : f = f' :=
      List.inj_on_of_nodup_map Interface.nodup_names known known' (name.trans (method.trans name'.symm))
    rw [target, args]

/-- The reads make the calls, in order. -/
structure Make (ρs : List (Read R)) (cs : List Call) : Prop where
  queued : ∀ ρ ∈ ρs, ∃ mode slot, ρ.Queued mode slot
  calls : List.Forall₂ Calls ρs cs

theorem Make.toldBy {ρs : List (Read R)} (h : Make ρs cs) : List.Forall₂ ToldBy ρs cs := by
  refine ((List.forall₂_and_left _ _).mpr ⟨h.queued, h.calls⟩).imp ?_
  rintro ρ c ⟨⟨mode, slot, queued⟩, made⟩
  exact queued.toldBy made

theorem calls_ofReads {ρs : List (Read R)} (made : Batch.ofReads ρs = .ok b) :
    List.Forall₂ Calls ρs (b.map (·.call)) := by
  rw [List.forall₂_map_right_iff]
  exact (Traverse.mapM_eq_ok.mp made).imp fun ρ e queued => ⟨e, queued, rfl⟩

end Read

end PoolSnapshot
