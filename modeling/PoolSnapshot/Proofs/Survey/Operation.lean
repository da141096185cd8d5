import PoolSnapshot.Proofs.Survey.Faults

/-!
All that a survey can be asked for, and the finding of the contracts before it. Each is sound throughout,
stage by stage.
-/
namespace PoolSnapshot

open Minipool (Raw Shares Details CompleteShares)
open OracleDao (Member)

/-- What a survey can be asked for. -/
inductive Operation : Type → Type
  | count (κ : Collection) : Operation Nat
  | addresses (κ : Collection) : Operation (List Address)
  | versions (addresses : List Address) : Operation (List Word)
  | minipoolsFor (addresses : List Address) : Operation (List Details)
  | minipool (a : Address) : Operation Details
  | allMinipools : Operation (List Details)
  | nodeMinipools (node : Address) : Operation (List Details)
  | completeShares (ds : List Details) (beacons : List Word) : Operation (List CompleteShares)
  | membersFor (addresses : List Address) : Operation (List Member)
  | member (a : Address) : Operation Member
  | members : Operation (List Member)
  | settings : Operation OracleDao.Settings
  | challengeStates (proposals indices : List Nat) : Operation (List ChallengeState)

def Operation.program (ς : Survey) : Operation ρ → Snapshot ρ
  | count κ => ς.count κ
  | addresses κ => ς.addresses κ
  | versions as => ς.minipoolVersions as
  | minipoolsFor as => ς.minipoolsFor as
  | minipool a => ς.minipool a
  | allMinipools => ς.allMinipools
  | nodeMinipools node => ς.nodeMinipools node
  | completeShares ds beacons => ς.completeShares ds beacons
  | membersFor as => ς.membersFor as
  | member a => ς.member a
  | members => ς.members
  | settings => ς.odaoSettings
  | challengeStates ps is => ς.challengeStates ps is

/-- Sound tasks throughout, and between them no errors but those of `E`. -/
def Program.Sound (source? : ε → Option BatchError) (E : ε → Prop) (block : Nat)
    (P : Program Request Reply ε ρ) : Prop :=
  P.Every (Task.Sound source? E block) E

theorem Program.Sound.mono {P : Program Request Reply ε ρ} {source? : ε → Option BatchError}
    {E E' : ε → Prop} (h : P.Sound source? E block) (errors : ∀ e, E e → E' e) :
    P.Sound source? E' block :=
  Every.mono h (fun _ _ τ => ⟨τ.asks, τ.reads, fun _ _ _ _ goes failed =>
    (τ.fails _ _ _ _ goes failed).imp id (errors _)⟩) errors

theorem Network.eq_verifier (found : (ofAddresses α).protocolVerifier = .ok κ) : ∃ a, κ = ⟨.verifier, a⟩ := by
  rw [protocolVerifier] at found
  split at found
  · next here =>
    cases found
    rw [ofAddresses] at here
    split at here <;> cases here
    exact ⟨_, rfl⟩
  · cases found

/-- The contracts are found by one sound task. -/
theorem Network.sound_load (storage multicall : Address) (block : Nat) :
    (load storage multicall block).Sound ContractError.source? (·.source? = none) block := by
  refine .bind (.together (List.forall_mem_singleton.mpr ?_)) fun found => .done ?_
  · refine .workerWith ?_ fun _ => rfl
    intro ρ m
    obtain ⟨slot, inside, listed⟩ := listed_resolution storage ρ m
    rw [List.length_replicate]
    exact ⟨_, listed.slot_eq ▸ inside, .contract m⟩
  · intro e h
    rw [ofResolved] at h
    split at h <;> cases h
    rfl

namespace Survey

def Sound (ς : Survey) (E : SnapshotError → Prop) (P : Snapshot ρ) : Prop :=
  P.Sound SnapshotError.source? E ς.block

variable {ς : Survey} {α : Addresses} {E : SnapshotError → Prop}

theorem Sound.bind {P : Snapshot ρ} {k : ρ → Snapshot σ} (h : ς.Sound E P) (rest : ∀ a, ς.Sound E (k a)) :
    ς.Sound E (P >>= k) :=
  Program.Every.bind h rest

theorem Sound.ok (a : ρ) : ς.Sound E (.done (.ok a)) := Program.Every.ok a

theorem Sound.error {e : SnapshotError} (h : E e) : ς.Sound E (.done (.error e) : Snapshot ρ) :=
  Program.Every.error h

theorem Sound.lift {x : Except SnapshotError ρ} (h : ∀ e, x = .error e → E e) : ς.Sound E (.done x) :=
  Program.Every.done h

theorem Sound.lift_bind {x : Except SnapshotError ρ} {k : ρ → Snapshot σ} (h : ∀ e, x = .error e → E e)
    (rest : ∀ a, x = .ok a → ς.Sound E (k a)) : ς.Sound E ((liftM x : Snapshot ρ) >>= k) := by
  cases x with
  | ok a => exact rest a rfl
  | error e => exact .error (h e rfl)

theorem Sound.inChunks {size : Nat} {records : List R} {worker : Range → List R → Surveyor R}
    (each : ∀ r ∈ Chunk.ranges records.length size,
      Task.Sound SnapshotError.source? E ς.block R ⟨r.part records, worker r (r.part records)⟩) :
    ς.Sound E (ς.inChunks size records worker) :=
  Program.Every.together (Task.Sound.chunked each)

/-- A value without meaning is no request's fault. -/
theorem Sound.quiet {P : Snapshot ρ} (h : ς.Sound SnapshotError.OfValue P) :
    ς.Sound (·.source? = none) P :=
  Program.Sound.mono h fun _ e => e.source?

theorem sound_reader {rs : List R} {ρs : List (Read R)} (s : Stage)
    (each : ∀ ρ ∈ ρs, ∃ slot < rs.length, ρ.Queued .strict slot) :
    Task.Sound SnapshotError.source? E ς.block R ⟨rs, ς.reader s ρs⟩ :=
  .workerWith each fun _ => rfl

variable (deployed : ς.network = .ofAddresses α)

include deployed

theorem sound_count (κ : Collection) : ς.Sound SnapshotError.OfValue (ς.count κ) := by
  refine .bind (Program.Every.together ?_) fun ws => .lift (blameless_countOf κ ws)
  refine List.forall_mem_singleton.mpr (sound_reader .count (List.forall_mem_singleton.mpr ?_))
  rw [deployed]
  exact ⟨0, Nat.zero_lt_one, .count α κ⟩

theorem sound_addresses (κ : Collection) : ς.Sound (·.source? = none) (ς.addresses κ) := by
  refine .bind (sound_count deployed κ).quiet fun n => ?_
  split
  · refine .inChunks fun r m => sound_reader .addresses (List.forall_mem_map.mpr ?_)
    rw [deployed, Chunk.length_part m]
    exact fun i inside => ⟨i, List.mem_range.mp inside, .address α κ i _⟩
  · exact .error rfl

theorem sound_versions (as : List Address) : ς.Sound SnapshotError.OfValue (ς.minipoolVersions as) := by
  refine .inChunks fun r _ => .workerWith ?_ fun _ => rfl
  rw [deployed, r.part_replicate as]
  refine Read.queued_readEach List.length_replicate.symm fun slot a => ?_
  exact List.forall_mem_singleton.mpr (.version α slot a)

theorem sound_details (raw : List Raw) : ς.Sound SnapshotError.OfValue (ς.minipoolRaw raw) := by
  refine .inChunks fun r _ => .change (sound_reader .details ?_)
  rw [deployed]
  exact Read.queued_readEach (List.length_map _).symm fun slot x ρ => .details

theorem sound_shares (raw : List Raw) : ς.Sound SnapshotError.OfValue (ς.minipoolShares raw) := by
  refine .inChunks fun r _ => ?_
  rw [Shares.worker]
  split
  · next failed => exact .fail (Blameless.mapM Shares.blameless_distributable _ _ failed)
  · next amounts settled =>
    refine .change (sound_reader .shares ?_)
    have length := (Traverse.mapM_eq_ok.mp settled).length_eq
    rw [deployed, r.part_replicate raw]
    refine Read.queued_readEach ?_ fun slot q ρ => .shares
    simp only [List.length_zip, List.length_zipWith, List.length_replicate]

theorem sound_minipoolsFor (as : List Address) : ς.Sound SnapshotError.OfValue (ς.minipoolsFor as) := by
  refine .bind (sound_versions deployed as) fun ws => .bind (.lift (blameless_startRecords as ws)) fun raw => ?_
  refine .bind (sound_details deployed raw) fun raws => .bind (sound_shares deployed raws) fun ss => ?_
  exact .lift (Details.blameless_assembleAll raws ss)

theorem sound_completeShares (ds : List Details) (beacons : List Word) :
    ς.Sound (·.source? = none) (ς.completeShares ds beacons) := by
  rw [completeShares]
  split
  · next same =>
    refine .inChunks fun r m => ?_
    rw [CompleteShares.worker]
    split
    · next failed =>
      have blameless (q : Details × Word) := CompleteShares.blameless_total q.1 q.2
      exact .fail (Blameless.mapM blameless _ _ failed).source?
    · next totals settled =>
      have length := (Traverse.mapM_eq_ok.mp settled).length_eq
      have pairs : (r.part (ds.zip beacons)).length = r.stop - r.start := by
        have inside : r ∈ Chunk.ranges (ds.zip beacons).length ς.batching.completeShare := by
          rwa [List.length_zip, ← same, Nat.min_self, ← List.length_map]
        exact Chunk.length_part inside
      refine sound_reader .completeShares ?_
      rw [deployed, Chunk.length_part m]
      refine Read.queued_readEach ?_ fun slot (q : (Details × Word) × Int) ρ => .completeShares
      rw [List.length_zip, ← length, Nat.min_self, pairs]
  · exact .error rfl

theorem sound_membersFor (as : List Address) : ς.Sound SnapshotError.OfValue (ς.membersFor as) := by
  refine .bind (.inChunks fun r _ => sound_reader .members ?_) fun raw => ?_
  · rw [deployed]
    exact Read.queued_readEach rfl fun slot m ρ => .member
  · exact .lift (Member.blameless_assembleAll raw)

theorem sound_settings : ς.Sound SnapshotError.OfValue ς.odaoSettings := by
  refine .bind (Program.Every.together ?_) fun raw => .lift (OracleDao.Settings.blameless_assemble _ _)
  refine List.forall_mem_singleton.mpr (sound_reader .settings fun ρ m => ⟨0, Nat.zero_lt_one, ?_⟩)
  rw [deployed] at m
  exact .settings m

theorem sound_challengeStates (ps is : List Nat) : ς.Sound (·.source? = none) (ς.challengeStates ps is) := by
  rw [challengeStates]
  split
  · exact .error rfl
  · refine .lift_bind ?_ fun κ found => .bind (.inChunks fun r _ => sound_reader .challenges ?_) fun ws => ?_
    · intro e failed
      rw [Network.protocolVerifier] at failed
      split at failed <;> cases failed
      rfl
    · rw [deployed, Traverse.mapError_eq_ok] at found
      obtain ⟨a, rfl⟩ := Network.eq_verifier found
      rw [Range.part_replicate]
      refine Read.queued_readEach List.length_replicate.symm fun slot (q : Nat × Nat) => ?_
      exact List.forall_mem_singleton.mpr (.challenge a slot q.1 q.2)
    · exact .lift fun e failed => (ChallengeState.blameless_decodeAll _ ws e failed).source?

omit deployed

theorem sound_program (ω : Operation ρ) (deployed : ς.network = .ofAddresses α) :
    ς.Sound (·.source? = none) (ω.program ς) := by
  cases ω with
  | count κ => exact (sound_count deployed κ).quiet
  | addresses κ => exact sound_addresses deployed κ
  | versions as => exact (sound_versions deployed as).quiet
  | minipoolsFor as => exact (sound_minipoolsFor deployed as).quiet
  | minipool a =>
    refine .bind (sound_minipoolsFor deployed [a]).quiet fun ds => ?_
    split
    · exact .ok _
    · exact .error rfl
  | allMinipools => exact .bind (sound_addresses deployed _) fun as => (sound_minipoolsFor deployed as).quiet
  | nodeMinipools node => exact .bind (sound_addresses deployed _) fun as => (sound_minipoolsFor deployed as).quiet
  | completeShares ds beacons => exact sound_completeShares deployed ds beacons
  | membersFor as => exact (sound_membersFor deployed as).quiet
  | member a =>
    refine .bind (sound_membersFor deployed [a]).quiet fun ms => ?_
    split
    · exact .ok _
    · exact .error rfl
  | members => exact .bind (sound_addresses deployed _) fun as => (sound_membersFor deployed as).quiet
  | settings => exact (sound_settings deployed).quiet
  | challengeStates ps is => exact sound_challengeStates deployed ps is

end Survey

end PoolSnapshot
